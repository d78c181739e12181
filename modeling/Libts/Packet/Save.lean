import Libts.Base.PosixFile
import Libts.Packet.Packets

/-!
# Saving a packet list

`ts_packets_save` packs into a buffer of its own and hands it to `ts_packets_buffer_save`,
which opens the file, writes until nothing is left or a write fails, and says whether it got
to the end. Nothing looks at what it says, and the file is opened without `O_TRUNC`: what is
left in it is the front of the packed bytes that was written, over the bytes the file held
before (`save_eq`).
-/

namespace Libts
set_option autoImplicit false

namespace TsPackets

open PosixFile

/-- What the system does with the calls of one save: `open`, and one answer for each `write`. -/
structure Outcomes where
  opened : Bool
  answers : List Answer
deriving Repr, DecidableEq

/-- The loop of `bufferSave` over the bytes at `base`, with how many are left when it ends.
`none` is a loop still running when the answers end. -/
def saveLoop : List Answer → List UInt8 → Descriptor UInt8 → Option (Nat × Descriptor UInt8)
  | [], base, fd => if base.length = 0 then some (0, fd) else none
  | answer :: answers, base, fd =>
    if base.length = 0 then some (0, fd)
    else
      let (n, fd) := fd.write base answer
      if n = -1 then some (base.length, fd)
      else saveLoop answers (base.drop n.toNat) fd

/-- `ts_packets_buffer_save`, with the file it leaves. -/
def bufferSave (b : Buffer) (file : Option (List UInt8)) (io : Outcomes) : Option (Int × Option (List UInt8)) :=
  if io.opened then
    (saveLoop io.answers b (openCreate file)).map fun (size, fd) => (if size ≠ 0 then -1 else 0, some fd.content)
  else some (-1, file)

/-- `ts_packets_save`, with the file it leaves. -/
def save (packets : TsPackets) (file : Option (List UInt8)) (io : Outcomes) :
    Option (Int × TsPackets × Option (List UInt8)) :=
  let (n, packets, s) := packets.pack (Bytestream.constructBuffer [])
  if n ≥ 0 then (bufferSave s.store file io).map fun (_, file) => (n, packets, file)
  else some (n, packets, file)

/-- The bytes `pack` produces. -/
def packedBytes (packets : TsPackets) : List UInt8 := (packets.pack (Bytestream.constructBuffer [])).2.2.store

/-- How many of `size` bytes the writes take. -/
def Outcomes.written (io : Outcomes) (size : Nat) : Nat := min (granted io.answers) size

/-- What the system does leaves `bytes` in the file, whatever `bufferSave` says about it: either the file
cannot be opened and holds them already; or the writes go on for ever, or what the file held behind the bytes
they take is what is missing of `bytes`. With all of `bytes` taken, that is a file that was no longer. -/
def Outcomes.Lands (io : Outcomes) (file : Option (List UInt8)) (bytes : List UInt8) : Prop :=
  if io.opened then
    Unfinished io.answers bytes.length ∨
      (file.getD []).drop (io.written bytes.length) = bytes.drop (io.written bytes.length)
  else file = some bytes

/-- The whole effect of the loop. -/
theorem saveLoop_eq (answers : List Answer) (base : List UInt8) (fd : Descriptor UInt8) :
    saveLoop answers base fd =
      if Unfinished answers base.length then none
      else some (base.length - granted answers, fd.put (base.take (granted answers))) := by
  induction answers generalizing base fd with
  | nil => cases base <;> simp [saveLoop, Unfinished]
  | cons answer answers ih =>
    by_cases empty : base.length = 0
    · have finished : ¬ Unfinished (answer :: answers) base.length := by
        rintro ⟨few, -⟩
        omega
      rw [saveLoop, if_pos empty, if_neg finished, List.length_eq_zero_iff.1 empty]
      simp
    · rw [saveLoop, if_neg empty]
      cases answer with
      | fails =>
        have finished : ¬ Unfinished (.fails :: answers) base.length := fun endless => endless.2 List.mem_cons_self
        rw [if_neg finished]
        simp [Descriptor.write]
      | takes count =>
        have went : ¬ ((base.take count).length : Int) = -1 := by omega
        have moved : base.drop (base.take count).length = base.drop count := by
          rw [List.length_take]
          by_cases all : count ≤ base.length
          · rw [Nat.min_eq_left all]
          · rw [Nat.min_eq_right (by omega), List.drop_length, List.drop_of_length_le (by omega)]
        simp only [Descriptor.write, if_neg went, Int.toNat_natCast, moved, ih, unfinished_takes, granted_takes,
          List.length_drop, put_put, ← List.take_add, Nat.sub_sub]

section Effect

variable {io : Outcomes}

/-- What `bufferSave` returns and leaves. -/
theorem bufferSave_eq (opened : io.opened = true) (b : Buffer) (file : Option (List UInt8)) :
    bufferSave b file io =
      if Unfinished io.answers b.length then none
      else some (if io.written b.length < b.length then -1 else 0,
        some (b.take (io.written b.length) ++ (file.getD []).drop (io.written b.length))) := by
  rw [bufferSave, if_pos opened, saveLoop_eq]
  split
  · rfl
  · have left : b.length - granted io.answers ≠ 0 ↔ io.written b.length < b.length := by
      simp only [Outcomes.written]
      omega
    have taken : b.take (granted io.answers) = b.take (io.written b.length) := by
      rw [Outcomes.written, ← List.take_eq_take_min]
    have width : (b.take (io.written b.length)).length = io.written b.length := by
      rw [List.length_take, Outcomes.written]
      omega
    simp only [Option.map_some, left, content_put_openCreate, taken, width]

theorem bufferSave_closed (closed : io.opened = false) (b : Buffer) (file : Option (List UInt8)) :
    bufferSave b file io = some (-1, file) := by
  rw [bufferSave, closed]
  rfl

/-- The file holds the bytes after `bufferSave` exactly when the calls leave them there. -/
theorem bufferSave_lands_iff (b : Buffer) (file : Option (List UInt8)) (io : Outcomes) :
    (∀ n left, bufferSave b file io = some (n, left) → left = some b) ↔ io.Lands file b := by
  rw [Outcomes.Lands]
  cases opened : io.opened with
  | false =>
    rw [bufferSave_closed opened, if_neg Bool.false_ne_true]
    constructor
    · exact fun saves => saves _ _ rfl
    · rintro already n left ⟨⟩
      exact already
  | true =>
    rw [bufferSave_eq opened, if_pos rfl]
    by_cases endless : Unfinished io.answers b.length
    · rw [if_pos endless]
      constructor
      · exact fun _ => Or.inl endless
      · rintro - n left ⟨⟩
    · rw [if_neg endless, or_iff_right endless, ← take_append_drop_eq_iff]
      constructor
      · exact fun saves => Option.some.inj (saves _ _ rfl)
      · rintro whole n left ⟨⟩
        rw [whole]

/-- Where every byte is taken, the file must not have been longer. -/
theorem Outcomes.lands_iff_of_taken (opened : io.opened = true) {bytes : List UInt8}
    (all : bytes.length ≤ granted io.answers) (file : Option (List UInt8)) :
    io.Lands file bytes ↔ (file.getD []).length ≤ bytes.length := by
  have finished : ¬ Unfinished io.answers bytes.length := by
    rintro ⟨few, -⟩
    omega
  rw [Lands, if_pos opened, or_iff_right finished, written, Nat.min_eq_right all, List.drop_length,
    List.drop_eq_nil_iff]

/-- A save counts the packets of the list, whatever became of the file. -/
theorem save_eq (packets : TsPackets) (file : Option (List UInt8)) (io : Outcomes) :
    packets.save file io =
      (bufferSave packets.packedBytes file io).map fun saved =>
        ((packets.list.length : Int), (packets.pack (Bytestream.constructBuffer [])).2.1, saved.2) := by
  have counted : (packets.pack (Bytestream.constructBuffer [])).1 = packets.list.length := by
    rw [pack_eq _ rfl]
  have reported : (packets.list.length : Int) ≥ 0 := Int.natCast_nonneg _
  simp only [save, counted, if_pos reported]
  rfl

end Effect

/-- **A reported save.** Every save that returns reports the packets as saved, so the file holds what
was packed exactly when the calls happen to leave it there. -/
theorem save_lands_iff (packets : TsPackets) (file : Option (List UInt8)) (io : Outcomes) :
    (∀ n after left, packets.save file io = some (n, after, left) → 0 ≤ n → left = some packets.packedBytes) ↔
      io.Lands file packets.packedBytes := by
  rw [← bufferSave_lands_iff, save_eq]
  constructor
  · intro saves n left ran
    rw [ran] at saves
    exact saves _ _ _ rfl (Int.natCast_nonneg _)
  · rintro saves n after left ran -
    obtain ⟨⟨result, kept⟩, stored, same⟩ := Option.map_eq_some_iff.1 ran
    cases same
    exact saves _ _ stored

/-- A list of one packet. -/
def onePacket : TsPackets := { list := [{ pid := 256, adaptationFieldControl := 1, payloadData := [1] }] }

theorem length_packedBytes_onePacket : onePacket.packedBytes.length = 188 := by
  rw [packedBytes, pack_eq _ rfl, store_foldl_write rfl]
  decide +kernel

/-- A full disk is reported as one packet saved, and so is a file that cannot be opened; an older file
that is longer keeps its end. -/
theorem save_reports_unsaved :
    (∃ after left, onePacket.save none ⟨true, [.takes 100, .fails]⟩ = some (1, after, left) ∧
      left ≠ some onePacket.packedBytes) ∧
    (∃ after, onePacket.save none ⟨false, []⟩ = some (1, after, none)) ∧
    construct.save (some [0x47]) ⟨true, []⟩ = some (0, construct, some [0x47]) ∧ construct.packedBytes = [] := by
  have length := length_packedBytes_onePacket
  refine ⟨?_, ?_, by decide, by decide⟩
  · have stopped : ¬ Unfinished [.takes 100, .fails] onePacket.packedBytes.length := by
      rintro ⟨-, endless⟩
      exact endless (by decide)
    have hundred : Outcomes.written ⟨true, [.takes 100, .fails]⟩ onePacket.packedBytes.length = 100 := by
      rw [length]
      rfl
    rw [save_eq, bufferSave_eq rfl, if_neg stopped, hundred, Option.map_some]
    refine ⟨_, _, rfl, fun whole => ?_⟩
    have same := congrArg List.length (Option.some.inj whole)
    simp [length] at same
  · rw [save_eq, bufferSave_closed rfl, Option.map_some]
    exact ⟨_, rfl⟩

end TsPackets
end Libts
