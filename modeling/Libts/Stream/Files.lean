import Libts.Stream.Resaved
import Libts.Unit.Files

/-!
# Stream files

`ts_stream_save` and `ts_stream_load` go through units, packets and bytes. A save is refused with the file
untouched exactly when the program has no PID, its map is too long, or a packet that has its turn is
too long; one that is not refused says nothing about the file (`stream_save_iff`). What the calls left
whole is loaded as the stream that was encoded, as far as the encoder writes it
(`load_saved_stream`): of all that can be lost on the way only the clocks of the units are, and the
decoder does not look at them.
-/

namespace Libts
set_option autoImplicit false

open CArith

/-- A packet is encoded when its size is no number above the limit, or when it is a video packet. -/
theorem TsPes.packBuffer_eq_one_iff (p : TsPes) : (p.packBuffer []).1 = 1 ↔ ¬ (p.isVideo = false ∧ Wide p.countedSize) := by
  have attached : (Bytestream.constructBuffer []).attached = true := rfl
  rw [← settledLength_ge_iff]
  simp only [packBuffer, packStream_eq attached]
  split
  · rename_i long
    simp [long]
  · rename_i short
    simp [short]

namespace TsStream

open PosixFile TsPackets

/-- `ts_stream_load`. -/
def load [Compilation] (ts : TsStream) (file : Option (List UInt8)) (io : Reads) : Option (Int × TsStream) :=
  (TsUnits.construct.load file io).map fun (n, units) => if n = -1 then (-1, ts) else ts.unpack units

/-- `ts_stream_save`, with the file it leaves. -/
def save (ts : TsStream) (file : Option (List UInt8)) (io : Outcomes) : Option (Int × Option (List UInt8)) :=
  (ts.pack TsUnits.construct).bind fun (n, units) => if n = -1 then some (-1, file) else units.save file io

/-- The bytes of a stream that is saved. -/
def savedBytes (ts : TsStream) : List UInt8 := TsUnits.packedBytes (ts.saved TsUnits.construct)

/-! ## What is refused -/

/-- No packet that has its turn is too long. -/
def Short (ts : TsStream) : Prop :=
  ∀ s ∈ ts.streams, ∀ pes ∈ s.packets.takeWhile TsPes.ptsIndicator, ¬ (pes.isVideo = false ∧ TsPes.Wide pes.countedSize)

/-- The stream is encoded: the program has a PID, its map fits and so do its packets. -/
structure Writable (ts : TsStream) : Prop where
  program : ts.programPid ≠ 0
  map : ¬ intOfSize ts.pmt.sectionLength > 1021
  packets : ts.Short

/-- Encoding succeeds when every packet does that has its turn. -/
theorem packPesLoop_short {ts : TsStream} {is : List TsStreamIterator} {pcrRecorded : Bool} {units : List TsUnit}
    (short : ∀ it ∈ is, ∀ pes ∈ it.current.takeWhile TsPes.ptsIndicator, (pes.packBuffer []).1 = 1) :
    (packPesLoop ts is pcrRecorded units).1 = 1 := by
  induction left : remaining is using Nat.strong_induction_on generalizing is pcrRecorded units with
  | _ n ih =>
    subst left
    rw [packPesLoop_eq]
    cases found : select is with
    | none => rfl
    | some c =>
      obtain ⟨pts, rest, there⟩ := select_some found
      have less := remaining_advance there (List.cons_ne_nil _ _)
      have front : (c.pes :: rest).takeWhile TsPes.ptsIndicator = c.pes :: rest.takeWhile TsPes.ptsIndicator :=
        List.takeWhile_cons_of_pos pts
      have first := short _ (List.mem_of_getElem? there)
      rw [show ({ current := c.pes :: rest, pesStream := c.pesStream } : TsStreamIterator).current = c.pes :: rest from rfl,
        front] at first
      obtain ⟨now, later⟩ := List.forall_mem_cons.mp first
      have accepted : ¬ (c.pes.packBuffer (ts.pesUnit pcrRecorded c).data).1 = -1 := by
        rw [(ts.pesUnit_eq pcrRecorded c).2, now]
        decide
      simp only [if_neg accepted]
      refine ih _ less ?_ rfl
      intro it member
      obtain ⟨j, at_j⟩ := List.mem_iff_getElem?.mp member
      rw [advance, List.getElem?_modify] at at_j
      obtain ⟨before, was, changed⟩ := Option.map_eq_some_iff.mp at_j
      by_cases own : c.i = j
      · subst own
        rw [there] at was
        cases was
        rw [if_pos rfl] at changed
        subst changed
        exact later
      · rw [if_neg own] at changed
        subst changed
        exact short _ (List.mem_of_getElem? was)

theorem packPes_ok_iff {ts : TsStream} {units : TsUnits} : (ts.packPes units).1 = 1 ↔ ts.Short := by
  constructor
  · intro ok s there pes member
    obtain ⟨chosen, -, run, -⟩ := packPes_leastRun ok
    obtain ⟨k, at_k⟩ := List.mem_iff_getElem?.mp there
    have queue : Selection.queue (ts.streams.map TsStreamPes.packets) k = s.packets := by
      rw [Selection.queue, List.getElem?_map, at_k]
      rfl
    rw [← queue, ← run.run.taken_eq k, Selection.taken] at member
    obtain ⟨t, inside, rfl⟩ := List.mem_map.mp member
    exact t.2.packBuffer_eq_one_iff.1 (packPes_accepted ok run t (List.mem_filter.mp inside).1)
  · intro short
    apply packPesLoop_short
    intro it member
    obtain ⟨s, there, rfl⟩ := List.mem_map.mp member
    exact fun pes front => pes.packBuffer_eq_one_iff.2 (short s there pes front)

theorem packPesLoop_result (ts : TsStream) (is : List TsStreamIterator) (pcrRecorded : Bool) (units : List TsUnit) :
    (packPesLoop ts is pcrRecorded units).1 = -1 ∨ (packPesLoop ts is pcrRecorded units).1 = 1 := by
  induction left : remaining is using Nat.strong_induction_on generalizing is pcrRecorded units with
  | _ n ih =>
    subst left
    rw [packPesLoop_eq]
    cases found : select is with
    | none => exact Or.inr rfl
    | some c =>
      obtain ⟨pts, rest, there⟩ := select_some found
      simp only
      split
      · exact Or.inl rfl
      · exact ih _ (remaining_advance there (List.cons_ne_nil _ _)) _ _ _ rfl

section Save

variable {ts : TsStream} {file : Option (List UInt8)} {out : Outcomes}

/-- A stream that can be encoded is. -/
theorem Writable.pack (writable : ts.Writable) :
    ts.pack TsUnits.construct = some (1, { list := ts.saved TsUnits.construct }) := by
  have packed := pack_eq writable.program TsUnits.construct
  rw [if_neg writable.map] at packed
  have ok : (ts.packPes { list := TsUnits.construct.list ++ [ts.patUnit, ts.pmtUnit] }).1 = 1 :=
    packPes_ok_iff.2 writable.packets
  rw [packed, saved, packed, Option.elim_some, Option.some.injEq]
  exact Prod.ext ok rfl

/-- One that cannot is refused. -/
theorem pack_refused (refused : ¬ ts.Writable) : ∃ units, ts.pack TsUnits.construct = some (-1, units) := by
  have low : ¬ (-1 : Int) ≥ 0 := by decide
  by_cases program : ts.programPid ≠ 0
  · rw [pack_eq program]
    split
    · exact ⟨_, rfl⟩
    · rename_i map
      have bad : ¬ (ts.packPes { list := TsUnits.construct.list ++ [ts.patUnit, ts.pmtUnit] }).1 = 1 :=
        fun ok => refused ⟨program, map, packPes_ok_iff.1 ok⟩
      have result := (packPesLoop_result ts _ _ _).resolve_right bad
      exact ⟨_, congrArg some (Prod.ext result rfl)⟩
  · refine ⟨TsUnits.construct, ?_⟩
    rw [TsStream.pack, packPat, if_pos (not_not.mp program)]
    simp only [Option.bind_some, if_neg low]

theorem Writable.save_eq (writable : ts.Writable) (file : Option (List UInt8)) (out : Outcomes) :
    ts.save file out = (bufferSave ts.savedBytes file out).map fun saved =>
      (((TsUnits.packets (ts.saved TsUnits.construct)).list.length : Int), saved.2) := by
  have accepted : ¬ (1 : Int) = -1 := by decide
  rw [save, writable.pack]
  simp only [Option.bind_some, if_neg accepted]
  exact TsUnits.save_eq _ _ _

theorem save_refused (refused : ¬ ts.Writable) (file : Option (List UInt8)) (out : Outcomes) :
    ts.save file out = some (-1, file) := by
  obtain ⟨units, packed⟩ := pack_refused refused
  rw [save, packed]
  rfl

end Save

/-- **What a save tells**: it fails, with the file untouched, when the stream cannot be encoded, and only then. Otherwise
it returns how many packets there are, whatever the calls do, and the file holds them exactly when the calls leave them
there. -/
theorem stream_save_iff (ts : TsStream) (file : Option (List UInt8)) (out : Outcomes) :
    (¬ ts.Writable → ts.save file out = some (-1, file)) ∧
      (ts.Writable →
        (∀ n left, ts.save file out = some (n, left) →
          n = (TsUnits.packets (ts.saved TsUnits.construct)).list.length) ∧
        ((∀ n left, ts.save file out = some (n, left) → left = some ts.savedBytes) ↔ out.Lands file ts.savedBytes)) := by
  refine ⟨fun refused => save_refused refused file out, fun writable => ?_⟩
  rw [← bufferSave_lands_iff, writable.save_eq]
  refine ⟨?_, ?_, ?_⟩
  · intro n left ran
    obtain ⟨⟨e, kept⟩, -, same⟩ := Option.map_eq_some_iff.1 ran
    cases same
    rfl
  · intro tells n left ran
    rw [ran] at tells
    exact tells _ _ rfl
  · intro lands n left ran
    obtain ⟨⟨e, kept⟩, stored, same⟩ := Option.map_eq_some_iff.1 ran
    cases same
    exact lands _ _ stored

/-! ## What is loaded -/

section Clockless

variable {f : TsUnit → TsUnit} (pid : ∀ u, (f u).pid = u.pid) (data : ∀ u, (f u).data = u.data)
  (indicator : ∀ u, (f u).randomAccessIndicator = u.randomAccessIndicator)
include pid data

theorem unpackPatLoop_map (us : List TsUnit) (ts : TsStream) : unpackPatLoop (us.map f) ts = unpackPatLoop us ts := by
  induction us generalizing ts with
  | nil => rfl
  | cons u us ih => simp only [List.map_cons, unpackPatLoop, pid, data, ih]

theorem unpackPmtLoop_map (us : List TsUnit) (ts : TsStream) : unpackPmtLoop (us.map f) ts = unpackPmtLoop us ts := by
  induction us generalizing ts with
  | nil => rfl
  | cons u us ih => simp only [List.map_cons, unpackPmtLoop, pid, data, ih]

include indicator

theorem unpackUnits_map (us : List TsUnit) (p : TsStreamPes) :
    TsStreamPes.unpackUnits (us.map f) p = TsStreamPes.unpackUnits us p := by
  induction us generalizing p with
  | nil => rfl
  | cons u us ih => simp only [List.map_cons, TsStreamPes.unpackUnits, pid, data, indicator, ih]

/-- The decoder does not look at the clocks of units. -/
theorem unpack_map (ts : TsStream) (us : List TsUnit) : ts.unpack { list := us.map f } = ts.unpack { list := us } := by
  have pat (ts : TsStream) : ts.unpackPat { list := us.map f } = ts.unpackPat { list := us } :=
    unpackPatLoop_map pid data us ts
  have pmt (ts : TsStream) : ts.unpackPmt { list := us.map f } = ts.unpackPmt { list := us } := by
    rw [unpackPmt, unpackPmt, unpackPmtLoop_map pid data]
  have pes (ts : TsStream) : ts.unpackPes { list := us.map f } = ts.unpackPes { list := us } := by
    rw [unpackPes, unpackPes, funext fun p => unpackUnits_map pid data indicator us p]
  simp only [unpack, pat, pmt, pes]

end Clockless

section Load

variable {ts : TsStream} {file left : Option (List UInt8)} {out : Outcomes} {io : Reads} {n : Int}

theorem Writable.ok (writable : ts.Writable) : (ts.pack TsUnits.construct).map Prod.fst = some 1 := by
  rw [writable.pack]
  rfl

/-- Every unit of a stream that is saved has data. -/
theorem Describable.filled_saved (h : ts.Describable) (writable : ts.Writable) :
    TsUnits.filled (ts.saved TsUnits.construct) = ts.saved TsUnits.construct := by
  obtain ⟨chosen, written, -, -, packed⟩ := h.saved_run writable.ok
  have emitted : ∀ (pcrRecorded : Bool) (cs : List Selected), (∀ c ∈ cs, (c.pes.packBuffer []).1 = 1) →
      ∀ u ∈ ts.emitted pcrRecorded cs, u.data ≠ [] := by
    intro pcrRecorded cs packed
    induction cs generalizing pcrRecorded with
    | nil => exact List.forall_mem_nil _
    | cons c cs ih =>
      obtain ⟨first, later⟩ := List.forall_mem_cons.mp packed
      refine List.forall_mem_cons.mpr ⟨?_, ih _ later⟩
      obtain ⟨-, bytes⟩ := TsPes.packBuffer_eq first
      simp only [(ts.pesUnit_eq pcrRecorded c).2, bytes]
      simp [TsPes.bytes, BigEndian.bytes]
  rw [TsUnits.filled, List.filter_eq_self, written]
  intro u member
  have data : u.data ≠ [] := by
    obtain rfl | later := List.mem_cons.mp member
    · exact List.cons_ne_nil _ _
    · obtain rfl | pes := List.mem_cons.mp later
      · exact List.cons_ne_nil _ _
      · exact emitted _ _ packed u pes
  simpa using data

/-- What a load makes of a file that holds an encoded stream. -/
theorem Describable.load_savedBytes [Compilation] (h : ts.Describable) (writable : ts.Writable)
    (complete : io.Complete ts.savedBytes) :
    construct.load (some ts.savedBytes) io = some (1, ts.reread) := by
  have filled := h.filled_saved writable
  obtain ⟨chosen, written, -⟩ := h.saved_run writable.ok
  have some' : TsUnits.filled (ts.saved TsUnits.construct) ≠ [] := by
    rw [filled, written]
    exact List.cons_ne_nil _ _
  have counted : ¬ ((ts.saved TsUnits.construct).length : Int) = -1 := by omega
  rw [load, savedBytes, TsUnits.load_packed some' complete, filled, Option.map_some]
  simp only [if_neg counted]
  rw [unpack_map (f := TsUnit.reread) (fun _ => rfl) (fun _ => rfl) (fun _ => rfl), h.unpack_saved_eq writable.ok]

/-- **A stream comes back from a file**, as far as it was written: a stream that can be described and encoded, when the
calls of the save leave its bytes there and the reads reach their end, in whatever pieces. -/
theorem load_saved_stream [Compilation] (h : ts.Describable) (writable : ts.Writable)
    (saved : ts.save file out = some (n, left)) (lands : out.Lands file ts.savedBytes)
    (complete : io.Complete ts.savedBytes) :
    construct.load left io = some (1, ts.reread) := by
  rw [writable.save_eq] at saved
  obtain ⟨⟨e, kept⟩, stored, same⟩ := Option.map_eq_some_iff.1 saved
  cases same
  rw [(bufferSave_lands_iff _ _ _).2 lands _ _ stored]
  exact h.load_savedBytes writable complete

theorem writable_twoPackets : twoPackets.Writable := by
  refine ⟨by decide, by decide, ?_⟩
  unfold Short
  decide

section AtRunTime
attribute [local instance] Compilation.atRunTime

/-- Written at once and read byte by byte. -/
theorem load_saved_stream_two :
    construct.load (some twoPackets.savedBytes) (byteByByte twoPackets.savedBytes) = some (1, twoPackets.reread) := by
  obtain ⟨lands, stored⟩ := stored_at_once twoPackets.savedBytes
  have saved := writable_twoPackets.save_eq none (atOnce twoPackets.savedBytes)
  rw [stored] at saved
  exact load_saved_stream describable_twoPackets writable_twoPackets saved lands (complete_byte_by_byte _)

end AtRunTime

end Load

end TsStream
end Libts
