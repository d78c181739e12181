import Libts.Base.Transcoder
import Libts.Packet.Blocks
import Libts.Stream.Files
import Libts.Stream.Loaded

/-!
# The remultiplexers

`remux_packets`, `remux_units` and `remux_stream` load a file and save what they loaded. With the
input read to its end and the output taken as a whole, each is a transcoder of files
(`remux_exit`). What `remux_stream` wrote it writes again when it reads it (`remuxStream_again`);
the other two may lose bits of clocks and count continuity anew, and settle after their second run
(`remuxPackets_third`, `remuxUnits_third`).
-/

namespace Libts
set_option autoImplicit false

open PosixFile TsPackets Transcoder CArith

/-! ## The programs -/

/-- `main` with two files given, after its load and its save: the exit status and the output file.
`none` is a run that does not end, or is aborted. -/
def remux {α : Type} (load : Option (List UInt8) → Reads → Option (Int × α))
    (save : α → Option (List UInt8) → Outcomes → Option (Int × Option (List UInt8)))
    (input output : Option (List UInt8)) (reads : Reads) (writes : Outcomes) : Option (Nat × Option (List UInt8)) :=
  (load input reads).bind fun (n, loaded) =>
    if n = -1 then some (1, output)
    else (save loaded output writes).map fun (n, output) => if n = -1 then (1, output) else (0, output)

def remuxPackets [Compilation] :
    Option (List UInt8) → Option (List UInt8) → Reads → Outcomes → Option (Nat × Option (List UInt8)) :=
  remux TsPackets.construct.load fun packets output writes =>
    (packets.save output writes).map fun (n, _, output) => (n, output)

def remuxUnits [Compilation] :
    Option (List UInt8) → Option (List UInt8) → Reads → Outcomes → Option (Nat × Option (List UInt8)) :=
  remux TsUnits.construct.load TsUnits.save

def remuxStream [Compilation] :
    Option (List UInt8) → Option (List UInt8) → Reads → Outcomes → Option (Nat × Option (List UInt8)) :=
  remux TsStream.construct.load TsStream.save

/-! ## Programs as transcoders -/

section Exit

variable {α : Type} {load : Option (List UInt8) → Reads → Option (Int × α)}
  {save : α → Option (List UInt8) → Outcomes → Option (Int × Option (List UInt8))}

/-- What a load of a file that is read to its end returns. -/
structure Loads (load : Option (List UInt8) → Reads → Option (Int × α)) (decode : List UInt8 → Option α) : Prop where
  decodes : ∀ content io, io.Complete content → ∀ n a, load (some content) io = some (n, a) →
    decode content = if n = -1 then none else some a
  returns : ∀ content io, io.Complete content → ∀ a, decode content = some a →
    ∃ n, load (some content) io = some (n, a)

/-- What a save returns, and leaves when the calls leave the bytes in the file. -/
structure Saves (save : α → Option (List UInt8) → Outcomes → Option (Int × Option (List UInt8)))
    (encode : α → Option (List UInt8)) : Prop where
  encodes : ∀ a file io n left, save a file io = some (n, left) →
    match encode a with
    | some b => n ≠ -1 ∧ (io.Lands file b → left = some b)
    | none => n = -1 ∧ left = file
  returns : ∀ a b, encode a = some b → ∃ n, save a none (atOnce b) = some (n, some b)

/-- A run that reads the whole input, and whose calls leave in the output what there is to write. -/
def Runs (program : Option (List UInt8) → Option (List UInt8) → Reads → Outcomes → Option (Nat × Option (List UInt8)))
    (written : List UInt8 → Option (List UInt8)) (content : List UInt8) (output : Option (List UInt8)) (status : Nat)
    (left : Option (List UInt8)) : Prop :=
  ∃ reads writes, reads.Complete content ∧ (∀ b, written content = some b → writes.Lands output b) ∧
    program (some content) output reads writes = some (status, left)

variable {decode : List UInt8 → Option α} {encode : α → Option (List UInt8)} {content : List UInt8}
  {output left : Option (List UInt8)} {status : Nat}

/-- **A remultiplexer is a transcoder**: a run that ends has written what the transcoder writes, or it fails with
the output as it was, when the transcoder writes nothing. -/
theorem remux_exit (loads : Loads load decode) (saves : Saves save encode)
    (run : Runs (remux load save) (recode decode encode) content output status left) :
    match recode decode encode content with
    | some b => status = 0 ∧ left = some b
    | none => status = 1 ∧ left = output := by
  obtain ⟨reads, writes, complete, lands, ran⟩ := run
  rw [remux] at ran
  obtain ⟨⟨n, a⟩, loaded, rest⟩ := Option.bind_eq_some_iff.mp ran
  have read := loads.decodes content reads complete n a loaded
  by_cases refused : n = -1
  · rw [if_pos refused] at read
    simp only [if_pos refused] at rest
    cases rest
    rw [recode, read]
    exact ⟨rfl, rfl⟩
  · rw [if_neg refused] at read
    simp only [if_neg refused] at rest
    obtain ⟨⟨m, kept⟩, saved, exit⟩ := Option.map_eq_some_iff.1 rest
    have wrote := saves.encodes a output writes m kept saved
    have whole : recode decode encode content = encode a := by rw [recode, read, Option.bind_some]
    rw [whole] at lands ⊢
    cases encoded : encode a with
    | none =>
      rw [encoded] at wrote
      obtain ⟨rfl, rfl⟩ := wrote
      cases exit
      exact ⟨rfl, rfl⟩
    | some b =>
      rw [encoded] at wrote lands
      obtain ⟨counted, landed⟩ := wrote
      simp only [if_neg counted] at exit
      cases exit
      exact ⟨rfl, landed (lands b rfl)⟩

/-- What the transcoder writes is written by a run. -/
theorem exists_run (loads : Loads load decode) (saves : Saves save encode) {b : List UInt8}
    (ran : recode decode encode content = some b) :
    Runs (remux load save) (recode decode encode) content none 0 (some b) := by
  obtain ⟨a, read, wrote⟩ := Option.bind_eq_some_iff.mp ran
  have complete := complete_byte_by_byte content
  obtain ⟨n, loaded⟩ := loads.returns content _ complete a read
  obtain ⟨m, saved⟩ := saves.returns a b wrote
  refine ⟨_, atOnce b, complete, fun c same => ?_, ?_⟩
  · rw [ran] at same
    cases same
    exact (stored_at_once b).1
  · have accepted := loads.decodes content _ complete n a loaded
    have counted := saves.encodes a none _ m _ saved
    rw [wrote] at counted
    rw [read] at accepted
    have given : ¬ n = -1 := by
      intro refused
      rw [if_pos refused] at accepted
      cases accepted
    rw [remux, loaded, Option.bind_some]
    simp only [if_neg given, saved, Option.map_some, if_neg counted.1]

theorem recode_of_run (loads : Loads load decode) (saves : Saves save encode) {b : List UInt8}
    (run : Runs (remux load save) (recode decode encode) content output 0 (some b)) :
    recode decode encode content = some b := by
  have exit := remux_exit loads saves run
  cases ran : recode decode encode content with
  | none =>
    rw [ran] at exit
    cases exit.1
  | some c =>
    rw [ran] at exit
    exact exit.2.symm

end Exit

/-! ## Packets -/

namespace TsPackets

/-- What is decoded of a file; `none` is a file that is refused, or one the decoder aborts on. -/
def decoded [Compilation] (content : List UInt8) : Option TsPackets :=
  (construct.unpack (Bytestream.constructBuffer content)).bind fun (n, packets, _) => if n = -1 then none else some packets

theorem loads [Compilation] : Loads construct.load decoded := by
  constructor
  · intro content io complete n packets loaded
    rw [load_complete _ complete] at loaded
    obtain ⟨⟨m, qs, t⟩, read, same⟩ := Option.map_eq_some_iff.1 loaded
    cases same
    rw [decoded, read]
    rfl
  · intro content io complete packets read
    obtain ⟨⟨n, qs, t⟩, unpacked, accepted⟩ := Option.bind_eq_some_iff.mp read
    simp only at accepted
    split at accepted
    · cases accepted
    · cases accepted
      exact ⟨n, by rw [load_complete _ complete, unpacked]; rfl⟩

theorem saves : Saves (fun packets output writes => (save packets output writes).map fun (n, _, output) => (n, output))
    fun packets => some packets.packedBytes := by
  constructor
  · intro packets file io n left ran
    obtain ⟨⟨m, after, kept⟩, saved, same⟩ := Option.map_eq_some_iff.1 ran
    cases same
    have counted := save_eq packets file io
    rw [saved] at counted
    obtain ⟨⟨e, stored⟩, wrote, same⟩ := Option.map_eq_some_iff.1 counted.symm
    cases same
    exact ⟨by omega, fun lands => (bufferSave_lands_iff _ _ _).2 lands _ _ wrote⟩
  · rintro packets b ⟨⟩
    exact ⟨_, by rw [save_eq, (stored_at_once _).2]; rfl⟩

/-- The packets as they are read back. -/
def normal [Compilation] (packets : TsPackets) : TsPackets := { list := recoded packets.list }

/-- A new list of packets that the encoder writes without loss. -/
structure Fresh (packets : TsPackets) : Prop where
  counters : packets.counters = []
  nonempty : packets.list ≠ []
  settled : ∀ p ∈ packed [] packets.list, p.Settled

theorem restores [Compilation] : Restores decoded (fun packets => some packets.packedBytes) Fresh normal := by
  constructor
  · rintro packets ⟨-, nonempty, settled⟩
    refine ⟨rfl, ?_, settled_numbered [] ?_⟩
    · rw [normal, recoded_eq, ← List.length_pos_iff, List.length_map, length_packed]
      exact List.length_pos_iff.mpr nonempty
    · intro q member
      rw [normal, recoded_eq] at member
      obtain ⟨p, there, rfl⟩ := List.mem_map.mp member
      exact (settled p there).reread
  · rintro packets b ⟨counters, nonempty, settled⟩ wrote
    have filled : packed [] packets.list ≠ [] := by
      rw [← List.length_pos_iff, length_packed]
      exact List.length_pos_iff.mpr nonempty
    obtain ⟨t, read⟩ := unpack_settled filled settled
    have back : ((packed [] packets.list).map fun p => TsPacket.wirePacket p.bytes) = recoded packets.list := by
      rw [map_wirePacket settled, recoded_eq]
    have some' : ¬ ((packed [] packets.list).length : Int) = -1 := by omega
    rw [Option.some.injEq, packedBytes_eq, counters] at wrote
    rw [decoded, ← wrote, read, Option.bind_some]
    simp only [if_neg some', back]
    rfl

/-- From the second normal form on, all are encoded alike. -/
theorem packedBytes_normal [Compilation] {packets : TsPackets} (fresh : packets.Fresh) :
    packets.normal.normal.packedBytes = packets.normal.packedBytes := by
  have sized : ∀ p ∈ packed [] packets.list, p.Sized := fun p member => (fresh.settled p member).sized
  have once : ((packed [] (packed [] packets.list)).map TsPacket.reread).map TsPacket.reread =
      (packed [] (packed [] packets.list)).map TsPacket.reread := by
    rw [List.map_map]
    exact List.map_congr_left fun p _ => p.reread_reread
  have twice : packed [] (recoded packets.list) = (packed [] (packed [] packets.list)).map TsPacket.reread := by
    rw [recoded_eq, map_reread_packed]
  have same : packed [] (recoded (recoded packets.list)) = packed [] (recoded packets.list) := by
    have again : ∀ p ∈ recoded packets.list, p.Sized := by
      intro q member
      rw [recoded_eq] at member
      obtain ⟨p, there, rfl⟩ := List.mem_map.mp member
      exact (fresh.settled p there).reread.sized
    rw [recoded_eq (recoded packets.list), map_reread_packed, packed_packed [] again, twice, once]
  rw [packedBytes_eq, packedBytes_eq]
  exact congrArg (fun ps => (ps.map TsPacket.bytes).flatten) same

/-- Without packets nothing is written, and nothing is read of that. -/
theorem decoded_nil [Compilation] : decoded [] = none := by
  have refused : construct.unpack (Bytestream.constructBuffer []) = some (-1, construct, Bytestream.constructBuffer []) := by
    rw [unpack, unpackLoop_empty rfl]
    rfl
  rw [decoded, refused]
  rfl

theorem counters_decoded [Compilation] {content : List UInt8} {packets : TsPackets}
    (read : decoded content = some packets) :
    packets.counters = [] := by
  obtain ⟨⟨n, qs, t⟩, unpacked, accepted⟩ := Option.bind_eq_some_iff.mp read
  obtain ⟨⟨m, list, u⟩, -, same⟩ := Option.map_eq_some_iff.1 unpacked
  have kept : qs.counters = [] := by
    cases same
    rfl
  simp only at accepted
  split at accepted
  · cases accepted
  · cases accepted
    exact kept

/-- What `remux_packets` makes of a file. -/
def remuxed [Compilation] : List UInt8 → Option (List UInt8) := recode decoded fun packets => some packets.packedBytes

theorem recode_second [Compilation] {content b : List UInt8} {packets : TsPackets}
    (read : decoded content = some packets)
    (encodable : ∀ p ∈ packets.list, p.Encodable)
    (ran : recodes decoded (fun packets => some packets.packedBytes) 2 content = some b) : remuxed b = some b := by
  have counters := counters_decoded read
  by_cases nonempty : packets.list = []
  · -- the first output is empty, and refused
    have empty : packets.packedBytes = [] := by
      rw [packedBytes_eq, nonempty]
      rfl
    simp only [recodes, recode, Option.bind_some, read, empty, decoded_nil] at ran
    cases ran
  · have fresh : packets.Fresh := ⟨counters, nonempty, settled_packed encodable []⟩
    exact recode_settled restores fresh read ran (congrArg some (packedBytes_normal fresh))

/-- **`remux_packets` settles**: its second output is written again by every later run, when the encoder can write the
packets of the input without loss. -/
theorem remuxPackets_third [Compilation] {content b c : List UInt8} {packets : TsPackets}
    {o₁ o₂ o₃ left : Option (List UInt8)}
    {status : Nat} (read : decoded content = some packets) (encodable : ∀ p ∈ packets.list, p.Encodable)
    (first : Runs remuxPackets remuxed content o₁ 0 (some b)) (second : Runs remuxPackets remuxed b o₂ 0 (some c))
    (third : Runs remuxPackets remuxed c o₃ status left) : status = 0 ∧ left = some c := by
  have once := recode_of_run loads saves first
  have twice := recode_of_run loads saves second
  have ran : recodes decoded (fun packets => some packets.packedBytes) 2 content = some c := by
    rw [recodes, recodes, recodes, Option.bind_some, once, Option.bind_some, twice]
  have exit := remux_exit loads saves third
  rw [show recode decoded _ c = some c from recode_second read encodable ran] at exit
  exact exit

theorem fresh_onePacket : onePacket.Fresh := by
  refine ⟨rfl, by decide, settled_packed ?_ []⟩
  intro p member
  rw [List.mem_singleton.mp member]
  exact ⟨⟨rfl, rfl, rfl, rfl, fun _ => rfl⟩, by decide⟩

section AtRunTime
attribute [local instance] Compilation.atRunTime

theorem remuxPackets_third_one :
    ∃ status left, Runs remuxPackets remuxed onePacket.normal.normal.packedBytes none status left ∧
      status = 0 ∧ left = some onePacket.normal.normal.packedBytes := by
  have fresh := fresh_onePacket
  have step (packets : TsPackets) (given : packets.Fresh) :
      remuxed packets.packedBytes = some packets.normal.packedBytes := by
    rw [remuxed, recode, restores.decoded packets _ given rfl, Option.bind_some]
  have once := restores.good _ fresh
  have twice := restores.good _ once
  have third := exists_run loads saves (step _ twice)
  refine ⟨0, _, third, ?_⟩
  apply remuxPackets_third (restores.decoded _ _ fresh rfl) _ (exists_run loads saves (step _ fresh))
    (exists_run loads saves (step _ once)) third
  have list : onePacket.normal.list = [{ pid := 256, adaptationFieldControl := 3, payloadData := [1] }] := by decide
  intro p member
  rw [list, List.mem_singleton] at member
  rw [member]
  exact ⟨⟨rfl, rfl, rfl, rfl, fun _ => rfl⟩, by decide⟩

end AtRunTime

/-! ### Block by block -/

section Blocks
open TsPacket

variable {content out : List UInt8} {output left : Option (List UInt8)} {status : Nat}

/-- A whole file is decoded block by block. -/
theorem decoded_whole [Compilation] (whole : Whole content) :
    decoded content = some { list := wirePackets content } := by
  have given : ¬ ((content.length / 188 : Nat) : Int) = -1 := by omega
  rw [decoded, unpack_reached whole.nonempty whole.reached, Option.bind_some]
  exact if_neg given

/-- The blocks of `out` are those of `content`, with the counters of the packets counted for each PID from 0 on, and
with the clocks that are read of what is written of them. -/
structure Renumbered [Compilation] (content out : List UInt8) : Prop where
  length : out.length = 188 * (content.length / 188)
  framed : Reached out (content.length / 188)
  packets : ∀ i < content.length / 188, wirePacket (out.drop (188 * i)) =
    let p := wirePacket (content.drop (188 * i))
    let counter := BitVec.ofNat 4 (payloads p.pid.toNat ((wirePackets content).take i))
    ({ p with continuityCounter := counter } : TsPacket).normalised.reread

theorem renumbered_remuxed [Compilation] (whole : Whole content) (ran : remuxed content = some out) :
    Renumbered content out := by
  have settled := settled_packed whole.encodable []
  rw [remuxed, recode, decoded_whole whole, Option.bind_some, Option.some.injEq, packedBytes_eq] at ran
  subst ran
  -- the packet that is written at a block
  have written : ∀ i < content.length / 188, ∃ p rest, p.Settled ∧
      p = ({ wirePacket (content.drop (188 * i)) with
        continuityCounter := BitVec.ofNat 4 (payloads (wirePacket (content.drop (188 * i))).pid.toNat
          ((wirePackets content).take i)) } : TsPacket).normalised ∧
      (((packed [] (wirePackets content)).map TsPacket.bytes).flatten).drop (188 * i) = p.bytes ++ rest := by
    intro i inside
    have here := getElem?_packed [] (wirePackets content) i
    rw [getElem?_wirePackets inside, Option.map_some, counter_counted] at here
    obtain ⟨rest, block⟩ := block_settled settled here
    exact ⟨_, rest, settled _ (List.mem_of_getElem? here), rfl, block⟩
  constructor
  · rw [length_flatten (widths_settled settled), List.length_map, length_packed, wirePackets, List.length_map,
      List.length_range]
  · intro i inside
    obtain ⟨p, rest, good, -, block⟩ := written i inside
    rw [block]
    exact good.framed rest
  · intro i inside
    obtain ⟨p, rest, good, same, block⟩ := written i inside
    rw [block, good.wirePacket_eq rest, same]

/-- **`remux_packets` on a whole file** succeeds, and carries each block to the block at its place. -/
theorem remuxPackets_renumbered [Compilation] (whole : Whole content)
    (run : Runs remuxPackets remuxed content output status left) :
    status = 0 ∧ ∃ out, left = some out ∧ Renumbered content out := by
  obtain ⟨out, ran⟩ : ∃ out, remuxed content = some out := by
    rw [remuxed, recode, decoded_whole whole, Option.bind_some]
    exact ⟨_, rfl⟩
  have exit := remux_exit loads saves run
  rw [show recode decoded _ content = some out from ran] at exit
  exact ⟨exit.1, out, exit.2, renumbered_remuxed whole ran⟩

/-- Two blocks with the counters 15 and 7, and the first byte of a third. -/
def cutOff : List UInt8 :=
  [0x47, 1, 0, 0x1f] ++ List.replicate 184 0 ++ ([0x47, 1, 0, 0x17] ++ List.replicate 184 0) ++ [0x47]

theorem whole_cutOff : Whole cutOff := by
  have two : cutOff.length / 188 = 2 := by decide +kernel
  refine ⟨List.cons_ne_nil _ _, ?_, ?_⟩
  · rw [two]
    intro i inside
    obtain rfl | rfl : i = 0 ∨ i = 1 := by omega
    · exact ⟨by decide +kernel, by decide +kernel, by decide +kernel⟩
    · exact ⟨by decide +kernel, by decide +kernel, by decide +kernel⟩
  · rw [two]
    decide +kernel

section AtRunTime
attribute [local instance] Compilation.atRunTime

/-- What is left of the third block is not written. -/
theorem remuxPackets_renumbered_two :
    ∃ out, Runs remuxPackets remuxed cutOff none 0 (some out) ∧ Renumbered cutOff out := by
  have ran : remuxed cutOff = some ({ list := wirePackets cutOff } : TsPackets).packedBytes := by
    rw [remuxed, recode, decoded_whole whole_cutOff, Option.bind_some]
  have run := exists_run loads saves ran
  obtain ⟨-, out, same, carried⟩ := remuxPackets_renumbered whole_cutOff run
  rw [same] at run
  exact ⟨out, run, carried⟩

end AtRunTime

end Blocks

end TsPackets

/-! ## Units -/

namespace TsUnits

def decoded [Compilation] (content : List UInt8) : Option TsUnits :=
  (TsPackets.decoded content).map fun packets => (construct.unpack packets).2

theorem loads [Compilation] : Loads construct.load decoded := by
  constructor
  · intro content io complete n units loaded
    obtain ⟨⟨m, packets⟩, read, same⟩ := Option.map_eq_some_iff.1 loaded
    rw [decoded, TsPackets.loads.decodes content io complete m packets read]
    by_cases refused : m = -1
    · simp only [if_pos refused] at same ⊢
      cases same
      rfl
    · simp only [if_neg refused, unpack_eq] at same ⊢
      cases same
      rw [if_neg (by omega)]
      rfl
  · intro content io complete units read
    obtain ⟨packets, packetsRead, rfl⟩ := Option.map_eq_some_iff.1 read
    obtain ⟨n, loaded⟩ := TsPackets.loads.returns content io complete packets packetsRead
    have accepted := TsPackets.loads.decodes content io complete n packets loaded
    rw [packetsRead] at accepted
    have given : ¬ n = -1 := by
      intro refused
      rw [if_pos refused] at accepted
      cases accepted
    refine ⟨(construct.unpack packets).1, ?_⟩
    rw [load, loaded, Option.map_some]
    exact congrArg some (if_neg given)

theorem saves : Saves save fun units => some (packedBytes units.list) := by
  constructor
  · intro units file io n left ran
    rw [save_eq] at ran
    obtain ⟨⟨e, stored⟩, wrote, same⟩ := Option.map_eq_some_iff.1 ran
    cases same
    exact ⟨by omega, fun lands => (bufferSave_lands_iff _ _ _).2 lands _ _ wrote⟩
  · rintro units b ⟨⟩
    exact ⟨_, by rw [save_eq, (stored_at_once _).2]; rfl⟩

/-- The units as they are read back. -/
def normal [Compilation] (units : TsUnits) : TsUnits := { list := (filled units.list).map TsUnit.reread }

theorem filled_normal [Compilation] (units : TsUnits) : filled units.normal.list = units.normal.list := by
  rw [filled, List.filter_eq_self]
  intro v member
  obtain ⟨u, inside, rfl⟩ := List.mem_map.mp member
  exact (List.mem_filter.mp inside).2

theorem normal_normal [Compilation] (units : TsUnits) : units.normal.normal = units.normal := by
  have twice : units.normal.list.map TsUnit.reread = units.normal.list := by
    rw [normal, List.map_map]
    exact List.map_congr_left fun u _ => u.reread_reread
  rw [normal, filled_normal, twice]

theorem decoded_packedBytes [Compilation] {us : List TsUnit} (some' : filled us ≠ []) :
    decoded (packedBytes us) = some ({ list := us } : TsUnits).normal := by
  have complete := complete_byte_by_byte (packedBytes us)
  have counted : ¬ ((filled us).length : Int) = -1 := by omega
  rw [loads.decodes _ _ complete _ _ (load_packed some' complete), if_neg counted]
  rfl

theorem restores [Compilation] :
    Restores decoded (fun units => some (packedBytes units.list)) (fun units => filled units.list ≠ []) normal := by
  constructor
  · intro units some'
    rw [filled_normal, normal, ← List.length_pos_iff, List.length_map]
    exact List.length_pos_iff.mpr some'
  · intro units b some' wrote
    cases wrote
    exact decoded_packedBytes some'

/-- What `remux_units` makes of a file. -/
def remuxed [Compilation] : List UInt8 → Option (List UInt8) :=
  recode decoded fun units => some (packedBytes units.list)

theorem recode_second [Compilation] {content b : List UInt8}
    (ran : recodes decoded (fun units => some (packedBytes units.list)) 2 content = some b) : remuxed b = some b := by
  cases read : decoded content with
  | none =>
    simp only [recodes, recode, Option.bind_some, read] at ran
    cases ran
  | some units =>
    by_cases none : filled units.list = []
    · -- the first output is empty, and refused
      have refused : decoded [] = Option.none := by rw [decoded, TsPackets.decoded_nil, Option.map_none]
      simp only [recodes, recode, Option.bind_some, read, packedBytes_eq_nil none, refused] at ran
      cases ran
    · refine recode_settled restores none read ran ?_
      change some (packedBytes units.normal.normal.list) = some (packedBytes units.normal.list)
      rw [normal_normal]

/-- **`remux_units` settles**: its second output is written again by every later run. -/
theorem remuxUnits_third [Compilation] {content b c : List UInt8} {o₁ o₂ o₃ left : Option (List UInt8)} {status : Nat}
    (first : Runs remuxUnits remuxed content o₁ 0 (some b)) (second : Runs remuxUnits remuxed b o₂ 0 (some c))
    (third : Runs remuxUnits remuxed c o₃ status left) : status = 0 ∧ left = some c := by
  have once := recode_of_run loads saves first
  have twice := recode_of_run loads saves second
  have ran : recodes decoded (fun units => some (packedBytes units.list)) 2 content = some c := by
    rw [recodes, recodes, recodes, Option.bind_some, once, Option.bind_some, twice]
  have exit := remux_exit loads saves third
  rw [show recode decoded _ c = some c from recode_second ran] at exit
  exact exit

section AtRunTime
attribute [local instance] Compilation.atRunTime

theorem remuxUnits_third_three :
    ∃ status left, Runs remuxUnits remuxed (packedBytes (normal { list := threeUnits }).list) none status left ∧
      status = 0 ∧ left = some (packedBytes (normal { list := threeUnits }).list) := by
  have filled : filled threeUnits ≠ [] := by decide
  have step : remuxed (packedBytes threeUnits) = some (packedBytes (normal { list := threeUnits }).list) := by
    rw [remuxed, recode, decoded_packedBytes filled, Option.bind_some]
  have again : remuxed (packedBytes (normal { list := threeUnits }).list) =
      some (packedBytes (normal { list := threeUnits }).list) := by
    have some' : TsUnits.filled (normal { list := threeUnits }).list ≠ [] := restores.good { list := threeUnits } filled
    rw [remuxed, recode, decoded_packedBytes some', Option.bind_some]
    exact congrArg (fun units : TsUnits => some (packedBytes units.list)) (normal_normal _)
  have run := exists_run loads saves again
  exact ⟨0, _, run, remuxUnits_third (exists_run loads saves step) run run⟩

end AtRunTime

end TsUnits

/-! ## Streams -/

namespace TsStream

def decoded [Compilation] (content : List UInt8) : Option TsStream :=
  (TsUnits.decoded content).bind fun units =>
    let (n, ts) := construct.unpack units
    if n = -1 then none else some ts

/-- The bytes of a stream that can be encoded. -/
def encoded (ts : TsStream) : Option (List UInt8) :=
  (ts.pack TsUnits.construct).bind fun (n, units) => if n = -1 then none else some (TsUnits.packedBytes units.list)

theorem loads [Compilation] : Loads construct.load decoded := by
  constructor
  · intro content io complete n ts loaded
    obtain ⟨⟨m, units⟩, read, same⟩ := Option.map_eq_some_iff.1 loaded
    rw [decoded, TsUnits.loads.decodes content io complete m units read]
    by_cases refused : m = -1
    · simp only [if_pos refused] at same ⊢
      cases same
      rfl
    · simp only [if_neg refused] at same ⊢
      rw [Option.bind_some, same]
  · intro content io complete ts read
    obtain ⟨units, unitsRead, accepted⟩ := Option.bind_eq_some_iff.mp read
    obtain ⟨n, loaded⟩ := TsUnits.loads.returns content io complete units unitsRead
    have kept := TsUnits.loads.decodes content io complete n units loaded
    rw [unitsRead] at kept
    have given : ¬ n = -1 := by
      intro refused
      rw [if_pos refused] at kept
      cases kept
    have same : (construct.unpack units).2 = ts := by
      simp only at accepted
      split at accepted
      · cases accepted
      · exact Option.some.inj accepted
    refine ⟨(construct.unpack units).1, ?_⟩
    rw [load, loaded, Option.map_some, ← same]
    exact congrArg some (if_neg given)

theorem Writable.encoded_eq {ts : TsStream} (writable : ts.Writable) : ts.encoded = some ts.savedBytes := by
  have accepted : ¬ (1 : Int) = -1 := by decide
  rw [encoded, writable.pack]
  simp only [Option.bind_some, if_neg accepted]
  rfl

theorem encoded_refused {ts : TsStream} (refused : ¬ ts.Writable) : ts.encoded = none := by
  obtain ⟨units, packed⟩ := pack_refused refused
  rw [encoded, packed]
  rfl

theorem saves : Saves save encoded := by
  constructor
  · intro ts file io n left ran
    by_cases writable : ts.Writable
    · rw [writable.save_eq] at ran
      obtain ⟨⟨e, stored⟩, wrote, same⟩ := Option.map_eq_some_iff.1 ran
      cases same
      rw [writable.encoded_eq]
      exact ⟨by omega, fun lands => (bufferSave_lands_iff _ _ _).2 lands _ _ wrote⟩
    · rw [save_refused writable] at ran
      cases ran
      rw [encoded_refused writable]
      exact ⟨rfl, rfl⟩
  · intro ts b wrote
    by_cases writable : ts.Writable
    · rw [writable.encoded_eq] at wrote
      cases wrote
      exact ⟨_, by rw [writable.save_eq, (stored_at_once _).2]; rfl⟩
    · rw [encoded_refused writable] at wrote
      cases wrote

theorem writable_of_pack {ts : TsStream} (ok : (ts.pack TsUnits.construct).map Prod.fst = some 1) : ts.Writable := by
  by_contra refused
  obtain ⟨units, packed⟩ := pack_refused refused
  rw [packed] at ok
  cases ok

theorem decoded_twoPackets [Compilation] : decoded twoPackets.savedBytes = some twoPackets.reread := by
  have complete := complete_byte_by_byte twoPackets.savedBytes
  have read := loads.decodes _ _ complete _ _ (describable_twoPackets.load_savedBytes writable_twoPackets complete)
  rwa [if_neg (by decide)] at read

theorem remuxed_twoPackets [Compilation] :
    recode decoded encoded twoPackets.savedBytes = some twoPackets.savedBytes := by
  have fields : ∀ s ∈ twoPackets.streams, ∀ pes ∈ s.packets.takeWhile TsPes.ptsIndicator,
      pes.streamId ≠ 0xbe ∧ pes.streamId ≠ 0xbf ∧ pes.pts.toNat < 2 ^ 33 ∧ pes.dts.toNat < 2 ^ 33 ∧
        (pes.ptsIndicator = false → pes.pts = 0) ∧ (pes.dtsIndicator = false → pes.dts = 0) ∧
        pes.data.length < 2 ^ 31 - 13 := by
    decide
  have both : (twoPackets.reread.pack TsUnits.construct).map Prod.fst = some 1 ∧
      twoPackets.reread.saved TsUnits.construct = twoPackets.saved TsUnits.construct := by
    refine describable_twoPackets.saved_reread writable_twoPackets.ok (by decide) (Or.inl (by decide)) ?_
    intro s there pes member
    obtain ⟨padding, private2, pts, dts, noPts, noDts, few⟩ := fields s there pes member
    exact ⟨⟨padding, private2, pts, dts, noPts, noDts⟩, few⟩
  obtain ⟨ok, same⟩ := both
  rw [recode, decoded_twoPackets, Option.bind_some, (writable_of_pack ok).encoded_eq, savedBytes, same]
  rfl

section AtRunTime
attribute [local instance] Compilation.atRunTime

end AtRunTime

/-- No unit is longer than the file. -/
theorem length_decoded [Compilation] {content : List UInt8} {units : TsUnits}
    (read : TsUnits.decoded content = some units) :
    ∀ u ∈ units.list, u.data.length ≤ content.length := by
  intro u member
  obtain ⟨packets, unpacked, rfl⟩ := Option.map_eq_some_iff.1 read
  obtain ⟨⟨n, qs, t⟩, packetsRead, accepted⟩ := Option.bind_eq_some_iff.mp unpacked
  obtain ⟨⟨m, ps, s⟩, looped, same⟩ := Option.map_eq_some_iff.1 packetsRead
  have list : qs.list = ps := by
    cases same
    rfl
  have whole : packets = qs := by
    simp only at accepted
    split at accepted
    · cases accepted
    · cases accepted
      rfl
  rw [TsUnits.unpack_eq, whole, list] at member
  have few := TsUnits.length_data_le member
  have bytes := payload_unpackLoop looped
  have size : (Bytestream.constructBuffer content).size = content.length := rfl
  rw [size] at bytes
  exact Nat.le_trans few (Nat.le_trans bytes (Nat.le_of_eq (Nat.zero_add _)))

/-- The stream that was decoded, with the units it was decoded from. -/
theorem unpack_decoded [Compilation] {content : List UInt8} {ts : TsStream} (read : decoded content = some ts) :
    ∃ units, TsUnits.decoded content = some units ∧ construct.unpack units = (1, ts) := by
  obtain ⟨units, unitsRead, accepted⟩ := Option.bind_eq_some_iff.mp read
  simp only at accepted
  split at accepted
  · cases accepted
  · rename_i kept
    cases accepted
    exact ⟨units, unitsRead, Prod.ext ((unpack_result construct units).resolve_left kept) rfl⟩

/-- A file below 2 GiB has no packet of 2 GiB. -/
theorem small_decoded [Compilation] {content : List UInt8} {ts : TsStream} (read : decoded content = some ts)
    (short : content.length < 2 ^ 31 - 13) : ts.Small := by
  obtain ⟨units, unitsRead, loaded⟩ := unpack_decoded read
  intro s there pes member
  obtain ⟨u, listed, few⟩ := length_data_unpack loaded there member
  exact Nat.lt_of_le_of_lt (Nat.le_trans few (length_decoded unitsRead u listed)) short

/-- What `remux_stream` makes of a file. -/
def remuxed [Compilation] : List UInt8 → Option (List UInt8) := recode decoded encoded

/-- What is written is the encoding of what was decoded. -/
theorem writable_of_remuxed [Compilation] {content b : List UInt8} {ts : TsStream} (read : decoded content = some ts)
    (ran : remuxed content = some b) : ts.Writable ∧ b = ts.savedBytes := by
  rw [remuxed, recode, read, Option.bind_some] at ran
  have writable : ts.Writable := by
    by_contra refused
    rw [encoded_refused refused] at ran
    cases ran
  rw [writable.encoded_eq] at ran
  exact ⟨writable, (Option.some.inj ran).symm⟩

/-- What was remultiplexed is remultiplexed as it is. -/
theorem recode_again [Compilation] {content b : List UInt8} {ts : TsStream} (read : decoded content = some ts)
    (small : content.length < 2 ^ 31 - 13 ∨ ts.Small) (apart : ts.Apart) (ran : remuxed content = some b) :
    remuxed b = some b := by
  have small : ts.Small := small.elim (small_decoded read) id
  obtain ⟨units, -, loaded⟩ := unpack_decoded read
  obtain ⟨writable, rfl⟩ := writable_of_remuxed read ran
  have fits : Fits units.list := (fits_iff loaded).2 writable.map
  obtain ⟨-, ok, again⟩ := saved_unpacked loaded small apart fits TsUnits.construct
  have complete := complete_byte_by_byte ts.savedBytes
  have back := loads.decodes _ _ complete _ _ ((describable_unpack loaded apart.tables).load_savedBytes writable complete)
  rw [if_neg (by decide)] at back
  rw [remuxed, recode, back, Option.bind_some, (writable_of_pack ok).encoded_eq, savedBytes, again]
  rfl

/-- **`remux_stream` repeats itself**: run on the file that it wrote it ends with that file. The file that was first is
below 2 GiB, or has no packet that is not. -/
theorem remuxStream_again [Compilation] {content b : List UInt8} {ts : TsStream}
    {output output' left : Option (List UInt8)} {status : Nat}
    (read : decoded content = some ts) (small : content.length < 2 ^ 31 - 13 ∨ ts.Small) (apart : ts.Apart)
    (first : Runs remuxStream remuxed content output 0 (some b)) (second : Runs remuxStream remuxed b output' status left) :
    status = 0 ∧ left = some b := by
  have again := recode_again read small apart (recode_of_run loads saves first)
  have exit := remux_exit loads saves second
  rw [show recode decoded encoded b = some b from again] at exit
  exact exit

theorem small_twoPackets : twoPackets.reread.Small := by
  unfold Small
  decide +kernel

theorem apart_twoPackets : twoPackets.reread.Apart := ⟨by decide +kernel, by decide⟩

section AtRunTime
attribute [local instance] Compilation.atRunTime

theorem remuxStream_again_two : ∃ status left, Runs remuxStream remuxed twoPackets.savedBytes none status left ∧
    status = 0 ∧ left = some twoPackets.savedBytes := by
  have run := exists_run loads saves remuxed_twoPackets
  exact ⟨0, _, run, remuxStream_again decoded_twoPackets (Or.inr small_twoPackets) apart_twoPackets run run⟩

end AtRunTime

end TsStream
end Libts
