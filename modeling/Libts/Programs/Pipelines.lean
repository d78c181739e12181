import Mathlib.Logic.Relation
import Libts.Programs.Extract

/-!
# Pipelines of remultiplexers

`remux_packets` and `remux_units` change counters, stuffing, clocks and the cut into packets, but not what the
stream decoder makes of a file: it looks at none of them. So any number of them in a row, in any order, leaves the
stream and what is extracted of it (`pipeline_stream`), and `remux_stream` behind them writes what it would have
written in front of them (`remuxStream_back`).
-/

namespace Libts
set_option autoImplicit false

open PosixFile TsPackets CArith

/-- What the stream decoder makes of a file, with its return code. -/
def meaning [Compilation] (content : List UInt8) : Option (Int × TsStream) :=
  (TsUnits.decoded content).map TsStream.construct.unpack

/-- Units to be written again: there are some, and all have data. -/
def TsUnits.Filled (units : TsUnits) : Prop := units.list ≠ [] ∧ ∀ u ∈ units.list, u.data ≠ []

/-- The decoder does not look at what is read again. -/
theorem TsStream.unpack_reread [Compilation] (ts : TsStream) (us : List TsUnit) :
    ts.unpack { list := us.map TsUnit.reread } = ts.unpack { list := us } :=
  unpack_map (f := TsUnit.reread) (fun _ => rfl) (fun _ => rfl) (fun _ => rfl) ts us

theorem TsUnits.Filled.map {units : TsUnits} (filled : units.Filled) {f : TsUnit → TsUnit}
    (data : ∀ u, (f u).data = u.data) : TsUnits.Filled { list := units.list.map f } := by
  obtain ⟨nonempty, all⟩ := filled
  constructor
  · rw [ne_eq, List.map_eq_nil_iff]
    exact nonempty
  · intro v member
    obtain ⟨u, there, rfl⟩ := List.mem_map.mp member
    rw [data]
    exact all u there

/-- The units of packets that were packed and read back. -/
theorem TsUnits.unpack_normal [Compilation] (packets : TsPackets) :
    (TsUnits.construct.unpack packets.normal).2 =
      { list := (TsUnits.construct.unpack packets).2.list.map TsUnit.reread } := by
  rw [TsUnits.unpack_eq, TsUnits.unpack_eq]
  simp only [TsPackets.normal, recoded_eq]
  rw [TsUnits.segments_reread, ← TsUnits.segments_core, TsUnits.map_core_packed, TsUnits.segments_core]

/-- A file that the remultiplexers do not lose anything of: the encoder can write its packets, and its units have
data. -/
def Carried [Compilation] (content : List UInt8) : Prop :=
  ∃ packets, TsPackets.decoded content = some packets ∧ packets.Fresh ∧ (TsUnits.construct.unpack packets).2.Filled

section Step

variable [Compilation] {content b : List UInt8}

/-- What a list of packets that was written means. -/
theorem meaning_packed {packets : TsPackets} (fresh : packets.Fresh) (filled : (TsUnits.construct.unpack packets).2.Filled) :
    Carried packets.packedBytes ∧
      meaning packets.packedBytes = some (TsStream.construct.unpack (TsUnits.construct.unpack packets).2) := by
  have read := TsPackets.restores.decoded packets _ fresh rfl
  have units := TsUnits.unpack_normal packets
  refine ⟨⟨_, read, TsPackets.restores.good packets fresh, ?_⟩, ?_⟩
  · rw [units]
    exact filled.map fun _ => rfl
  · rw [meaning, TsUnits.decoded, read, Option.map_some, Option.map_some, units, TsStream.unpack_reread]

/-- What units with data that were written mean. -/
theorem meaning_units {units : TsUnits} (filled : units.Filled) :
    Carried (TsUnits.packedBytes units.list) ∧
      meaning (TsUnits.packedBytes units.list) = some (TsStream.construct.unpack units) := by
  have all : TsUnits.filled units.list = units.list := by
    rw [TsUnits.filled, List.filter_eq_self]
    intro u member
    simpa using filled.2 u member
  have cut : (TsUnits.construct.unpack (TsUnits.packets units.list)).2 = { list := units.list.map TsUnits.flagged } := by
    rw [TsUnits.unpack_eq, TsUnits.segments_cut, all]
  have fresh : (TsUnits.packets units.list).Fresh := by
    refine ⟨rfl, TsUnits.packets_nonempty ?_, settled_packed (TsUnits.encodable_packets _) []⟩
    rw [all]
    exact filled.1
  have again : (TsUnits.construct.unpack (TsUnits.packets units.list)).2.Filled := by
    rw [cut]
    exact filled.map fun _ => rfl
  obtain ⟨carried, whole⟩ := meaning_packed fresh again
  refine ⟨carried, ?_⟩
  rw [TsUnits.packedBytes, whole, cut]
  exact congrArg some (TsStream.unpack_map (f := TsUnits.flagged) (fun _ => rfl) (fun _ => rfl) (fun _ => rfl) _ units.list)

theorem remuxPackets_keeps (carried : Carried content) (ran : TsPackets.remuxed content = some b) :
    Carried b ∧ meaning b = meaning content := by
  obtain ⟨packets, read, fresh, filled⟩ := carried
  rw [TsPackets.remuxed, Transcoder.recode, read, Option.bind_some] at ran
  cases ran
  obtain ⟨again, whole⟩ := meaning_packed fresh filled
  rw [whole, meaning, TsUnits.decoded, read]
  exact ⟨again, rfl⟩

theorem remuxUnits_keeps (carried : Carried content) (ran : TsUnits.remuxed content = some b) :
    Carried b ∧ meaning b = meaning content := by
  obtain ⟨packets, read, -, filled⟩ := carried
  have units : TsUnits.decoded content = some (TsUnits.construct.unpack packets).2 := by
    rw [TsUnits.decoded, read, Option.map_some]
  rw [TsUnits.remuxed, Transcoder.recode, units, Option.bind_some] at ran
  cases ran
  obtain ⟨again, whole⟩ := meaning_units filled
  rw [whole, meaning, units]
  exact ⟨again, rfl⟩

/-- Neither program refuses such a file. -/
theorem exists_remuxed (carried : Carried content) :
    (∃ b, TsPackets.remuxed content = some b) ∧ ∃ b, TsUnits.remuxed content = some b := by
  obtain ⟨packets, read, -⟩ := carried
  constructor
  · rw [TsPackets.remuxed, Transcoder.recode, read, Option.bind_some]
    exact ⟨_, rfl⟩
  · rw [TsUnits.remuxed, Transcoder.recode, TsUnits.decoded, read, Option.map_some, Option.bind_some]
    exact ⟨_, rfl⟩

end Step

/-- One of the two programs has made `b` of `a`. -/
def Remultiplexes [Compilation] (a b : List UInt8) : Prop :=
  ∃ output, Runs remuxPackets TsPackets.remuxed a output 0 (some b) ∨ Runs remuxUnits TsUnits.remuxed a output 0 (some b)

section Pipeline

variable {a b : List UInt8}

theorem Remultiplexes.keeps [Compilation] (step : Remultiplexes a b) (carried : Carried a) :
    Carried b ∧ meaning b = meaning a := by
  obtain ⟨output, run | run⟩ := step
  · exact remuxPackets_keeps carried (recode_of_run TsPackets.loads TsPackets.saves run)
  · exact remuxUnits_keeps carried (recode_of_run TsUnits.loads TsUnits.saves run)

theorem pipeline_keeps [Compilation] (pipeline : Relation.ReflTransGen Remultiplexes a b) (carried : Carried a) :
    Carried b ∧ meaning b = meaning a := by
  induction pipeline with
  | refl => exact ⟨carried, rfl⟩
  | tail _ step ih =>
    obtain ⟨before, same⟩ := ih
    obtain ⟨after, kept⟩ := step.keeps before
    exact ⟨after, kept.trans same⟩

theorem decoded_eq_meaning [Compilation] (content : List UInt8) :
    TsStream.decoded content = (meaning content).bind fun (n, ts) => if n = -1 then none else some ts := by
  rw [TsStream.decoded, meaning]
  cases TsUnits.decoded content <;> rfl

theorem extract_eq_meaning [Compilation] {content : List UInt8} {io : Reads} (complete : io.Complete content)
    (carried : Carried content)
    (pid : Int) : extract (some content) io pid = (meaning content).map fun result => extracted result pid := by
  obtain ⟨packets, read, -⟩ := carried
  have units : TsUnits.decoded content = some (TsUnits.construct.unpack packets).2 := by
    rw [TsUnits.decoded, read, Option.map_some]
  rw [extract_eq complete units, meaning, units]
  rfl

/-- **Remultiplexing keeps the stream**: behind any number of runs of `remux_packets` and `remux_units`, in any order,
the file is decoded to the stream it was decoded to in front of them, and the same is extracted of it. -/
theorem pipeline_stream [Compilation] (pipeline : Relation.ReflTransGen Remultiplexes a b) (carried : Carried a)
    {io io' : Reads}
    (complete : io.Complete a) (complete' : io'.Complete b) :
    TsStream.decoded b = TsStream.decoded a ∧ ∀ pid : Int, extract (some b) io' pid = extract (some a) io pid := by
  obtain ⟨after, same⟩ := pipeline_keeps pipeline carried
  constructor
  · rw [decoded_eq_meaning, decoded_eq_meaning, same]
  · intro pid
    rw [extract_eq_meaning complete' after, extract_eq_meaning complete carried, same]

section AtRunTime
attribute [local instance] Compilation.atRunTime

/-- One run of `remux_packets` on a file of two streams, with one of `remux_units` behind it. -/
theorem pipeline_stream_program :
    ∃ b, Relation.Comp Remultiplexes Remultiplexes TsStream.program.packedBytes b ∧
      TsStream.decoded b = TsStream.decoded TsStream.program.packedBytes ∧
      (∀ pid : Int, extract (some b) (byteByByte b) pid =
        extract (some TsStream.program.packedBytes) (byteByByte TsStream.program.packedBytes) pid) ∧
      extract (some b) (byteByByte b) 256 = some (0, [1, 3]) := by
  have filled : (TsUnits.construct.unpack TsStream.program).2.Filled := by
    unfold TsUnits.Filled
    decide
  obtain ⟨carried, -⟩ := meaning_packed TsStream.fresh_program filled
  obtain ⟨⟨next, first⟩, -⟩ := exists_remuxed carried
  obtain ⟨again, -⟩ := remuxPackets_keeps carried first
  obtain ⟨-, last, second⟩ := exists_remuxed again
  have one : Remultiplexes TsStream.program.packedBytes next :=
    ⟨none, Or.inl (exists_run TsPackets.loads TsPackets.saves first)⟩
  have two : Remultiplexes next last := ⟨none, Or.inr (exists_run TsUnits.loads TsUnits.saves second)⟩
  obtain ⟨stream, extracted⟩ := pipeline_stream (.tail (.single one) two) carried (complete_byte_by_byte _)
    (complete_byte_by_byte _)
  exact ⟨last, ⟨next, one, two⟩, stream, extracted, (extracted 256).trans extract_program⟩

end AtRunTime

end Pipeline

/-! ## Back to what `remux_stream` wrote -/

section Canonical

variable {content b c : List UInt8} {ts : TsStream} {output output' left : Option (List UInt8)} {status : Nat}

theorem carried_saved [Compilation] (describable : ts.Describable) (writable : ts.Writable) :
    Carried ts.savedBytes := by
  obtain ⟨chosen, written, -⟩ := describable.saved_run writable.ok
  have all := List.filter_eq_self.mp (describable.filled_saved writable)
  have filled : TsUnits.Filled { list := ts.saved TsUnits.construct } := by
    constructor
    · rw [written]
      exact List.cons_ne_nil _ _
    · intro u member
      simpa using all u member
  exact (meaning_units filled).1

theorem remuxed_back [Compilation] (read : TsStream.decoded content = some ts)
    (small : content.length < 2 ^ 31 - 13 ∨ ts.Small) (apart : ts.Apart)
    (ran : TsStream.remuxed content = some b) (pipeline : Relation.ReflTransGen Remultiplexes b c) :
    TsStream.remuxed c = some b := by
  have again := TsStream.recode_again read small apart ran
  obtain ⟨writable, rfl⟩ := TsStream.writable_of_remuxed read ran
  obtain ⟨units, -, loaded⟩ := TsStream.unpack_decoded read
  have carried := carried_saved (TsStream.describable_unpack loaded apart.tables) writable
  obtain ⟨-, same⟩ := pipeline_keeps pipeline carried
  rw [← again, TsStream.remuxed, Transcoder.recode, Transcoder.recode, decoded_eq_meaning, same, ← decoded_eq_meaning]

/-- **`remux_stream` undoes the other two**: when it is run on what any number of them made of a file that it wrote, it
writes that file. -/
theorem remuxStream_back [Compilation] (read : TsStream.decoded content = some ts)
    (small : content.length < 2 ^ 31 - 13 ∨ ts.Small) (apart : ts.Apart)
    (first : Runs remuxStream TsStream.remuxed content output 0 (some b))
    (pipeline : Relation.ReflTransGen Remultiplexes b c)
    (last : Runs remuxStream TsStream.remuxed c output' status left) : status = 0 ∧ left = some b := by
  have back := remuxed_back read small apart (recode_of_run TsStream.loads TsStream.saves first) pipeline
  have exit := remux_exit TsStream.loads TsStream.saves last
  rw [show Transcoder.recode TsStream.decoded TsStream.encoded c = some b from back] at exit
  exact exit

section AtRunTime
attribute [local instance] Compilation.atRunTime

/-- Two streams of a packet each, with one run of `remux_units` between. -/
theorem remuxStream_back_two :
    ∃ c, Remultiplexes TsStream.twoPackets.savedBytes c ∧
      ∃ status left, Runs remuxStream TsStream.remuxed c none status left ∧
        status = 0 ∧ left = some TsStream.twoPackets.savedBytes := by
  have small := Or.inr (a := TsStream.twoPackets.savedBytes.length < 2 ^ 31 - 13) TsStream.small_twoPackets
  have apart := TsStream.apart_twoPackets
  have ran := TsStream.remuxed_twoPackets
  obtain ⟨-, c, cut⟩ := exists_remuxed (carried_saved TsStream.describable_twoPackets TsStream.writable_twoPackets)
  have step : Remultiplexes TsStream.twoPackets.savedBytes c := ⟨none, Or.inr (exists_run TsUnits.loads TsUnits.saves cut)⟩
  have back := remuxed_back TsStream.decoded_twoPackets small apart ran (.single step)
  have last := exists_run TsStream.loads TsStream.saves back
  exact ⟨c, step, 0, _, last, remuxStream_back TsStream.decoded_twoPackets small apart
    (exists_run TsStream.loads TsStream.saves ran) (.single step) last⟩

end AtRunTime

end Canonical

end Libts
