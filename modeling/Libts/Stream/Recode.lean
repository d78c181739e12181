import Mathlib.Data.List.Dedup
import Mathlib.Algebra.BigOperators.Group.List.Basic
import Libts.Stream.Description
import Libts.Stream.PesRecode
import Libts.Stream.Repeated

/-!
# Encoding what was decoded

The encoders have limits that the decoders do not have. A PES that was decoded with a time
stamp is within them (`packable_unpackBuffer`), and a program PID is there. The table of
streams is collected from any number of maps and written as one section, which is the only
thing that can be too long (`pack_unpacked`).
-/

namespace Libts
set_option autoImplicit false

open CArith WriteOnce

/-! ## Packets -/

namespace TsPes

theorem unpackBody_result (p : TsPes) (s : Bytestream) : (p.unpackBody s).1 = -1 ∨ (p.unpackBody s).1 = 1 := by
  unfold unpackBody
  generalize (if p.hasHeader then p.unpackHeader s else (1, p, s)) = header
  simp only
  split
  · exact Or.inl rfl
  · exact Or.inr rfl

theorem unpackStream_result (p : TsPes) (s : Bytestream) : (p.unpackStream s).1 = -1 ∨ (p.unpackStream s).1 = 1 := by
  rw [unpackStream_eq]
  split
  · exact Or.inl rfl
  · split
    · exact Or.inl rfl
    · exact unpackBody_result _ _

theorem packable_unpackBuffer {b : Buffer} (accepted : (construct.unpackBuffer b).1 ≠ -1)
    (stamped : (construct.unpackBuffer b).2.ptsIndicator = true) : (construct.unpackBuffer b).2.Packable := by
  have result : (construct.unpackBuffer b).1 = 1 := (construct.unpackStream_result _).resolve_left accepted
  have both : construct.unpackBuffer b = (1, (construct.unpackBuffer b).2) := Prod.ext result rfl
  obtain ⟨framed, value⟩ := unpackBuffer_framed.1 both
  rw [value] at stamped ⊢
  have headed : Headed b := by
    by_contra plain
    rw [wire, if_neg plain] at stamped
    contradiction
  exact packable_wire headed framed

end TsPes

namespace TsStreamPes

/-- Every packet with a time stamp can be encoded. -/
def Packable (p : TsStreamPes) : Prop := ∀ pes ∈ p.packets, pes.ptsIndicator = true → pes.Packable

theorem packets_merge (p : TsStreamPes) (s : TsPmtStream) : (p.merge s).2.packets = p.packets := by
  have type : (p.setType s).packets = p.packets := by rw [setType_eq]
  have both : ((p.setType s).setDescriptor s).packets = p.packets := by
    rw [setDescriptor_eq]
    exact type
  simp only [merge]
  split
  · exact type
  · split <;> exact both

theorem packable_merge (p : TsStreamPes) (s : TsPmtStream) (packable : p.Packable) : (p.merge s).2.Packable := by
  rw [Packable, packets_merge]
  exact packable

theorem packable_unpackUnits (us : List TsUnit) {p : TsStreamPes} (packable : p.Packable) :
    (unpackUnits us p).Packable := by
  induction us generalizing p with
  | nil => exact packable
  | cons u us ih =>
    simp only [unpackUnits]
    split
    · split
      · exact ih packable
      · rename_i accepted
        apply ih
        intro pes member stamped
        obtain before | last := List.mem_append.mp member
        · exact packable pes before stamped
        · rw [List.mem_singleton.mp last] at stamped ⊢
          exact TsPes.packable_unpackBuffer accepted stamped
    · exact ih packable

end TsStreamPes

namespace TsStream

/-- An iterator after the step has no packet it had not before. -/
theorem mem_advance {is : List TsStreamIterator} {i : Nat} {it : TsStreamIterator} (member : it ∈ advance is i) :
    ∃ before ∈ is, it.current ⊆ before.current := by
  obtain ⟨j, at_j⟩ := List.mem_iff_getElem?.mp member
  rw [advance, List.getElem?_modify] at at_j
  obtain ⟨before, there, changed⟩ := Option.map_eq_some_iff.mp at_j
  refine ⟨before, List.mem_of_getElem? there, ?_⟩
  rw [← changed]
  split
  · exact List.tail_subset _
  · exact List.Subset.refl _

/-- Packets that can be encoded are written. -/
theorem packPesLoop_ok {ts : TsStream} {is : List TsStreamIterator} {pcrRecorded : Bool} {units : List TsUnit}
    (packable : ∀ it ∈ is, ∀ pes ∈ it.current, pes.ptsIndicator = true → pes.Packable) :
    (packPesLoop ts is pcrRecorded units).1 = 1 := by
  induction left : remaining is using Nat.strong_induction_on generalizing is pcrRecorded units with
  | _ n ih =>
    subst left
    rw [packPesLoop_eq]
    cases found : select is with
    | none => rfl
    | some c =>
      obtain ⟨pts, rest, there⟩ := select_some found
      have shorter := remaining_advance there (List.cons_ne_nil _ _)
      have first := packable _ (List.mem_of_getElem? there) c.pes List.mem_cons_self pts
      have accepted : ¬ (c.pes.packBuffer (ts.pesUnit pcrRecorded c).data).1 = -1 := by
        rw [first.accepted]
        decide
      simp only [if_neg accepted]
      refine ih _ shorter ?_ rfl
      intro it member pes inside
      obtain ⟨before, member', kept⟩ := mem_advance member
      exact packable before member' pes (kept inside)

/-! ## The program -/

/-- The program associations in a list of units; a unit with an incomplete section counts as
an empty one. -/
def associations (us : List TsUnit) : List TsPat :=
  (us.filter fun u => u.pid = 0).map fun u => (TsPat.construct.unpackBuffer u.data).2

/-- The PID of the program: the first that is not 0. -/
def announced (us : List TsUnit) : Int :=
  (((associations us).map fun a => (a.programPid.toNat : Int)).find? fun pid => !noPid pid).getD 0

theorem setProgramPid_eq (ts : TsStream) (pid : BitVec 13) :
    ts.setProgramPid pid = { ts with programPid := write noPid ts.programPid pid.toNat } := by
  have value : write noPid ts.programPid pid.toNat = if ts.programPid = 0 then (pid.toNat : Int) else ts.programPid :=
    write_beq
  rw [setProgramPid, value]
  split <;> rfl

/-- The associations are decoded and contradict neither the stream nor each other, and leave `program`. -/
structure Associated (us : List TsUnit) (ts : TsStream) (program : Int) : Prop where
  decoded : ∀ u ∈ us, u.pid = 0 → (TsPat.construct.unpackBuffer u.data).1 ≠ -1
  program : run noPid ts.programPid ((associations us).map fun a => (a.programPid.toNat : Int)) = some program

theorem associations_own {u : TsUnit} (own : u.pid = 0) (us : List TsUnit) :
    associations (u :: us) = (TsPat.construct.unpackBuffer u.data).2 :: associations us := by
  rw [associations, List.filter_cons_of_pos (by simpa using own)]
  rfl

theorem associations_other {u : TsUnit} (other : u.pid ≠ 0) (us : List TsUnit) :
    associations (u :: us) = associations us := by
  rw [associations, List.filter_cons_of_neg (by simpa using other)]
  rfl

/-- A pass over the associations that is accepted. -/
theorem unpackPatLoop_accepted_iff {us : List TsUnit} {ts ts' : TsStream} :
    unpackPatLoop us ts = (1, ts') ↔
      Associated us ts ts'.programPid ∧ ts' = { ts with programPid := ts'.programPid } := by
  induction us generalizing ts with
  | nil =>
    constructor
    · intro accepted
      cases accepted
      exact ⟨⟨List.forall_mem_nil _, rfl⟩, rfl⟩
    · rintro ⟨⟨-, kept⟩, same⟩
      rw [same, ← Option.some.inj kept]
      rfl
  | cons u us ih =>
    obtain own | other := eq_or_ne u.pid 0
    · simp only [unpackPatLoop, if_pos own, setProgramPid_eq]
      constructor
      · intro accepted
        split at accepted
        · cases accepted
        · rename_i first
          split at accepted
          · cases accepted
          · rename_i agrees
            obtain ⟨⟨decoded, program⟩, same⟩ := ih.1 accepted
            refine ⟨⟨List.forall_mem_cons.mpr ⟨fun _ => first, decoded⟩, ?_⟩, same⟩
            rw [associations_own own, List.map_cons, run_cons_iff]
            exact ⟨agrees_noPid.2 (not_not.mp agrees), program⟩
      · rintro ⟨⟨decoded, program⟩, same⟩
        obtain ⟨first, others⟩ := List.forall_mem_cons.mp decoded
        rw [associations_own own, List.map_cons, run_cons_iff] at program
        rw [if_neg (first own), if_neg (not_not.mpr (agrees_noPid.1 program.1))]
        exact ih.2 ⟨⟨others, program.2⟩, same⟩
    · rw [unpackPatLoop_other other, ih]
      constructor
      · rintro ⟨⟨decoded, program⟩, same⟩
        refine ⟨⟨List.forall_mem_cons.mpr ⟨fun own => absurd own other, decoded⟩, ?_⟩, same⟩
        rw [associations_other other]
        exact program
      · rintro ⟨⟨decoded, program⟩, same⟩
        rw [associations_other other] at program
        exact ⟨⟨(List.forall_mem_cons.mp decoded).2, program⟩, same⟩

theorem unpackPat_construct {units : TsUnits} {ts : TsStream} (accepted : construct.unpackPat units = (1, ts)) :
    ts = { programPid := announced units.list } := by
  obtain ⟨⟨-, ran⟩, same⟩ := unpackPatLoop_accepted_iff.1 accepted
  have value : ts.programPid = announced units.list := value_of_run (by decide) ran
  rw [same, value]
  rfl

/-! ## The table -/

/-- The PIDs of the streams. -/
def elementaryPids (ss : List TsPmtStream) : List Int := (ss.map fun s => (s.elementaryPid.toNat : Int)).dedup

/-- The first descriptor that is there for a PID. -/
def known (pid : Int) (ss : List TsPmtStream) : TsPmtDescriptor :=
  (((ofPid pid ss).map TsPmtStream.descriptor).find? fun d => !d.absent).getD {}

/-- The length of a section with what is collected from maps. -/
def collectedLength (ms : List TsPmt) : Nat :=
  13 + ((elementaryPids (ms.flatMap TsPmt.streams)).map fun pid => 5 + (known pid (ms.flatMap TsPmt.streams)).size).sum

section Table

variable {ts ts' : TsStream} {ss : List TsPmtStream} {us : List TsUnit}

theorem descriptor_unpackPmtLoop (us : List TsUnit) (ts : TsStream) :
    (unpackPmtLoop us ts).2.descriptor = ts.descriptor := by
  apply unpackPmtLoop_keeps (P := fun t => t.descriptor = ts.descriptor)
  · exact fun _ _ kept => kept
  · intro t pid kept
    rw [setPcrPid_eq]
    exact kept
  · rfl

/-- Every packet of the table with a time stamp can be encoded. -/
def Packable (ts : TsStream) : Prop := ∀ p ∈ ts.streams, p.Packable

theorem packable_unpackPmtLoop (us : List TsUnit) (packable : ts.Packable) : (unpackPmtLoop us ts).2.Packable := by
  apply unpackPmtLoop_keeps (P := Packable) _ _ us packable
  · intro t s kept
    apply FindOrInsert.forall_update
    · exact fun _ none => absurd none List.not_mem_nil
    · exact fun p => p.packable_merge s
    · exact kept
  · intro t pid kept
    rw [Packable, streams_setPcrPid]
    exact kept

/-- What is written to an empty table. -/
theorem Wrote.sum_eq (wrote : Wrote ss ts ts') (empty : ts.streams = []) (distinct : ts'.Distinct) :
    (ts'.streams.map fun p => 5 + p.descriptor.size).sum =
      ((elementaryPids ss).map fun pid => 5 + (known pid ss).size).sum := by
  have fresh : ∀ pid, (ts.entry pid).descriptor = {} := by
    intro pid
    rw [entry, empty]
    rfl
  have descriptors : ∀ pid, (ts'.entry pid).descriptor = known pid ss := by
    intro pid
    have ran := wrote.descriptor pid
    rw [fresh] at ran
    exact value_of_run (by decide) ran
  have pids : (ts'.streams.map TsStreamPes.pid).Perm (elementaryPids ss) := by
    refine (List.perm_ext_iff_of_nodup distinct (List.nodup_dedup _)).2 ?_
    intro pid
    rw [List.mem_dedup, List.mem_map (l := ss)]
    constructor
    · intro there
      obtain before | written := wrote.origin pid there
      · rw [empty] at before
        cases before
      · exact written
    · rintro ⟨s, member, rfl⟩
      exact wrote.there s member
  calc (ts'.streams.map fun p => 5 + p.descriptor.size).sum
      = ((ts'.streams.map TsStreamPes.pid).map fun pid => 5 + (known pid ss).size).sum := by
        rw [List.map_map]
        congr 1
        apply List.map_congr_left
        intro p member
        have own : ts'.entry p.pid = p := FindOrInsert.entry_own _ _ distinct member
        rw [Function.comp_apply, ← descriptors, own]
    _ = ((elementaryPids ss).map fun pid => 5 + (known pid ss).size).sum := (pids.map _).sum_eq

end Table

section Pack

variable {units : TsUnits} {ts : TsStream}

/-- The three passes of a decoder that succeeds. -/
theorem unpack_construct (loaded : construct.unpack units = (1, ts)) :
    announced units.list ≠ 0 ∧ ∃ described,
      unpackPmtLoop units.list { programPid := announced units.list } = (1, described) ∧
      ts = { described with streams := described.streams.map (TsStreamPes.unpackUnits units.list) } := by
  obtain ⟨associated, described, pat, pmt, rfl⟩ := unpack_accepted_iff.1 loaded
  rw [unpackPat_construct pat] at pmt
  have given : announced units.list ≠ 0 := by
    intro none
    rw [unpackPmt, if_pos none] at pmt
    cases pmt
  rw [unpackPmt, if_neg given] at pmt
  exact ⟨given, described, pmt, rfl⟩

/-- The maps of the program that is announced. -/
def announcedMaps (units : List TsUnit) : List TsPmt := maps (announced units) units

/-- What is collected fits into one section. -/
def Fits (units : List TsUnit) : Prop := collectedLength (announcedMaps units) ≤ 1021

instance (units : List TsUnit) : Decidable (Fits units) := inferInstanceAs (Decidable (_ ≤ _))

section Loaded

variable (loaded : construct.unpack units = (1, ts))
include loaded

theorem packable_unpack : ts.Packable := by
  obtain ⟨-, described, mapped, rfl⟩ := unpack_construct loaded
  intro p member
  obtain ⟨q, there, rfl⟩ := List.mem_map.mp member
  apply TsStreamPes.packable_unpackUnits
  have empty : ({ programPid := announced units.list } : TsStream).Packable := fun _ none => absurd none List.not_mem_nil
  have kept := packable_unpackPmtLoop units.list empty
  rw [mapped] at kept
  exact kept q there

theorem sectionLength_unpack : ts.pmt.sectionLength = collectedLength (announcedMaps units.list) := by
  obtain ⟨-, described, mapped, rfl⟩ := unpack_construct loaded
  obtain ⟨-, wrote⟩ := unpackPmtLoop_wrote mapped
  have distinct : described.Distinct := by
    have kept : (unpackPmtLoop units.list { programPid := announced units.list }).2.Distinct := by
      apply distinct_unpackPmtLoop
      exact List.nodup_nil
    rw [mapped] at kept
    exact kept
  have none : described.descriptor = {} := by
    have kept := descriptor_unpackPmtLoop units.list { programPid := announced units.list }
    rw [mapped] at kept
    exact kept
  have sum := wrote.streams.sum_eq rfl distinct
  have absent : (({} : TsPmtDescriptor).copy {}).size = 0 := rfl
  have each : (fun p : TsPmtStream => 5 + p.descriptor.size) ∘ pmtStream ∘ TsStreamPes.unpackUnits units.list =
      fun p => 5 + p.descriptor.size := by
    funext p
    have same := TsStreamPes.description_unpackUnits units.list p
    have descriptor : (TsStreamPes.unpackUnits units.list p).descriptor = p.descriptor := congrArg (fun d => d.2.2) same
    exact congrArg (fun d : TsPmtDescriptor => 5 + d.size) descriptor
  rw [collectedLength, announcedMaps, ← sum, TsPmt.sectionLength]
  simp only [pmt, TsPmt.construct, List.nil_append, List.map_map, each]
  rw [none, absent]

theorem pids_unpack : ∀ p ∈ ts.streams, 0 ≤ p.pid ∧ p.pid ≤ 8191 := by
  obtain ⟨-, described, mapped, rfl⟩ := unpack_construct loaded
  obtain ⟨-, wrote⟩ := unpackPmtLoop_wrote mapped
  intro p member
  obtain ⟨q, there, rfl⟩ := List.mem_map.mp member
  rw [TsStreamPes.pid_unpackUnits]
  obtain none | ⟨s, -, same⟩ := wrote.streams.origin q.pid (List.mem_map_of_mem there)
  · cases none
  · have small := s.elementaryPid.isLt
    omega

theorem programPid_unpack : ts.programPid ≠ 0 := by
  obtain ⟨given, described, mapped, rfl⟩ := unpack_construct loaded
  have kept := extends_unpackPmtLoop units.list { programPid := announced units.list }
  rw [mapped] at kept
  rw [kept.programPid given]
  exact given

theorem packPes_unpack (out : TsUnits) : (ts.packPes out).1 = 1 := by
  apply packPesLoop_ok
  intro it member
  obtain ⟨p, there, rfl⟩ := List.mem_map.mp member
  exact packable_unpack loaded p there

/-- The encoder's limit, which it applies to an `int`. -/
theorem fits_iff : Fits units.list ↔ ¬ intOfSize ts.pmt.sectionLength > 1021 := by
  have distinct : ts.Distinct := by
    have kept := distinct_unpack distinct_construct units
    rw [loaded] at kept
    exact kept
  rw [intOfSize_of_lt (sectionLength_lt distinct (pids_unpack loaded)), Fits, ← sectionLength_unpack loaded]
  omega

/-- **What was decoded can be encoded** as long as the table that was collected fits into one
section; no other limit of the encoders is reached. -/
theorem pack_unpacked (out : TsUnits) :
    (ts.packPat out).map Prod.fst = some 1 ∧ (ts.packPes out).1 = 1 ∧
      (ts.packPmt out).map Prod.fst = some (if Fits units.list then 1 else -1) ∧
      (ts.pack out).map Prod.fst = some (if Fits units.list then 1 else -1) := by
  have given := programPid_unpack loaded
  have written := packPes_unpack loaded
  have fits := fits_iff loaded
  refine ⟨?_, written out, ?_, ?_⟩
  · rw [packPat_eq given]
    rfl
  · rw [packPmt_eq given]
    by_cases short : Fits units.list
    · rw [if_neg (fits.1 short), if_pos short]
      rfl
    · rw [if_pos (not_not.mp fun enough => short (fits.2 enough)), if_neg short]
      rfl
  · rw [pack_eq given]
    by_cases short : Fits units.list
    · rw [if_neg (fits.1 short), if_pos short, Option.map_some, written]
    · rw [if_pos (not_not.mp fun enough => short (fits.2 enough)), if_neg short]
      rfl

end Loaded

/-- The association of program `0x100`. -/
def associationUnit : TsUnit :=
  { data := [0x00, 0x00, 0xb0, 0x0d, 0x00, 0x01, 0xc1, 0x00, 0x00, 0x00, 0x01, 0xe1, 0x00, 0x00, 0x00, 0x00, 0x00] }

theorem pack_unpacked_plain :
    ((collected {}).packPat {}).map Prod.fst = some 1 ∧ ((collected {}).packPes {}).1 = 1 ∧
      ((collected {}).packPmt {}).map Prod.fst = some (if Fits [associationUnit, plainUnit] then 1 else -1) ∧
      ((collected {}).pack {}).map Prod.fst = some (if Fits [associationUnit, plainUnit] then 1 else -1) := by
  have loaded : construct.unpack { list := [associationUnit, plainUnit] } = (1, collected {}) := by decide +kernel
  exact pack_unpacked loaded {}

/-- A stream of a map, with a descriptor of 255 bytes. -/
def largeStream (pid : UInt8) : List UInt8 := [0x1b, 0xe1, pid, 0xf1, 0x01, 0x28, 0xff] ++ List.replicate 255 0x00

/-- A map of two such streams. -/
def largeUnit (first second : UInt8) : TsUnit :=
  { pid := 0x100
    data := [0x00, 0x02, 0xb2, 0x19, 0x00, 0x01, 0xc1, 0x00, 0x00, 0xe1, 0x01, 0xf0, 0x00] ++ largeStream first ++
      largeStream second ++ [0x00, 0x00, 0x00, 0x00] }

/-- Two maps that are too long together. -/
def largeUnits : TsUnits := { list := [associationUnit, largeUnit 0x01 0x02, largeUnit 0x03 0x04] }

theorem not_pack_large :
    (construct.unpack largeUnits).1 = 1 ∧ ((construct.unpack largeUnits).2.pack {}).map Prod.fst = some (-1) := by
  have given : (construct.unpack largeUnits).2.programPid ≠ 0 := by decide +kernel
  have long : intOfSize (construct.unpack largeUnits).2.pmt.sectionLength > 1021 := by decide +kernel
  refine ⟨by decide +kernel, ?_⟩
  rw [pack_eq given, if_pos long]
  rfl

end Pack

end TsStream

end Libts
