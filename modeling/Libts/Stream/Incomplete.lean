import Libts.Psi.PatGrammar
import Libts.Psi.PmtGrammar
import Libts.Stream.Recode
import Libts.Stream.Refused

/-!
# Incomplete sections

The decoders of the two tables return 0 for a section that is not there as a whole, and
leave the table as it was constructed. `unpackPat` and `unpackPmt` only look for -1 and go on
with PID 0: where no PID is known that is stepped over, and where one is known it
contradicts it. So it depends on the place of an incomplete section what it does
(`steppedOver_iff`).
-/

namespace Libts
set_option autoImplicit false

open WriteOnce

namespace TsPsi

/-- The pointer or the header that a unit starts with is not there as a whole. -/
def Incomplete (s : Bytestream) : Prop :=
  (pointerUnpack s).1 = 0 ∨ (pointerUnpack s).1 = 1 ∧ (constructStream (pointerUnpack s).2).1 = 0

end TsPsi

namespace TsPat

/-- A section that is not there as a whole leaves the table as it was. -/
theorem unpackBuffer_incomplete {b : Buffer} (incomplete : (construct.unpackBuffer b).1 = 0) :
    construct.unpackBuffer b = (0, construct) ∧ TsPsi.Incomplete (Bytestream.constructBuffer b) := by
  have decoded : (construct.unpackStream (Bytestream.constructBuffer b)).1 = 0 := incomplete
  have accepted : ¬ (1 : Int) ≤ 0 := by decide
  have below : (-1 : Int) ≤ 0 := by decide
  have result (t : Bytestream) : t.result ≠ 0 := by
    unfold Bytestream.result
    split <;> decide
  obtain missing | ⟨middle, pointer, missing | refused | ⟨psi, t, header⟩⟩ :=
    TsPsi.start_cases (Bytestream.constructBuffer b)
  · refine ⟨?_, Or.inl missing⟩
    simp only [unpackBuffer, unpackStream, missing]
    rfl
  · refine ⟨?_, Or.inr ⟨congrArg Prod.fst pointer, ?_⟩⟩
    · simp only [unpackBuffer, unpackStream, pointer, if_neg accepted, missing]
      rfl
    · rw [pointer]
      exact missing
  · simp only [unpackStream, pointer, if_neg accepted, refused, if_pos below] at decoded
    cases decoded
  · rw [unpackStream_start construct pointer header] at decoded
    simp only at decoded
    split at decoded
    · cases decoded
    · split at decoded
      · cases decoded
      · exact absurd decoded (result _)

end TsPat

namespace TsPmt

theorem unpackSection_result (pmt : TsPmt) (data : Bytestream) : (pmt.unpackSection data).1 ≠ 0 := by
  have refused : (-1 : Int) ≠ 0 := by decide
  simp only [unpackSection]
  split
  · exact refused
  · split
    · exact refused
    · split
      · exact refused
      · split
        · exact refused
        · exact (by decide : (1 : Int) ≠ 0)

theorem unpackBuffer_incomplete {b : Buffer} (incomplete : (construct.unpackBuffer b).1 = 0) :
    construct.unpackBuffer b = (0, construct) ∧ TsPsi.Incomplete (Bytestream.constructBuffer b) := by
  have decoded : (construct.unpackStream (Bytestream.constructBuffer b)).1 = 0 := incomplete
  have accepted : ¬ (1 : Int) ≤ 0 := by decide
  have below : (-1 : Int) ≤ 0 := by decide
  obtain missing | ⟨middle, pointer, missing | refused | ⟨psi, t, header⟩⟩ :=
    TsPsi.start_cases (Bytestream.constructBuffer b)
  · refine ⟨?_, Or.inl missing⟩
    simp only [unpackBuffer, unpackStream, missing]
    rfl
  · refine ⟨?_, Or.inr ⟨congrArg Prod.fst pointer, ?_⟩⟩
    · simp only [unpackBuffer, unpackStream, pointer, if_neg accepted, missing]
      rfl
    · rw [pointer]
      exact missing
  · simp only [unpackStream, pointer, if_neg accepted, refused, if_pos below] at decoded
    cases decoded
  · simp only [unpackStream, pointer, header, if_neg accepted] at decoded
    split at decoded
    · cases decoded
    · exact absurd decoded (unpackSection_result _ _)

end TsPmt

namespace TsPes

/-- A PES starts like a section whose header is wrong. -/
theorem complete_of_framed {b : Buffer} (framed : Framed b) : ¬ TsPsi.Incomplete (Bytestream.constructBuffer b) := by
  have bytes : b = 0 :: 0 :: 1 :: b.getD 3 0 :: b.drop 4 := by
    have enough := framed.prefixed
    have front := List.take_append_drop 3 b
    have fourth : b.getD 3 0 = b[3] := by
      rw [List.getD_eq_getElem?_getD, List.getElem?_eq_getElem (by omega), Option.getD_some]
    rw [framed.start, List.drop_eq_getElem_cons (by omega), ← fourth] at front
    exact front.symm
  have filled : b ≠ [] := by
    rw [bytes]
    exact List.cons_ne_nil _ _
  have h := Bytestream.holds_constructBuffer filled
  generalize Bytestream.constructBuffer b = s at h ⊢
  rw [bytes] at h
  have pointer := TsPsi.pointerUnpack_zero h
  have h1 := h.skip_cons
  have h2 := h1.skip_cons
  have h3 := h2.skip (n := 2) (Nat.le_add_left 2 _)
  have named : ¬ UInt8.ofNat (0 : UInt8).toNat = 0xff := by decide
  -- the word starts with the 1 of the start code, and a section length with a 1 in its first bit
  have first : readBits ((1 : UInt8).toNat * 256 + (b.getD 3 0).toNat) 16 0 1 ≠ 0x01 := by
    have small := (b.getD 3 0).toNat_lt
    have one : (1 : UInt8).toNat = 1 := rfl
    rw [readBits_div (by decide), one]
    omega
  have refused : (TsPsi.constructStream (s.skip 1)).1 = -1 := by
    simp only [TsPsi.constructStream, TsPsi.unpackStream, h1.read8, h2.read16, if_neg named, h3.isValid, Bool.not_true,
      Bool.false_eq_true, if_false, TsPsi.unpackLength, if_pos (Or.inl first)]
  rintro (missing | ⟨-, missing⟩)
  · rw [pointer] at missing
    cases missing
  · rw [pointer, refused] at missing
    cases missing

/-- An incomplete section is no PES. -/
theorem unpackBuffer_incomplete {b : Buffer} (incomplete : TsPsi.Incomplete (Bytestream.constructBuffer b)) :
    (construct.unpackBuffer b).1 = -1 := by
  obtain refused | accepted := construct.unpackStream_result (Bytestream.constructBuffer b)
  · exact refused
  · obtain ⟨framed, -⟩ := unpackBuffer_framed.1 (Prod.ext accepted rfl)
    exact absurd incomplete (complete_of_framed framed)

end TsPes

theorem TsStreamPes.unpackUnits_insert {u : TsUnit} (refused : (TsPes.construct.unpackBuffer u.data).1 = -1)
    (front rest : List TsUnit) (p : TsStreamPes) : unpackUnits (front ++ u :: rest) p = unpackUnits (front ++ rest) p := by
  induction front generalizing p with
  | nil =>
    simp only [List.nil_append, unpackUnits, if_pos refused]
    split <;> rfl
  | cons v front ih =>
    simp only [List.cons_append, unpackUnits]
    split
    · split
      · exact ih p
      · exact ih _
    · exact ih p

namespace TsStream

/-- A unit with an incomplete association, or with an incomplete map. -/
def Incomplete (u : TsUnit) : Prop :=
  u.pid = 0 ∧ (TsPat.construct.unpackBuffer u.data).1 = 0 ∨ u.pid ≠ 0 ∧ (TsPmt.construct.unpackBuffer u.data).1 = 0

/-- The units are decoded with `u` between them as they are without it. -/
def SteppedOver (ts : TsStream) (front : List TsUnit) (u : TsUnit) (rest : List TsUnit) : Prop :=
  ts.unpack { list := front ++ u :: rest } = ts.unpack { list := front ++ rest }

/-- Where an incomplete association between the units does nothing: no program is known in
front of it, or the maps of the program are refused before anything of them is written. -/
def PatSpared (front rest : List TsUnit) (ts : TsStream) (program : Int) : Prop :=
  ts.programPid = 0 ∧ (∀ a ∈ associations front, a.programPid = 0) ∨
    Interrupted (front ++ rest) { ts with programPid := program } { ts with programPid := program }

/-- Where an incomplete map does nothing: no clock is known in front of it, or the maps are
refused, those in front, or those behind before anything of them is written. -/
def PmtSpared (front rest : List TsUnit) (ts : TsStream) : Prop :=
  ts.pcrPid = 0 ∧ (∀ m ∈ maps ts.programPid front, m.pcrPid = 0) ∨ (∃ left, Interrupted front ts left) ∨
    Interrupted rest (ts.putMaps (maps ts.programPid front)) (ts.putMaps (maps ts.programPid front))

/-- Where an incomplete section between the units does nothing: the associations are refused
without it, or it is spared, or it is neither an association nor a map of the program. -/
def Spared (ts : TsStream) (front : List TsUnit) (u : TsUnit) (rest : List TsUnit) : Prop :=
  ∀ program, Associated (front ++ rest) ts program →
    (u.pid = 0 → PatSpared front rest ts program) ∧
      (u.pid ≠ 0 → (u.pid.toNat : Int) = program → PmtSpared front rest { ts with programPid := program })

section Steps

variable {ts : TsStream} {u : TsUnit}

/-- An incomplete association announces PID 0. -/
theorem patStep_incomplete (own : u.pid = 0) (incomplete : (TsPat.construct.unpackBuffer u.data).1 = 0) (ts : TsStream) :
    patStep u ts = if ts.programPid = 0 then (1, ts) else (-1, ts) := by
  obtain ⟨read, -⟩ := TsPat.unpackBuffer_incomplete incomplete
  have decoded : ¬ (0 : Int) = -1 := by decide
  have none : ((TsPat.construct.programPid.toNat : Nat) : Int) = 0 := rfl
  have kept : write noPid ts.programPid 0 = ts.programPid := write_absent rfl
  simp only [patStep, if_pos own, read, if_neg decoded, setProgramPid_eq, none, kept]
  exact ite_not (ts.programPid = 0) _ _

/-- An incomplete map has the clock PID 0 and no streams. -/
theorem pmtStep_incomplete (own : (u.pid.toNat : Int) = ts.programPid)
    (incomplete : (TsPmt.construct.unpackBuffer u.data).1 = 0) :
    pmtStep u ts = if ts.pcrPid = 0 then (1, ts) else (-1, ts) := by
  obtain ⟨read, -⟩ := TsPmt.unpackBuffer_incomplete incomplete
  have decoded : ¬ (0 : Int) = -1 := by decide
  have none : ((TsPmt.construct.pcrPid.toNat : Nat) : Int) = 0 := rfl
  have kept : write noPid ts.pcrPid 0 = ts.pcrPid := write_absent rfl
  simp only [pmtStep, if_pos own, read, if_neg decoded, setPcrPid_eq, none, kept]
  exact ite_not (ts.pcrPid = 0) _ _

end Steps

section Passes

variable {ts told t : TsStream} {u : TsUnit} {us front rest : List TsUnit}

theorem unpackPatLoop_insert (skipped : ∀ before, unpackPatLoop front ts = (1, before) → patStep u before = (1, before))
    (rest : List TsUnit) : unpackPatLoop (front ++ u :: rest) ts = unpackPatLoop (front ++ rest) ts := by
  simp only [unpackPatLoop_eq] at skipped ⊢
  exact EarlyReturn.loop_insert skipped rest

theorem unpackPmtLoop_insert (skipped : ∀ before, unpackPmtLoop front ts = (1, before) → pmtStep u before = (1, before))
    (rest : List TsUnit) : unpackPmtLoop (front ++ u :: rest) ts = unpackPmtLoop (front ++ rest) ts := by
  simp only [unpackPmtLoop_eq] at skipped ⊢
  exact EarlyReturn.loop_insert skipped rest

/-- A program that is known is left as it is. -/
theorem unpackPatLoop_known (known : ts.programPid ≠ 0) (us : List TsUnit) : (unpackPatLoop us ts).2 = ts := by
  apply unpackPatLoop_keeps (P := fun t => t = ts)
  · rintro t pid rfl
    exact if_neg known
  · rfl

/-- What is accepted as a whole is accepted in front. -/
theorem unpackPatLoop_split (accepted : unpackPatLoop (front ++ rest) ts = (1, told)) :
    ∃ before, unpackPatLoop front ts = (1, before) ∧ unpackPatLoop rest before = (1, told) := by
  simp only [unpackPatLoop_eq] at accepted ⊢
  exact EarlyReturn.loop_append_accepted_iff.1 accepted

/-- A unit that is no map of the program. -/
theorem unpackPmt_other (other : told.programPid ≠ 0 → (u.pid.toNat : Int) ≠ told.programPid) :
    told.unpackPmt { list := front ++ u :: rest } = told.unpackPmt { list := front ++ rest } := by
  by_cases program : told.programPid = 0
  · rw [unpackPmt, unpackPmt, if_pos program, if_pos program]
  · rw [unpackPmt, unpackPmt, if_neg program, if_neg program]
    apply unpackPmtLoop_insert
    intro before accepted
    have kept := programPid_unpackPmtLoop front told
    rw [accepted] at kept
    exact pmtStep_other (kept ▸ other program)

/-- A unit that makes no difference to the tables. -/
theorem steppedOver_of (pes : (TsPes.construct.unpackBuffer u.data).1 = -1)
    (pat : unpackPatLoop (front ++ u :: rest) ts = unpackPatLoop (front ++ rest) ts)
    (pmt : ∀ told, unpackPatLoop (front ++ rest) ts = (1, told) →
      told.unpackPmt { list := front ++ u :: rest } = told.unpackPmt { list := front ++ rest }) :
    ts.SteppedOver front u rest := by
  have packets (t : TsStream) : t.unpackPes { list := front ++ u :: rest } = t.unpackPes { list := front ++ rest } := by
    have same : TsStreamPes.unpackUnits (front ++ u :: rest) = TsStreamPes.unpackUnits (front ++ rest) :=
      funext (TsStreamPes.unpackUnits_insert pes front rest)
    rw [unpackPes, unpackPes, same]
  obtain refused | accepted := unpackPatLoop_result (front ++ rest) ts
  · have first : unpackPatLoop (front ++ rest) ts = (-1, (unpackPatLoop (front ++ rest) ts).2) := Prod.ext refused rfl
    rw [SteppedOver, unpack_refused first, unpack_refused (pat.trans first)]
  · have first : unpackPatLoop (front ++ rest) ts = (1, (unpackPatLoop (front ++ rest) ts).2) := Prod.ext accepted rfl
    rw [SteppedOver, unpack_associated first, unpack_associated (pat.trans first), pmt _ first, packets]

/-- The associations in front of the place decide whether a program is known there. -/
theorem programPid_front_iff {before : TsStream} (pat : unpackPatLoop front ts = (1, before)) :
    before.programPid = 0 ↔ ts.programPid = 0 ∧ ∀ a ∈ associations front, a.programPid = 0 := by
  obtain ⟨⟨-, ran⟩, -⟩ := unpackPatLoop_accepted_iff.1 pat
  have unset := absent_run_iff ran
  simp only [List.forall_mem_map, noPid_toNat_iff] at unset
  simpa [noPid] using unset

theorem pcrPid_front_iff {known : TsStream} (pmt : unpackPmtLoop front ts = (1, known)) :
    known.pcrPid = 0 ↔ ts.pcrPid = 0 ∧ ∀ m ∈ maps ts.programPid front, m.pcrPid = 0 := by
  obtain ⟨-, ran, -⟩ := unpackPmtLoop_wrote pmt
  have unset := absent_run_iff ran
  simp only [List.forall_mem_map, noPid_toNat_iff] at unset
  simpa [noPid] using unset

theorem not_associated {program : Int} (refused : unpackPatLoop us ts = (-1, t)) : ¬ Associated us ts program := by
  intro associated
  have accepted : unpackPatLoop us ts = (1, { ts with programPid := program }) :=
    unpackPatLoop_accepted_iff.2 ⟨associated, rfl⟩
  rw [refused] at accepted
  cases accepted

/-- The program the associations leave is the only one. -/
theorem forall_associated_iff {P : Int → Prop} (accepted : unpackPatLoop us ts = (1, told)) :
    (∀ program, Associated us ts program → P program) ↔ P told.programPid := by
  obtain ⟨associated, -⟩ := unpackPatLoop_accepted_iff.1 accepted
  constructor
  · exact fun all => all _ associated
  · intro holds program other
    have same := other.program
    rw [associated.program] at same
    rwa [← Option.some.inj same]

section Association

variable (own : u.pid = 0) (incomplete : (TsPat.construct.unpackBuffer u.data).1 = 0)
include own incomplete

/-- Where no program is known an incomplete association is stepped over. -/
theorem unpackPatLoop_unset (unset : ∀ before, unpackPatLoop front ts = (1, before) → before.programPid = 0) :
    unpackPatLoop (front ++ u :: rest) ts = unpackPatLoop (front ++ rest) ts := by
  apply unpackPatLoop_insert
  intro before accepted
  rw [patStep_incomplete own incomplete, if_pos (unset before accepted)]

/-- Where one is known it is refused. -/
theorem unpackPatLoop_set {before : TsStream} (accepted : unpackPatLoop front ts = (1, before))
    (known : before.programPid ≠ 0) : unpackPatLoop (front ++ u :: rest) ts = (-1, before) := by
  rw [unpackPatLoop_eq] at accepted ⊢
  rw [EarlyReturn.loop_append_accepted accepted]
  apply EarlyReturn.loop_refused
  rw [patStep_incomplete own incomplete, if_neg known]

/-- What refuses the associations without it refuses them with it, and leaves the same. -/
theorem unpackPatLoop_refused (refused : unpackPatLoop (front ++ rest) ts = (-1, t)) :
    unpackPatLoop (front ++ u :: rest) ts = (-1, t) := by
  by_cases unset : ∀ before, unpackPatLoop front ts = (1, before) → before.programPid = 0
  · rw [unpackPatLoop_unset own incomplete unset, refused]
  · simp only [not_forall] at unset
    obtain ⟨before, accepted, known⟩ := unset
    have kept := unpackPatLoop_known known rest
    rw [unpackPatLoop_eq, EarlyReturn.loop_append_accepted (by rw [← unpackPatLoop_eq, accepted]), ← unpackPatLoop_eq]
      at refused
    rw [refused] at kept
    have same : t = before := kept
    rw [unpackPatLoop_set own incomplete accepted known, same]

theorem steppedOver_pat_iff :
    ts.SteppedOver front u rest ↔
      ∀ program, Associated (front ++ rest) ts program → PatSpared front rest ts program := by
  obtain ⟨-, start⟩ := TsPat.unpackBuffer_incomplete incomplete
  have pes := TsPes.unpackBuffer_incomplete start
  cases whole : unpackPatLoop (front ++ rest) ts with
  | mk n told =>
    obtain rfl | rfl : n = -1 ∨ n = 1 := by
      have result := unpackPatLoop_result (front ++ rest) ts
      rwa [whole] at result
    · have same := unpackPatLoop_refused own incomplete whole
      constructor
      · exact fun _ program associated => absurd associated (not_associated whole)
      · intro _
        apply steppedOver_of pes (same.trans whole.symm)
        intro told accepted
        rw [whole] at accepted
        cases accepted
    · obtain ⟨before, first, second⟩ := unpackPatLoop_split whole
      obtain ⟨-, value⟩ := unpackPatLoop_accepted_iff.1 whole
      rw [forall_associated_iff whole, PatSpared, ← value, ← programPid_front_iff first]
      by_cases unset : before.programPid = 0
      · have stepped : ts.SteppedOver front u rest := by
          apply steppedOver_of pes
          · apply unpackPatLoop_unset own incomplete
            intro before' first'
            rw [first] at first'
            cases first'
            exact unset
          · intro told _
            apply unpackPmt_other
            rw [own]
            exact fun known => Ne.symm known
        exact ⟨fun _ => Or.inl unset, fun _ => stepped⟩
      · have kept := unpackPatLoop_known unset rest
        rw [second] at kept
        have same : told = before := kept
        rw [SteppedOver, unpack_refused (unpackPatLoop_set own incomplete first unset), eq_comm, ← same,
          unpack_eq_refused_iff whole, unpackPmt, if_neg (same ▸ unset), unpackPmtLoop_refused_iff]
        exact ⟨Or.inr, fun spared => spared.resolve_left (same ▸ unset)⟩

end Association

section Map

variable (incomplete : (TsPmt.construct.unpackBuffer u.data).1 = 0)
include incomplete

/-- Where no clock is known an incomplete map is stepped over. -/
theorem unpackPmtLoop_unset (own : (u.pid.toNat : Int) = told.programPid)
    (unset : ∀ known, unpackPmtLoop front told = (1, known) → known.pcrPid = 0) :
    unpackPmtLoop (front ++ u :: rest) told = unpackPmtLoop (front ++ rest) told := by
  apply unpackPmtLoop_insert
  intro known accepted
  have kept := programPid_unpackPmtLoop front told
  rw [accepted] at kept
  rw [pmtStep_incomplete (own.trans kept.symm) incomplete, if_pos (unset known accepted)]

/-- Where one is known it is refused. -/
theorem unpackPmtLoop_set {known : TsStream} (own : (u.pid.toNat : Int) = told.programPid)
    (accepted : unpackPmtLoop front told = (1, known)) (set : known.pcrPid ≠ 0) :
    unpackPmtLoop (front ++ u :: rest) told = (-1, known) := by
  have kept := programPid_unpackPmtLoop front told
  rw [accepted] at kept
  rw [unpackPmtLoop_eq] at accepted ⊢
  rw [EarlyReturn.loop_append_accepted accepted]
  apply EarlyReturn.loop_refused
  rw [pmtStep_incomplete (own.trans kept.symm) incomplete, if_neg set]

/-- A map of the program, with the associations accepted. -/
theorem steppedOver_own_iff (program : told.programPid ≠ 0) (own : (u.pid.toNat : Int) = told.programPid)
    (pat : unpackPatLoop (front ++ rest) ts = (1, told))
    (same : unpackPatLoop (front ++ u :: rest) ts = unpackPatLoop (front ++ rest) ts) :
    ts.SteppedOver front u rest ↔ PmtSpared front rest told := by
  obtain ⟨-, start⟩ := TsPmt.unpackBuffer_incomplete incomplete
  have pes := TsPes.unpackBuffer_incomplete start
  by_cases unset : ∀ known, unpackPmtLoop front told = (1, known) → known.pcrPid = 0
  · have stepped : ts.SteppedOver front u rest := by
      apply steppedOver_of pes same
      intro told' pat'
      rw [pat] at pat'
      cases pat'
      rw [unpackPmt, unpackPmt, if_neg program, if_neg program, unpackPmtLoop_unset incomplete own unset]
    have spared : PmtSpared front rest told := by
      cases first : unpackPmtLoop front told with
      | mk n known =>
        obtain rfl | rfl : n = -1 ∨ n = 1 := by
          have result := unpackPmtLoop_result front told
          rwa [first] at result
        · exact Or.inr (Or.inl ⟨known, unpackPmtLoop_refused_iff.1 first⟩)
        · exact Or.inl ((pcrPid_front_iff first).1 (unset known first))
    exact ⟨fun _ => spared, fun _ => stepped⟩
  · simp only [not_forall] at unset
    obtain ⟨known, first, set⟩ := unset
    obtain ⟨-, -, value⟩ := unpackPmtLoop_accepted_iff.1 first
    have refused : unpackPmtLoop (front ++ u :: rest) told = (-1, known) :=
      unpackPmtLoop_set incomplete own first set
    have whole : ts.unpack { list := front ++ u :: rest } = (-1, known) := by
      rw [unpack_eq_refused_iff (same.trans pat), unpackPmt, if_neg program, refused]
    have alone : unpackPmtLoop (front ++ rest) told = unpackPmtLoop rest known := by
      rw [unpackPmtLoop_eq] at first
      rw [unpackPmtLoop_eq, EarlyReturn.loop_append_accepted first, ← unpackPmtLoop_eq]
    rw [SteppedOver, whole, eq_comm, unpack_eq_refused_iff pat, unpackPmt, if_neg program, alone,
      unpackPmtLoop_refused_iff, PmtSpared, ← pcrPid_front_iff first, ← value]
    constructor
    · exact fun behind => Or.inr (Or.inr behind)
    · rintro (unset | ⟨left, interrupted⟩ | behind)
      · exact absurd unset set
      · rw [unpackPmtLoop_refused_iff.2 interrupted] at first
        cases first
      · exact behind

theorem steppedOver_pmt_iff (other : u.pid ≠ 0) :
    ts.SteppedOver front u rest ↔
      ∀ program, Associated (front ++ rest) ts program → (u.pid.toNat : Int) = program →
        PmtSpared front rest { ts with programPid := program } := by
  obtain ⟨-, start⟩ := TsPmt.unpackBuffer_incomplete incomplete
  have pes := TsPes.unpackBuffer_incomplete start
  have same : unpackPatLoop (front ++ u :: rest) ts = unpackPatLoop (front ++ rest) ts := by
    apply unpackPatLoop_insert
    intro before _
    rw [patStep, if_neg other]
  cases pat : unpackPatLoop (front ++ rest) ts with
  | mk n told =>
    obtain rfl | rfl : n = -1 ∨ n = 1 := by
      have result := unpackPatLoop_result (front ++ rest) ts
      rwa [pat] at result
    · constructor
      · exact fun _ program associated => absurd associated (not_associated pat)
      · intro _
        apply steppedOver_of pes same
        intro told accepted
        rw [pat] at accepted
        cases accepted
    · obtain ⟨-, value⟩ := unpackPatLoop_accepted_iff.1 pat
      rw [forall_associated_iff pat, ← value]
      by_cases own : (u.pid.toNat : Int) = told.programPid
      · have program : told.programPid ≠ 0 := by
          rw [← own]
          intro zero
          exact other (noPid_toNat_iff.1 (beq_iff_eq.2 zero))
        rw [steppedOver_own_iff incomplete program own pat same]
        exact ⟨fun spared _ => spared, fun spared => spared own⟩
      · have stepped : ts.SteppedOver front u rest := by
          apply steppedOver_of pes same
          intro told' pat'
          rw [pat] at pat'
          cases pat'
          exact unpackPmt_other fun _ => own
        exact ⟨fun _ own' => absurd own' own, fun _ => stepped⟩

end Map

/-- **Incomplete sections.** An incomplete section is stepped over exactly where it is spared. -/
theorem steppedOver_iff (incomplete : Incomplete u) : ts.SteppedOver front u rest ↔ ts.Spared front u rest := by
  obtain ⟨own, missing⟩ | ⟨other, missing⟩ := incomplete
  · rw [steppedOver_pat_iff own missing, Spared]
    constructor
    · exact fun spared program associated => ⟨fun _ => spared program associated, fun other => absurd own other⟩
    · exact fun spared program associated => (spared program associated).1 own
  · rw [steppedOver_pmt_iff missing other, Spared]
    constructor
    · exact fun spared program associated => ⟨fun own => absurd own other, fun _ => spared program associated⟩
    · exact fun spared program associated => (spared program associated).2 other

/-- Two bytes of an association behind its length. -/
def brokenUnit : TsUnit := { data := [0x00, 0x00, 0xb0, 0x0d, 0x00, 0x01] }

theorem steppedOver_iff_broken :
    construct.SteppedOver [associationUnit] brokenUnit [plainUnit] ↔
      construct.Spared [associationUnit] brokenUnit [plainUnit] := by
  have incomplete : Incomplete brokenUnit := by
    left
    decide +kernel
  exact steppedOver_iff incomplete

/-- In front of the complete association the broken one is stepped over, behind it it is refused. -/
theorem not_steppedOver_broken :
    Incomplete brokenUnit ∧ construct.SteppedOver [] brokenUnit [associationUnit, plainUnit] ∧
      ¬ construct.SteppedOver [associationUnit] brokenUnit [plainUnit] := by
  refine ⟨?_, ?_, ?_⟩
  · left
    decide +kernel
  · rw [SteppedOver]
    decide +kernel
  · rw [SteppedOver]
    decide +kernel

end Passes

end TsStream

end Libts
