import Libts.Stream.Table

/-!
# The three passes of the decoder

Each pass reads the units of one PID: 0, the PID of the program, the PID of a stream. The
other units it steps over, so it gives the same on the units of its PID alone, with the
same early returns.
-/

namespace Libts
set_option autoImplicit false

theorem TsStreamPes.unpackUnits_filter (us : List TsUnit) (p : TsStreamPes) :
    unpackUnits us p = unpackUnits (us.filter fun u => (u.pid.toNat : Int) = p.pid) p := by
  induction us generalizing p with
  | nil => rfl
  | cons u us ih =>
    obtain own | other := Decidable.em ((u.pid.toNat : Int) = p.pid)
    · rw [List.filter_cons_of_pos (by simpa using own)]
      simp only [unpackUnits, if_pos own]
      split
      · exact ih p
      · exact ih _
    · rw [List.filter_cons_of_neg (by simpa using other)]
      simp only [unpackUnits, if_neg other]
      exact ih p

namespace TsStream

/-- The PID of a unit, as the `int` it is compared with. -/
theorem filter_toNat (us : List TsUnit) (pid : BitVec 13) :
    us.filter (fun u => (u.pid.toNat : Int) = pid.toNat) = us.filter fun u => u.pid = pid := by
  apply List.filter_congr
  intro u _
  rw [decide_eq_decide, Int.ofNat_inj, BitVec.toNat_inj]

theorem unpackPatLoop_filter (us : List TsUnit) (ts : TsStream) :
    unpackPatLoop us ts = unpackPatLoop (us.filter fun u => u.pid = 0) ts := by
  induction us generalizing ts with
  | nil => rfl
  | cons u us ih =>
    obtain own | other := Decidable.em (u.pid = 0)
    · rw [List.filter_cons_of_pos (by simpa using own)]
      simp only [unpackPatLoop, if_pos own]
      split
      · rfl
      · split
        · rfl
        · exact ih _
    · rw [List.filter_cons_of_neg (by simpa using other)]
      simp only [unpackPatLoop, if_neg other]
      exact ih ts

section Association

variable {ts : TsStream} {u : TsUnit} {us : List TsUnit} {pat : TsPat}

theorem unpackPatLoop_other (other : u.pid ≠ 0) : unpackPatLoop (u :: us) ts = unpackPatLoop us ts := by
  simp only [unpackPatLoop, if_neg other]

/-- A table that is accepted. -/
theorem unpackPatLoop_own (own : u.pid = 0) (read : TsPat.construct.unpackBuffer u.data = (1, pat))
    (agrees : (ts.setProgramPid pat.programPid).programPid = pat.programPid.toNat) :
    unpackPatLoop (u :: us) ts = unpackPatLoop us (ts.setProgramPid pat.programPid) := by
  have accepted : ¬ (1 : Int) = -1 := by decide
  simp only [unpackPatLoop, if_pos own, read, if_neg accepted, if_neg (not_not.mpr agrees)]

theorem unpackPatLoop_none (none : us.filter (fun u => u.pid = 0) = []) : unpackPatLoop us ts = (1, ts) := by
  rw [unpackPatLoop_filter, none, unpackPatLoop]

end Association

theorem programPid_setPcrPid (ts : TsStream) (pid : BitVec 13) : (ts.setPcrPid pid).programPid = ts.programPid := by
  rw [setPcrPid]
  split <;> rfl

theorem programPid_mergeStreams (ss : List TsPmtStream) (ts : TsStream) :
    (mergeStreams ss ts).2.programPid = ts.programPid := by
  apply mergeStreams_keeps (P := fun t => t.programPid = ts.programPid)
  · exact fun _ _ kept => kept
  · rfl

theorem programPid_unpackPmtLoop (us : List TsUnit) (ts : TsStream) :
    (unpackPmtLoop us ts).2.programPid = ts.programPid := by
  apply unpackPmtLoop_keeps (P := fun t => t.programPid = ts.programPid)
  · exact fun _ _ kept => kept
  · exact fun t pid kept => (programPid_setPcrPid t pid).trans kept
  · rfl

theorem unpackPmtLoop_filter (us : List TsUnit) (ts : TsStream) :
    unpackPmtLoop us ts = unpackPmtLoop (us.filter fun u => (u.pid.toNat : Int) = ts.programPid) ts := by
  induction us generalizing ts with
  | nil => rfl
  | cons u us ih =>
    obtain own | other := Decidable.em ((u.pid.toNat : Int) = ts.programPid)
    · -- the merged stream is read under the same program PID
      have merged := programPid_mergeStreams (TsPmt.construct.unpackBuffer u.data).2.streams
        (ts.setPcrPid (TsPmt.construct.unpackBuffer u.data).2.pcrPid)
      rw [programPid_setPcrPid] at merged
      rw [List.filter_cons_of_pos (by simpa using own)]
      simp only [unpackPmtLoop, if_pos own]
      split
      · rfl
      · split
        · rfl
        · split
          · rfl
          · rw [ih, merged]
    · rw [List.filter_cons_of_neg (by simpa using other)]
      simp only [unpackPmtLoop, if_neg other]
      exact ih ts

section Map

variable {ts : TsStream} {u : TsUnit} {us : List TsUnit} {pmt : TsPmt} {merged : TsStream}

theorem unpackPmtLoop_other (other : (u.pid.toNat : Int) ≠ ts.programPid) :
    unpackPmtLoop (u :: us) ts = unpackPmtLoop us ts := by
  simp only [unpackPmtLoop, if_neg other]

/-- A map that is accepted and merged. -/
theorem unpackPmtLoop_own (own : (u.pid.toNat : Int) = ts.programPid)
    (read : TsPmt.construct.unpackBuffer u.data = (1, pmt))
    (agrees : (ts.setPcrPid pmt.pcrPid).pcrPid = pmt.pcrPid.toNat)
    (merge : mergeStreams pmt.streams (ts.setPcrPid pmt.pcrPid) = (1, merged)) :
    unpackPmtLoop (u :: us) ts = unpackPmtLoop us merged := by
  have accepted : ¬ (1 : Int) = -1 := by decide
  simp only [unpackPmtLoop, if_pos own, read, if_neg accepted, if_neg (not_not.mpr agrees), merge]

theorem unpackPmtLoop_none (none : us.filter (fun u => (u.pid.toNat : Int) = ts.programPid) = []) :
    unpackPmtLoop us ts = (1, ts) := by
  rw [unpackPmtLoop_filter, none, unpackPmtLoop]

end Map

section Whole

variable {ts told t : TsStream} {units : TsUnits}

theorem unpackPmt_result (ts : TsStream) (units : TsUnits) :
    (ts.unpackPmt units).1 = -1 ∨ (ts.unpackPmt units).1 = 1 := by
  rw [unpackPmt]
  split
  · exact Or.inl rfl
  · exact unpackPmtLoop_result _ _

theorem unpack_refused (pat : unpackPatLoop units.list ts = (-1, told)) : ts.unpack units = (-1, told) := by
  have refused : ¬ (-1 : Int) ≥ 0 := by decide
  simp only [unpack, unpackPat, pat, if_neg refused]

/-- What is left when the associations were accepted. -/
theorem unpack_associated (pat : unpackPatLoop units.list ts = (1, told)) :
    ts.unpack units =
      if (told.unpackPmt units).1 ≥ 0 then (told.unpackPmt units).2.unpackPes units else told.unpackPmt units := by
  have accepted : (1 : Int) ≥ 0 := by decide
  simp only [unpack, unpackPat, pat, if_pos accepted]

theorem unpack_result (ts : TsStream) (units : TsUnits) : (ts.unpack units).1 = -1 ∨ (ts.unpack units).1 = 1 := by
  cases pat : unpackPatLoop units.list ts with
  | mk n told =>
    obtain rfl | rfl : n = -1 ∨ n = 1 := by
      have result := unpackPatLoop_result units.list ts
      rwa [pat] at result
    · rw [unpack_refused pat]
      exact Or.inl rfl
    · rw [unpack_associated pat]
      split
      · exact Or.inr rfl
      · exact told.unpackPmt_result units

/-- The maps are what is refused. -/
theorem unpack_eq_refused_iff (pat : unpackPatLoop units.list ts = (1, told)) :
    ts.unpack units = (-1, t) ↔ told.unpackPmt units = (-1, t) := by
  rw [unpack_associated pat]
  obtain refused | accepted := told.unpackPmt_result units
  · rw [if_neg (by rw [refused]; decide)]
  · rw [if_pos (by rw [accepted]; decide)]
    constructor
    · intro refused
      cases refused
    · intro refused
      rw [refused] at accepted
      cases accepted

/-- All three passes are accepted. -/
theorem unpack_accepted_iff :
    ts.unpack units = (1, t) ↔ ∃ told described, unpackPatLoop units.list ts = (1, told) ∧
      told.unpackPmt units = (1, described) ∧ t = (described.unpackPes units).2 := by
  constructor
  · intro loaded
    cases pat : unpackPatLoop units.list ts with
    | mk n told =>
      obtain rfl | rfl : n = -1 ∨ n = 1 := by
        have result := unpackPatLoop_result units.list ts
        rwa [pat] at result
      · rw [unpack_refused pat] at loaded
        cases loaded
      · rw [unpack_associated pat] at loaded
        obtain refused | accepted := told.unpackPmt_result units
        · rw [if_neg (by rw [refused]; decide)] at loaded
          rw [loaded] at refused
          cases refused
        · rw [if_pos (by rw [accepted]; decide)] at loaded
          exact ⟨told, _, rfl, Prod.ext accepted rfl, (congrArg Prod.snd loaded).symm⟩
  · rintro ⟨told, described, pat, pmt, rfl⟩
    have passes : (1 : Int) ≥ 0 := by decide
    rw [unpack_associated pat, pmt, if_pos passes]
    rfl

end Whole

end TsStream
end Libts
