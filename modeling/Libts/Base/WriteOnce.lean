import Mathlib.Data.List.Basic

/-!
# Registers that are written once

A register holds a value, or one of the values that count as absent. A write sets it only
when it is absent, and is accepted when the register then agrees with what was written. A
list of writes that was accepted is accepted once more exactly when it is uniform: its
values are all absent or all present (`again_iff`). Otherwise the absent ones came first,
and the register is set when they come again.
-/

namespace WriteOnce
set_option autoImplicit false

variable {α : Type} (absent : α → Bool)

/-- The register after a write. -/
def write (c v : α) : α := if absent c && !absent v then v else c

/-- The write is accepted. -/
def Agrees (c v : α) : Prop := absent c = true ∧ absent v = true ∨ c = v

variable [DecidableEq α]

instance (c v : α) : Decidable (Agrees absent c v) := inferInstanceAs (Decidable (_ ∧ _ ∨ _))

/-- The writes in turn, as long as they are accepted. -/
def run : α → List α → Option α
  | c, [] => some c
  | c, v :: vs => if Agrees absent (write absent c v) v then run (write absent c v) vs else none

/-- One value is absent only if all are. -/
def Uniform (vs : List α) : Prop := ∀ v ∈ vs, ∀ w ∈ vs, absent v = true → absent w = true

section Laws

variable {absent} {c d v : α} {vs ws : List α}

theorem run_append (c : α) (vs ws : List α) : run absent c (vs ++ ws) = (run absent c vs).bind fun d => run absent d ws := by
  induction vs generalizing c with
  | nil => rfl
  | cons v vs ih =>
    rw [List.cons_append, run, run]
    split
    · exact ih _
    · rfl

theorem run_cons_iff :
    run absent c (v :: vs) = some d ↔ Agrees absent (write absent c v) v ∧ run absent (write absent c v) vs = some d := by
  rw [run]
  split
  · rename_i accepted
    exact ⟨fun rest => ⟨accepted, rest⟩, fun both => both.2⟩
  · rename_i refused
    constructor
    · intro none
      cases none
    · intro both
      exact absurd both.1 refused

theorem isSome_run_cons_iff :
    (run absent c (v :: vs)).isSome ↔ Agrees absent (write absent c v) v ∧ (run absent (write absent c v) vs).isSome := by
  simp only [Option.isSome_iff_exists, run_cons_iff, exists_and_left]

omit [DecidableEq α] in
/-- A register that agrees is left as it is. -/
theorem write_of_agrees (agrees : Agrees absent c v) : write absent c v = c := by
  unfold write
  split
  · rename_i fresh
    obtain ⟨unset, set⟩ := Bool.and_eq_true_iff.mp fresh
    obtain ⟨-, other⟩ | same := agrees
    · rw [other] at set
      contradiction
    · exact same.symm
  · rfl

omit [DecidableEq α] in
/-- Writing an absent value changes nothing. -/
theorem write_absent (unset : absent v = true) : write absent c v = c := by
  rw [write, unset, Bool.not_true, Bool.and_false]
  rfl

theorem run_of_agrees (agrees : ∀ v ∈ vs, Agrees absent c v) : run absent c vs = some c := by
  induction vs with
  | nil => rfl
  | cons v vs ih =>
    obtain ⟨first, rest⟩ := List.forall_mem_cons.mp agrees
    rw [run_cons_iff, write_of_agrees first]
    exact ⟨first, ih rest⟩

/-- A register that is set accepts its own value only. -/
theorem run_present (present : absent c = false) (ran : run absent c vs = some d) : d = c ∧ ∀ v ∈ vs, v = c := by
  induction vs with
  | nil => exact ⟨(Option.some.inj ran).symm, List.forall_mem_nil _⟩
  | cons v vs ih =>
    obtain ⟨accepted, rest⟩ := run_cons_iff.1 ran
    have kept : write absent c v = c := by
      unfold write
      rw [present]
      rfl
    rw [kept] at accepted rest
    obtain ⟨same, others⟩ := ih rest
    refine ⟨same, List.forall_mem_cons.mpr ⟨?_, others⟩⟩
    obtain ⟨unset, -⟩ | equal := accepted
    · rw [present] at unset
      contradiction
    · exact equal.symm

omit [DecidableEq α] in
/-- A register is as present as a value it agrees with. -/
theorem absent_of_agrees (agrees : Agrees absent c v) : absent c = absent v := by
  obtain ⟨unset, other⟩ | same := agrees
  · rw [unset, other]
  · rw [same]

theorem all_absent (ran : run absent c vs = some d) (unset : absent d = true) : ∀ v ∈ vs, absent v = true := by
  induction vs generalizing c with
  | nil => exact List.forall_mem_nil _
  | cons v vs ih =>
    obtain ⟨accepted, rest⟩ := run_cons_iff.1 ran
    refine List.forall_mem_cons.mpr ⟨?_, ih rest⟩
    by_contra set
    have present : absent (write absent c v) = false := by
      rw [absent_of_agrees accepted]
      exact Bool.eq_false_iff.mpr set
    rw [(run_present present rest).1, present] at unset
    contradiction

omit [DecidableEq α] in
/-- A write is accepted by a register that is absent or holds the value. -/
theorem agrees_write_iff : Agrees absent (write absent c v) v ↔ absent c = true ∨ c = v := by
  unfold write
  split
  · rename_i fresh
    obtain ⟨unset, -⟩ := Bool.and_eq_true_iff.mp fresh
    exact ⟨fun _ => Or.inl unset, fun _ => Or.inr rfl⟩
  · rename_i kept
    constructor
    · rintro (⟨unset, -⟩ | same)
      · exact Or.inl unset
      · exact Or.inr same
    · rintro (unset | same)
      · left
        refine ⟨unset, ?_⟩
        simpa [unset] using kept
      · exact Or.inr same

/-- A register is absent as long as only absent values were written. -/
theorem absent_run_iff (ran : run absent c vs = some d) :
    absent d = true ↔ absent c = true ∧ ∀ v ∈ vs, absent v = true := by
  constructor
  · intro unset
    refine ⟨?_, all_absent ran unset⟩
    cases set : absent c
    · rw [(run_present set ran).1, set] at unset
      contradiction
    · rfl
  · rintro ⟨unset, others⟩
    have kept := run_of_agrees fun v member => Or.inl ⟨unset, others v member⟩
    rw [ran] at kept
    rw [Option.some.inj kept]
    exact unset

/-- After uniform writes the register agrees with each. -/
theorem agrees_of_uniform (ran : run absent c vs = some d) (uniform : Uniform absent vs) : ∀ v ∈ vs, Agrees absent d v := by
  cases vs with
  | nil => exact List.forall_mem_nil _
  | cons v vs =>
    obtain ⟨accepted, rest⟩ := run_cons_iff.1 ran
    have first := absent_of_agrees accepted
    cases set : absent v
    · rw [set] at first
      obtain ⟨same, others⟩ := run_present first rest
      have value : write absent c v = v := by
        obtain ⟨-, unset⟩ | equal := accepted
        · rw [set] at unset
          contradiction
        · exact equal
      intro w member
      right
      obtain rfl | behind := List.mem_cons.mp member
      · rw [same, value]
      · rw [same, others w behind]
    · have unset : ∀ w ∈ v :: vs, absent w = true := fun w member => uniform v List.mem_cons_self w member set
      have kept : run absent (write absent c v) vs = some (write absent c v) :=
        run_of_agrees fun w member => Or.inl ⟨first.trans set, unset w (List.mem_cons_of_mem v member)⟩
      rw [rest] at kept
      intro w member
      left
      rw [Option.some.inj kept]
      exact ⟨first.trans set, unset w member⟩

/-- A register that was absent holds the first value that is present. -/
theorem value_of_run (unset : absent c = true) (ran : run absent c vs = some d) :
    d = (vs.find? fun v => !absent v).getD c := by
  induction vs with
  | nil => exact (Option.some.inj ran).symm
  | cons v vs ih =>
    obtain ⟨-, rest⟩ := run_cons_iff.1 ran
    cases set : absent v
    · have written : write absent c v = v := by
        rw [write, unset, set]
        rfl
      rw [written] at rest
      rw [List.find?_cons_of_pos (by simpa using set)]
      exact (run_present set rest).1
    · rw [write_absent set] at rest
      rw [List.find?_cons_of_neg (by simpa using set)]
      exact ih rest

/-- **Writing again.** What was accepted is accepted again without a change exactly when it
was uniform. -/
theorem again_iff (ran : run absent c vs = some d) : run absent d vs = some d ↔ Uniform absent vs := by
  constructor
  · intro again v first w second unset
    cases set : absent d
    · have same := (run_present set again).2 v first
      rw [same, set] at unset
      contradiction
    · exact all_absent again set w second
  · intro uniform
    exact run_of_agrees (agrees_of_uniform ran uniform)

end Laws

section Single

variable [BEq α] [LawfulBEq α] {z c v : α}

omit [DecidableEq α] in
/-- Where one value alone is absent, a register that agrees has the value. -/
theorem agrees_beq : Agrees (· == z) c v ↔ c = v := by
  constructor
  · rintro (⟨unset, other⟩ | same)
    · rw [eq_of_beq unset, eq_of_beq other]
    · exact same
  · exact Or.inr

theorem write_beq : write (· == z) c v = if c = z then v else c := by
  unfold write
  by_cases unset : c = z
  · by_cases other : v = z
    · simp [unset, other]
    · simp [unset, other]
  · simp [unset]

end Single

end WriteOnce
