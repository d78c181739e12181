import Mathlib.Data.List.Basic
import Mathlib.Order.Lattice

/-!
# Greedy selection from queues

As long as some queue has an eligible item at its front, one such item is taken; which one
is open. `Run queues out` is a run to the end, with the taken items in `out`, each next to
the number of its queue. An item that is not eligible blocks its queue: what is taken from
a queue is its longest eligible front part (`Run.taken_eq`).

`LeastRun key` is a run that takes an item with the least key, from the first queue that
has one. Over queues in the order of their keys it is a stable merge (`LeastRun.pairwise`).
-/

namespace Selection
set_option autoImplicit false

variable {α : Type} (eligible : α → Bool)

inductive Run : List (List α) → List (Nat × α) → Prop where
  | stop {queues : List (List α)} (blocked : ∀ q ∈ queues, ∀ a ∈ q.head?, eligible a = false) : Run queues []
  | take {queues : List (List α)} {out : List (Nat × α)} {i : Nat} {a : α} {rest : List α}
      (front : queues[i]? = some (a :: rest)) (chosen : eligible a = true) (later : Run (queues.set i rest) out) :
      Run queues ((i, a) :: out)

/-- The items of `out` from queue `i`. -/
def taken (i : Nat) (out : List (Nat × α)) : List α := (out.filter fun t => t.1 = i).map Prod.snd

/-- The queue with number `i`; there is nothing in one that does not exist. -/
def queue (queues : List (List α)) (i : Nat) : List α := queues[i]?.getD []

section Laws

variable {eligible} {queues : List (List α)} {out : List (Nat × α)} {i : Nat} {a : α}

theorem taken_own (out : List (Nat × α)) : taken i ((i, a) :: out) = a :: taken i out := by simp [taken]

theorem taken_other {k : Nat} (other : i ≠ k) (out : List (Nat × α)) : taken k ((i, a) :: out) = taken k out := by
  simp [taken, other]

theorem takeWhile_blocked {q : List α} (blocked : ∀ a ∈ q.head?, eligible a = false) : q.takeWhile eligible = [] := by
  cases q with
  | nil => rfl
  | cons a q =>
    have first : eligible a = false := blocked a rfl
    rw [List.takeWhile_cons_of_neg (by rw [first]; decide)]

/-- **What a run takes from a queue** is its longest front part of eligible items. -/
theorem Run.taken_eq (run : Run eligible queues out) (k : Nat) : taken k out = (queue queues k).takeWhile eligible := by
  induction run with
  | @stop queues blocked =>
    rw [taken, List.filter_nil, List.map_nil, queue]
    cases there : queues[k]? with
    | none => rfl
    | some q => exact (takeWhile_blocked (blocked q (List.mem_of_getElem? there))).symm
  | @take queues out i a rest front chosen later ih =>
    obtain ⟨inside, -⟩ := List.getElem?_eq_some_iff.mp front
    obtain rfl | other := eq_or_ne i k
    · rw [taken_own, ih, queue, queue, front, List.getElem?_set_self inside, Option.getD_some, Option.getD_some,
        List.takeWhile_cons_of_pos chosen]
    · rw [taken_other other, ih, queue, queue, List.getElem?_set_ne other]

/-- What is left to a run is in the part of its queue that it takes. -/
theorem Run.mem_takeWhile (run : Run eligible queues out) (taking : (i, a) ∈ out) :
    a ∈ (queue queues i).takeWhile eligible := by
  rw [← run.taken_eq, taken, List.mem_map]
  exact ⟨(i, a), List.mem_filter.mpr ⟨taking, decide_eq_true rfl⟩, rfl⟩

/-- An item was taken from the queue it names. -/
theorem Run.mem (run : Run eligible queues out) (taking : (i, a) ∈ out) : a ∈ queue queues i := by
  exact List.takeWhile_subset eligible (run.mem_takeWhile taking)

end Laws

/-! ## The least item first -/

section Least

variable {κ : Type} [LinearOrder κ] (key : α → κ)

/-- `a`, of queue `i`, is a first least item at the front of the queues. -/
def Least (queues : List (List α)) (i : Nat) (a : α) : Prop :=
  ∀ (j : Nat) (b : α) (rest : List α), queues[j]? = some (b :: rest) → eligible b = true →
    key a ≤ key b ∧ (j < i → key a < key b)

inductive LeastRun : List (List α) → List (Nat × α) → Prop where
  | stop {queues : List (List α)} (blocked : ∀ q ∈ queues, ∀ a ∈ q.head?, eligible a = false) : LeastRun queues []
  | take {queues : List (List α)} {out : List (Nat × α)} {i : Nat} {a : α} {rest : List α}
      (front : queues[i]? = some (a :: rest)) (chosen : eligible a = true) (least : Least eligible key queues i a)
      (later : LeastRun (queues.set i rest) out) : LeastRun queues ((i, a) :: out)

/-- The order of a stable merge: by key, and equal keys by the number of the queue. -/
def Before (s t : Nat × α) : Prop := key s.2 < key t.2 ∨ key s.2 = key t.2 ∧ s.1 ≤ t.1

variable {eligible key} {queues : List (List α)} {out : List (Nat × α)}

theorem LeastRun.run (least : LeastRun eligible key queues out) : Run eligible queues out := by
  induction least with
  | stop blocked => exact Run.stop blocked
  | take front chosen _ _ ih => exact Run.take front chosen ih

/-- A first least item is before everything that can still be taken. -/
theorem Least.before {i : Nat} {a : α} {rest : List α} (front : queues[i]? = some (a :: rest))
    (least : Least eligible key queues i a)
    (sorted : ∀ q ∈ queues, q.Pairwise fun b c => key b ≤ key c) {j : Nat} {b : α}
    (member : b ∈ (queue (queues.set i rest) j).takeWhile eligible) : Before key (i, a) (j, b) := by
  obtain ⟨inside, -⟩ := List.getElem?_eq_some_iff.mp front
  obtain rfl | other := eq_or_ne i j
  · rw [queue, List.getElem?_set_self inside, Option.getD_some] at member
    have behind := List.rel_of_pairwise_cons (sorted _ (List.mem_of_getElem? front)) (List.takeWhile_subset _ member)
    obtain less | equal := lt_or_eq_of_le behind
    · exact Or.inl less
    · exact Or.inr ⟨equal, Nat.le_refl i⟩
  · rw [queue, List.getElem?_set_ne other] at member
    cases there : queues[j]? with
    | none =>
      rw [there] at member
      cases member
    | some q =>
      rw [there, Option.getD_some] at member
      cases q with
      | nil => cases member
      | cons c q =>
        -- the front of the queue is eligible, since something behind it is taken
        have eligible' : eligible c = true := by
          by_contra blocked
          rw [List.takeWhile_cons_of_neg blocked] at member
          cases member
        obtain ⟨most, strict⟩ := least j c q there eligible'
        have ordered := sorted _ (List.mem_of_getElem? there)
        have behind : key c ≤ key b := by
          obtain rfl | tail := List.mem_cons.mp (List.takeWhile_subset _ member)
          · exact le_refl _
          · exact List.rel_of_pairwise_cons ordered tail
        obtain less | equal := lt_or_eq_of_le (le_trans most behind)
        · exact Or.inl less
        · refine Or.inr ⟨equal, ?_⟩
          by_contra earlier
          have less : key a < key b := lt_of_lt_of_le (strict (by omega)) behind
          exact absurd equal (ne_of_lt less)

/-- **A stable merge.** Over sorted queues the items come out sorted, and items with equal
keys in the order of their queues. -/
theorem LeastRun.pairwise (run : LeastRun eligible key queues out)
    (sorted : ∀ q ∈ queues, q.Pairwise fun a b => key a ≤ key b) : out.Pairwise (Before key) := by
  induction run with
  | stop _ => exact List.Pairwise.nil
  | @take queues out i a rest front _ least later ih =>
    refine List.Pairwise.cons ?_ (ih ?_)
    · rintro ⟨j, b⟩ member
      exact least.before front sorted (later.run.mem_takeWhile member)
    · intro q member
      obtain old | new := List.mem_or_eq_of_mem_set member
      · exact sorted q old
      · subst new
        exact (List.pairwise_cons.mp (sorted _ (List.mem_of_getElem? front))).2

/-- There is only one first least item. -/
theorem Least.unique {i j : Nat} {a b : α} {rest rest' : List α} (least : Least eligible key queues i a)
    (least' : Least eligible key queues j b) (front : queues[i]? = some (a :: rest))
    (front' : queues[j]? = some (b :: rest')) (chosen : eligible a = true) (chosen' : eligible b = true) :
    i = j ∧ a = b ∧ rest = rest' := by
  obtain ⟨most, strict⟩ := least j b rest' front' chosen'
  obtain ⟨most', strict'⟩ := least' i a rest front chosen
  have same : i = j := by
    rcases Nat.lt_trichotomy i j with before | same | behind
    · exact absurd (strict' before) (not_lt_of_ge most)
    · exact same
    · exact absurd (strict behind) (not_lt_of_ge most')
  subst same
  rw [front] at front'
  cases front'
  exact ⟨rfl, rfl, rfl⟩

/-- **The order is settled**: two runs over the same queues take the same. -/
theorem LeastRun.unique {out' : List (Nat × α)} (run : LeastRun eligible key queues out)
    (run' : LeastRun eligible key queues out') : out = out' := by
  induction run generalizing out' with
  | stop blocked =>
    cases run' with
    | stop _ => rfl
    | take front chosen _ _ =>
      have stuck := blocked _ (List.mem_of_getElem? front) _ rfl
      rw [chosen] at stuck
      cases stuck
  | take front chosen least later ih =>
    cases run' with
    | stop blocked =>
      have stuck := blocked _ (List.mem_of_getElem? front) _ rfl
      rw [chosen] at stuck
      cases stuck
    | take front' chosen' least' later' =>
      obtain ⟨rfl, rfl, rfl⟩ := least.unique least' front front' chosen chosen'
      rw [ih later']

/-- What a run does not get to does not matter to it. -/
theorem LeastRun.takeWhile (run : LeastRun eligible key queues out) :
    LeastRun eligible key (queues.map (List.takeWhile eligible)) out := by
  induction run with
  | stop blocked =>
    apply LeastRun.stop
    intro q member a first
    obtain ⟨q, there, rfl⟩ := List.mem_map.mp member
    rw [takeWhile_blocked (blocked q there)] at first
    cases first
  | @take queues out i a rest front chosen least later ih =>
    have front' : (queues.map (List.takeWhile eligible))[i]? = some (a :: rest.takeWhile eligible) := by
      rw [List.getElem?_map, front, Option.map_some, List.takeWhile_cons_of_pos chosen]
    rw [List.map_set] at ih
    refine LeastRun.take front' chosen ?_ ih
    intro j b behind there eligible'
    rw [List.getElem?_map, Option.map_eq_some_iff] at there
    obtain ⟨q, at_j, taken⟩ := there
    cases q with
    | nil => cases taken
    | cons c q =>
      by_cases first : eligible c = true
      · rw [List.takeWhile_cons_of_pos first] at taken
        cases taken
        exact least j b q at_j eligible'
      · rw [List.takeWhile_cons_of_neg first] at taken
        cases taken

/-- A run over queues of changed items that are taken for the same. -/
theorem LeastRun.map {β : Type} {f : β → α} {queues : List (List β)} {out : List (Nat × β)}
    (run : LeastRun (fun b => eligible (f b)) (fun b => key (f b)) queues out) :
    LeastRun eligible key (queues.map (List.map f)) (out.map fun t => (t.1, f t.2)) := by
  induction run with
  | stop blocked =>
    apply LeastRun.stop
    intro q member a first
    obtain ⟨q, there, rfl⟩ := List.mem_map.mp member
    rw [List.head?_map] at first
    obtain ⟨b, front, rfl⟩ := Option.map_eq_some_iff.mp first
    exact blocked q there b front
  | @take queues out i a rest front chosen least later ih =>
    have front' : (queues.map (List.map f))[i]? = some (f a :: rest.map f) := by
      rw [List.getElem?_map, front]
      rfl
    rw [List.map_set] at ih
    refine LeastRun.take front' chosen ?_ ih
    intro j b behind there eligible'
    rw [List.getElem?_map, Option.map_eq_some_iff] at there
    obtain ⟨q, at_j, changed⟩ := there
    cases q with
    | nil => cases changed
    | cons c q =>
      cases changed
      exact least j c q at_j eligible'

end Least

end Selection
