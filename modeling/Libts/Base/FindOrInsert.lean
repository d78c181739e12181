import Mathlib.Data.List.Nodup

/-!
# Find-or-insert tables

A list of entries with a key each, searched from its front; an entry that is not there is
appended fresh. `slot` returns the table and the position of the entry, which is what a
program gets that then reads and writes the entry through a pointer; `update` is the whole
step. After an update the key has its entry changed and every other key is as before
(`find_update`), keys stay pairwise distinct (`nodup_update`) and entries keep their order
(`map_update`).
-/

namespace FindOrInsert
set_option autoImplicit false

variable {ε κ : Type} [DecidableEq κ] (key : ε → κ) (fresh : κ → ε)

/-- The first entry with key `k`. -/
def find (k : κ) (l : List ε) : Option ε := l.find? fun e => key e = k

/-- The entry the table holds for `k`, or would hold. -/
def entry (k : κ) (l : List ε) : ε := (find key k l).getD (fresh k)

/-- The table with an entry for `k`, and its position. -/
def slot (k : κ) (l : List ε) : List ε × Nat :=
  match l.findIdx? fun e => key e = k with
  | some i => (l, i)
  | none => (l ++ [fresh k], l.length)

/-- The table with the entry for `k` changed by `f`. -/
def update (k : κ) (f : ε → ε) (l : List ε) : List ε :=
  (slot key fresh k l).1.modify (slot key fresh k l).2 f

theorem find_cons (k : κ) (e : ε) (l : List ε) :
    find key k (e :: l) = if key e = k then some e else find key k l := by
  unfold find
  obtain same | other := eq_or_ne (key e) k
  · simp [same]
  · simp [other]

theorem slot_cons (k : κ) (e : ε) (l : List ε) :
    slot key fresh k (e :: l) =
      if key e = k then (e :: l, 0) else (e :: (slot key fresh k l).1, (slot key fresh k l).2 + 1) := by
  unfold slot
  rw [List.findIdx?_cons]
  obtain same | other := eq_or_ne (key e) k
  · simp [same]
  · cases found : l.findIdx? fun e => key e = k with
    | none => simp [other]
    | some i => simp [other]

/-- The position holds the entry for the key. -/
theorem getElem?_slot (k : κ) (l : List ε) :
    (slot key fresh k l).1[(slot key fresh k l).2]? = some (entry key fresh k l) := by
  induction l with
  | nil => rfl
  | cons e l ih =>
    unfold entry at ih ⊢
    rw [slot_cons, find_cons]
    obtain same | other := eq_or_ne (key e) k
    · simp [same]
    · simpa [other] using ih

theorem update_nil (k : κ) (f : ε → ε) : update key fresh k f [] = [f (fresh k)] := rfl

theorem update_cons (k : κ) (f : ε → ε) (e : ε) (l : List ε) :
    update key fresh k f (e :: l) = if key e = k then f e :: l else e :: update key fresh k f l := by
  unfold update
  rw [slot_cons]
  obtain same | other := eq_or_ne (key e) k
  · rw [if_pos same, if_pos same]
    rfl
  · rw [if_neg other, if_neg other]
    rfl

/-- A key that is not there. -/
theorem find_absent {k : κ} {l : List ε} (absent : k ∉ l.map key) : find key k l = none := by
  rw [find, List.find?_eq_none]
  intro e member own
  exact absent (List.mem_map.mpr ⟨e, member, of_decide_eq_true own⟩)

theorem entry_absent {k : κ} {l : List ε} (absent : k ∉ l.map key) : entry key fresh k l = fresh k := by
  rw [entry, find_absent key absent]
  rfl

/-- With distinct keys every entry is found under its key. -/
theorem find_own {e : ε} {l : List ε} (distinct : (l.map key).Nodup) (member : e ∈ l) : find key (key e) l = some e := by
  induction l with
  | nil => cases member
  | cons first l ih =>
    rw [List.map_cons, List.nodup_cons] at distinct
    rw [find_cons]
    obtain rfl | behind := List.mem_cons.mp member
    · rw [if_pos rfl]
    · have other : key first ≠ key e := by
        intro same
        rw [same] at distinct
        exact distinct.1 (List.mem_map_of_mem behind)
      rw [if_neg other]
      exact ih distinct.2 behind

/-- With distinct keys every entry is the one for its key. -/
theorem entry_own {e : ε} {l : List ε} (distinct : (l.map key).Nodup) (member : e ∈ l) :
    entry key fresh (key e) l = e := by
  rw [entry, find_own key distinct member]
  rfl

theorem update_absent {k : κ} (f : ε → ε) {l : List ε} (absent : k ∉ l.map key) :
    update key fresh k f l = l ++ [f (fresh k)] := by
  induction l with
  | nil => rfl
  | cons e l ih =>
    rw [List.map_cons, List.mem_cons, not_or] at absent
    rw [update_cons, if_neg (Ne.symm absent.1), ih absent.2]
    rfl

/-- An update that does not change the entry of a key that is there changes nothing. -/
theorem update_fixed {k : κ} {f : ε → ε} {l : List ε} (there : k ∈ l.map key)
    (fixed : f (entry key fresh k l) = entry key fresh k l) : update key fresh k f l = l := by
  induction l with
  | nil => cases there
  | cons e l ih =>
    rw [update_cons]
    unfold entry at ih fixed
    rw [find_cons] at fixed
    obtain own | other := eq_or_ne (key e) k
    · rw [if_pos own] at fixed
      rw [if_pos own]
      exact congrArg (· :: l) fixed
    · rw [if_neg other] at fixed
      rw [List.map_cons, List.mem_cons] at there
      rw [if_neg other, ih (there.resolve_left (Ne.symm other)) fixed]

/-- What holds of fresh entries and is kept by the change holds of the whole table. -/
theorem forall_update {k : κ} {f : ε → ε} {P : ε → Prop} (start : P (fresh k)) (step : ∀ e, P e → P (f e)) {l : List ε}
    (all : ∀ e ∈ l, P e) : ∀ e ∈ update key fresh k f l, P e := by
  induction l with
  | nil =>
    rw [update_nil]
    exact List.forall_mem_singleton.mpr (step _ start)
  | cons e l ih =>
    obtain ⟨first, rest⟩ := List.forall_mem_cons.mp all
    rw [update_cons]
    split
    · exact List.forall_mem_cons.mpr ⟨step e first, rest⟩
    · exact List.forall_mem_cons.mpr ⟨first, ih rest⟩

/-- Writing the changed entry back to its position is the update. -/
theorem set_slot (k : κ) (f : ε → ε) (l : List ε) :
    (slot key fresh k l).1.set (slot key fresh k l).2 (f (entry key fresh k l)) = update key fresh k f l := by
  have there := getElem?_slot key fresh k l
  obtain ⟨inside, same⟩ := List.getElem?_eq_some_iff.mp there
  rw [update, List.modify_eq_take_cons_drop inside, List.set_eq_take_append_cons_drop, if_pos inside, same]

/-- Only what the change does to the entry of the key counts. -/
theorem update_congr {k : κ} {f g : ε → ε} {l : List ε} (same : f (entry key fresh k l) = g (entry key fresh k l)) :
    update key fresh k f l = update key fresh k g l := by
  rw [← set_slot, same, set_slot]

/-- Allocating the slot alone is the update that changes nothing. -/
theorem slot_fst (k : κ) (l : List ε) : (slot key fresh k l).1 = update key fresh k id l := by
  unfold update
  rw [List.modify_id]

section Laws

variable {key fresh} {k : κ} {f : ε → ε}

/-- After an update the key has its changed entry and every other key is as before. -/
theorem find_update (lawful : ∀ k, key (fresh k) = k) (keeps : ∀ e, key (f e) = key e) (q : κ) (l : List ε) :
    find key q (update key fresh k f l) =
      if q = k then some (f (entry key fresh k l)) else find key q l := by
  induction l with
  | nil =>
    rw [update_nil, find_cons, keeps, lawful]
    obtain same | other := eq_or_ne q k
    · rw [if_pos same.symm, if_pos same]
      rfl
    · rw [if_neg (Ne.symm other), if_neg other]
  | cons e l ih =>
    unfold entry at ih ⊢
    rw [update_cons]
    obtain here | elsewhere := eq_or_ne (key e) k
    · rw [if_pos here, find_cons, find_cons, find_cons, keeps, here]
      obtain same | apart := eq_or_ne q k
      · simp [same]
      · rw [if_neg (Ne.symm apart), if_neg apart, if_neg (Ne.symm apart)]
    · rw [if_neg elsewhere, find_cons, find_cons, find_cons, ih, if_neg elsewhere]
      obtain same | differs := eq_or_ne q k
      · rw [if_pos same, if_pos same, same, if_neg elsewhere]
      · rw [if_neg differs, if_neg differs]

/-- The entry for a key has it. -/
theorem key_entry (lawful : ∀ k, key (fresh k) = k) (k : κ) (l : List ε) : key (entry key fresh k l) = k := by
  unfold entry
  cases found : find key k l with
  | none => exact lawful k
  | some e =>
    have own : decide (key e = k) = true := List.find?_some (p := fun e => decide (key e = k)) found
    exact of_decide_eq_true own

theorem entry_update (lawful : ∀ k, key (fresh k) = k) (keeps : ∀ e, key (f e) = key e) (q : κ) (l : List ε) :
    entry key fresh q (update key fresh k f l) =
      if q = k then f (entry key fresh k l) else entry key fresh q l := by
  rw [entry, find_update lawful keeps]
  obtain same | other := eq_or_ne q k
  · rw [if_pos same, if_pos same]
    rfl
  · rw [if_neg other, if_neg other]
    rfl

/-- The keys of the table after an update. -/
theorem map_update (lawful : ∀ k, key (fresh k) = k) (keeps : ∀ e, key (f e) = key e) (l : List ε) :
    (update key fresh k f l).map key = if k ∈ l.map key then l.map key else l.map key ++ [k] := by
  induction l with
  | nil =>
    rw [update_nil]
    simp [keeps, lawful]
  | cons e l ih =>
    rw [update_cons]
    obtain here | elsewhere := eq_or_ne (key e) k
    · simp [here, keeps]
    · have apart : ¬ k = key e := fun same => elsewhere same.symm
      rw [if_neg elsewhere, List.map_cons, ih, List.map_cons]
      by_cases later : k ∈ l.map key
      · rw [if_pos later, if_pos (List.mem_cons_of_mem _ later)]
      · rw [if_neg later, if_neg (by simp only [List.mem_cons, not_or]; exact ⟨apart, later⟩)]
        rfl

theorem mem_map_update (lawful : ∀ k, key (fresh k) = k) (keeps : ∀ e, key (f e) = key e) (q : κ) (l : List ε) :
    q ∈ (update key fresh k f l).map key ↔ q ∈ l.map key ∨ q = k := by
  rw [map_update lawful keeps]
  split
  · rename_i there
    exact ⟨Or.inl, fun found => found.elim id fun same => same ▸ there⟩
  · rw [List.mem_append, List.mem_singleton]

/-- Keys stay pairwise distinct. -/
theorem nodup_update (lawful : ∀ k, key (fresh k) = k) (keeps : ∀ e, key (f e) = key e) {l : List ε}
    (distinct : (l.map key).Nodup) : ((update key fresh k f l).map key).Nodup := by
  rw [map_update lawful keeps]
  split
  · exact distinct
  · rename_i absent
    rw [List.nodup_append]
    refine ⟨distinct, List.nodup_singleton _, ?_⟩
    intro a member b single same
    rw [List.mem_singleton] at single
    exact absent (single ▸ same ▸ member)

/-- A change of the entries that leaves those for new keys alone. -/
theorem entry_map {g : ε → ε} (keeps : ∀ e, key (g e) = key e) {l : List ε}
    (new : k ∉ l.map key → g (fresh k) = fresh k) : entry key fresh k (l.map g) = g (entry key fresh k l) := by
  by_cases there : k ∈ l.map key
  · have found : (find key k l).isSome := by
      obtain ⟨e, member, own⟩ := List.mem_map.mp there
      exact List.find?_isSome.mpr ⟨e, member, decide_eq_true own⟩
    obtain ⟨e, first⟩ := Option.isSome_iff_exists.mp found
    have same : (fun e => decide (key e = k)) ∘ g = fun e => decide (key e = k) := by
      funext e
      rw [Function.comp_apply, keeps]
    rw [entry, entry, first, find, List.find?_map, same]
    rw [find] at first
    rw [first]
    rfl
  · have absent : k ∉ (l.map g).map key := by
      rw [List.map_map, show key ∘ g = key from funext keeps]
      exact there
    rw [entry_absent key fresh there, entry_absent key fresh absent, new there]

theorem update_map {g : ε → ε} (keeps : ∀ e, key (g e) = key e) (unseen : ∀ e, f (g e) = g (f e)) {l : List ε}
    (new : k ∉ l.map key → g (fresh k) = fresh k) :
    update key fresh k f (l.map g) = (update key fresh k f l).map g := by
  induction l with
  | nil =>
    rw [List.map_nil, update_nil, List.map_singleton, ← unseen, new List.not_mem_nil]
  | cons e l ih =>
    rw [List.map_cons, update_cons, update_cons, keeps]
    by_cases here : key e = k
    · rw [if_pos here, if_pos here, List.map_cons, unseen]
    · have later : k ∉ l.map key → g (fresh k) = fresh k := by
        intro absent
        apply new
        rw [List.map_cons, List.mem_cons, not_or]
        exact ⟨fun same => here same.symm, absent⟩
      rw [if_neg here, if_neg here, List.map_cons, ih later]

/-- With distinct keys erasing the entry for one leaves all others. -/
theorem eraseP_eq_filter {l : List ε} (distinct : (l.map key).Nodup) :
    l.eraseP (fun e => key e = k) = l.filter fun e => key e ≠ k := by
  induction l with
  | nil => rfl
  | cons e l ih =>
    rw [List.map_cons, List.nodup_cons] at distinct
    obtain own | other := eq_or_ne (key e) k
    · have absent : ∀ d ∈ l, decide (key d ≠ k) = true := by
        intro d member
        refine decide_eq_true fun same => distinct.1 ?_
        rw [own, ← same]
        exact List.mem_map_of_mem member
      rw [List.eraseP_cons_of_pos (by simpa using own), List.filter_cons_of_neg (by simpa using own),
        List.filter_eq_self.mpr absent]
    · rw [List.eraseP_cons_of_neg (by simpa using other), List.filter_cons_of_pos (by simpa using other), ih distinct.2]

end Laws

/-! ## Growing tables -/

section Grows

variable (R : ε → ε → Prop)

/-- Every entry of `l` is in `m` at its place, changed along `R`. -/
def Grows (l m : List ε) : Prop := ∀ (i : Nat) (e : ε), l[i]? = some e → ∃ f, m[i]? = some f ∧ R e f

variable {R} {l m n : List ε}

theorem grows_refl (reflexive : ∀ e, R e e) (l : List ε) : Grows R l l := fun _ e there => ⟨e, there, reflexive e⟩

theorem Grows.trans (transitive : ∀ a b c, R a b → R b c → R a c) (first : Grows R l m) (second : Grows R m n) :
    Grows R l n := by
  intro i e there
  obtain ⟨f, there', changed⟩ := first i e there
  obtain ⟨g, there'', changed'⟩ := second i f there'
  exact ⟨g, there'', transitive e f g changed changed'⟩

theorem grows_map {f : ε → ε} (changes : ∀ e, R e (f e)) (l : List ε) : Grows R l (l.map f) := by
  intro i e there
  refine ⟨f e, ?_, changes e⟩
  rw [List.getElem?_map, there]
  rfl

/-- An update changes one entry or appends one. -/
theorem grows_update {key : ε → κ} {fresh : κ → ε} (reflexive : ∀ e, R e e) {f : ε → ε} (changes : ∀ e, R e (f e))
    (k : κ) (l : List ε) : Grows R l (update key fresh k f l) := by
  induction l with
  | nil =>
    intro i e there
    cases there
  | cons first l ih =>
    rw [update_cons]
    intro i e there
    cases i with
    | zero =>
      cases there
      split
      · exact ⟨_, rfl, changes first⟩
      · exact ⟨_, rfl, reflexive first⟩
    | succ i =>
      split
      · exact ⟨e, there, reflexive e⟩
      · exact ih i e there

end Grows

end FindOrInsert
