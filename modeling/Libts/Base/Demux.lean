/-!
# Segments of an interleaved sequence

Items carry a key and may start a segment of that key. The segment that an item starts has
the later items of its key in it, up to the next that starts one. `segments` lists the
segments in the order of the items that start them.
-/

namespace Demux
set_option autoImplicit false

variable {α κ : Type} [DecidableEq κ] (key : α → κ) (start : α → Bool)

/-- The items of `k` in front of the next that starts a segment of `k`. -/
def followers (k : κ) (l : List α) : List α := (l.filter fun a => key a = k).takeWhile fun a => !start a

/-- The items that start a segment, each with the rest of its segment. -/
def segments : List α → List (α × List α)
  | [] => []
  | a :: l => if start a then (a, followers key start (key a) l) :: segments l else segments l

section Followers

variable {key start} {k : κ} {a : α} (l : List α)

@[simp] theorem followers_nil : followers key start k [] = [] := rfl

theorem followers_other (other : key a ≠ k) : followers key start k (a :: l) = followers key start k l := by
  simp [followers, other]

theorem followers_start (starts : start a = true) : followers key start (key a) (a :: l) = [] := by
  simp [followers, starts]

theorem followers_own (plain : start a = false) :
    followers key start (key a) (a :: l) = a :: followers key start (key a) l := by
  simp [followers, plain]

/-- Items that follow in a row. -/
theorem followers_append {as : List α} (own : ∀ a ∈ as, key a = k) (plain : ∀ a ∈ as, start a = false) :
    followers key start k (as ++ l) = as ++ followers key start k l := by
  induction as with
  | nil => rfl
  | cons a as ih =>
    have first := own a List.mem_cons_self
    subst first
    rw [List.cons_append, followers_own _ (plain a List.mem_cons_self), ih (fun b later => own b (List.mem_cons_of_mem a later))
      (fun b later => plain b (List.mem_cons_of_mem a later)), List.cons_append]

theorem followers_append_other {as : List α} (other : ∀ a ∈ as, key a ≠ k) :
    followers key start k (as ++ l) = followers key start k l := by
  induction as with
  | nil => rfl
  | cons a as ih =>
    rw [List.cons_append, followers_other _ (other a List.mem_cons_self),
      ih fun b later => other b (List.mem_cons_of_mem a later)]

/-- A start cuts off what comes behind. -/
theorem followers_append_start {as : List α} (started : ∃ a ∈ as, key a = k ∧ start a = true) :
    followers key start k (as ++ l) = followers key start k as := by
  induction as with
  | nil =>
    obtain ⟨a, member, -⟩ := started
    cases member
  | cons a as ih =>
    rw [List.cons_append]
    by_cases own : key a = k
    · subst own
      cases starts : start a with
      | true => rw [followers_start _ starts, followers_start _ starts]
      | false =>
        rw [followers_own _ starts, followers_own _ starts, ih]
        obtain ⟨b, member, same, first⟩ := started
        obtain rfl | later := List.mem_cons.mp member
        · rw [starts] at first
          cases first
        · exact ⟨b, later, same, first⟩
    · rw [followers_other _ own, followers_other _ own, ih]
      obtain ⟨b, member, same, first⟩ := started
      obtain rfl | later := List.mem_cons.mp member
      · exact absurd same own
      · exact ⟨b, later, same, first⟩

/-- Without a start the items behind follow too. -/
theorem followers_append_open {as : List α} (unstarted : ∀ a ∈ as, key a = k → start a = false) :
    followers key start k (as ++ l) = followers key start k as ++ followers key start k l := by
  induction as with
  | nil => rfl
  | cons a as ih =>
    obtain ⟨first, later⟩ := List.forall_mem_cons.mp unstarted
    rw [List.cons_append]
    by_cases own : key a = k
    · subst own
      rw [followers_own _ (first rfl), followers_own _ (first rfl), ih later, List.cons_append]
    · rw [followers_other _ own, followers_other _ own, ih later]

theorem followers_filter : followers key start k (l.filter fun a => key a = k) = followers key start k l := by
  simp [followers]

end Followers

section Segments

variable {key start}

theorem segments_start {a : α} (l : List α) (starts : start a = true) :
    segments key start (a :: l) = (a, followers key start (key a) l) :: segments key start l := if_pos starts

theorem segments_plain {a : α} (l : List α) (plain : start a = false) :
    segments key start (a :: l) = segments key start l := if_neg (by simp [plain])

/-- The segments that items of `l` start, in front of `m`. -/
def segmentsBefore (key : α → κ) (start : α → Bool) : List α → List α → List (α × List α)
  | [], _ => []
  | a :: l, m =>
    if start a then (a, followers key start (key a) (l ++ m)) :: segmentsBefore key start l m
    else segmentsBefore key start l m

theorem segments_before (l m : List α) :
    segments key start (l ++ m) = segmentsBefore key start l m ++ segments key start m := by
  induction l with
  | nil => rfl
  | cons a l ih =>
    rw [List.cons_append, segmentsBefore]
    cases starts : start a with
    | true => rw [segments_start _ starts, ih, if_pos rfl, List.cons_append]
    | false => rw [segments_plain _ starts, ih, if_neg (by decide)]

/-- **Segments in parts**: what is made of the segments of `l` alone is what is made of them in front of `m` exactly
when what follows in `m` into the last segment of a key does not count. -/
theorem map_segmentsBefore_iff {β : Type} {f : α × List α → β} {Idle : List α → Prop}
    (counts : ∀ a as bs, f (a, as ++ bs) = f (a, as) ↔ Idle bs) (l m : List α) :
    (segmentsBefore key start l m).map f = (segments key start l).map f ↔
      ∀ a ∈ l, start a = true → Idle (followers key start (key a) m) := by
  induction l with
  | nil => simp [segmentsBefore, segments]
  | cons a l ih =>
    rw [List.forall_mem_cons, segmentsBefore]
    cases starts : start a with
    | false =>
      rw [segments_plain _ starts, if_neg (by decide), ih]
      simp
    | true =>
      rw [segments_start _ starts, if_pos rfl, List.map_cons, List.map_cons, List.cons_eq_cons, ih]
      rw [show (true = true → Idle (followers key start (key a) m)) ↔ Idle (followers key start (key a) m) from
        ⟨fun given => given rfl, fun idle _ => idle⟩]
      by_cases started : ∃ b ∈ l, key b = key a ∧ start b = true
      · rw [followers_append_start m started, and_iff_right rfl]
        obtain ⟨b, member, same, first⟩ := started
        constructor
        · intro later
          have last := later b member first
          rw [same] at last
          exact ⟨last, later⟩
        · exact fun both => both.2
      · have unstarted : ∀ b ∈ l, key b = key a → start b = false := by
          intro b member same
          exact Bool.eq_false_iff.2 fun first => started ⟨b, member, same, first⟩
        rw [followers_append_open m unstarted, counts]

/-- A segment is a part of the sequence, in its order. -/
theorem sublist_of_mem_segments {l : List α} {g : α × List α} (member : g ∈ segments key start l) :
    (g.1 :: g.2).Sublist l := by
  induction l with
  | nil => cases member
  | cons a l ih =>
    have inner (k : κ) : (followers key start k l).Sublist l :=
      (List.takeWhile_sublist _).trans List.filter_sublist
    cases starts : start a with
    | true =>
      rw [segments_start l starts] at member
      obtain rfl | later := List.mem_cons.mp member
      · exact (inner _).cons_cons a
      · exact (ih later).cons a
    | false =>
      rw [segments_plain l starts] at member
      exact (ih member).cons a

theorem length_segments (l : List α) : (segments key start l).length = l.countP start := by
  induction l with
  | nil => rfl
  | cons a l ih =>
    cases starts : start a with
    | true => simp [segments_start l starts, ih, starts]
    | false => simp [segments_plain l starts, ih, starts]

/-- The segment of an item stands behind those of the items before it. -/
theorem getElem?_segments {l : List α} {a : α} {k : Nat} (there : l[k]? = some a) (starts : start a = true) :
    (segments key start l)[(l.take k).countP start]? = some (a, followers key start (key a) (l.drop (k + 1))) := by
  induction l generalizing k with
  | nil => cases there
  | cons b l ih =>
    cases k with
    | zero =>
      cases there
      rw [segments_start l starts]
      rfl
    | succ k =>
      have rest := ih there
      rw [List.take_succ_cons, List.drop_succ_cons, List.countP_cons]
      cases first : start b with
      | true =>
        rw [segments_start l first, if_pos rfl, List.getElem?_cons_succ, rest]
      | false =>
        rw [segments_plain l first, if_neg (by decide), Nat.add_zero, rest]

/-- Items that start nothing are in no segment of their own. -/
theorem segments_append {as : List α} (l : List α) (plain : ∀ a ∈ as, start a = false) :
    segments key start (as ++ l) = segments key start l := by
  induction as with
  | nil => rfl
  | cons a as ih =>
    rw [List.cons_append, segments_plain _ (plain a List.mem_cons_self),
      ih fun b later => plain b (List.mem_cons_of_mem a later)]

/-- The segments of one key are made of the items of that key. -/
theorem filter_segments (k : κ) (l : List α) :
    (segments key start l).filter (fun g => key g.1 = k) = segments key start (l.filter fun a => key a = k) := by
  induction l with
  | nil => rfl
  | cons a l ih =>
    by_cases own : key a = k
    · subst own
      rw [List.filter_cons_of_pos (by simp)]
      cases starts : start a with
      | true =>
        rw [segments_start l starts, segments_start _ starts, List.filter_cons_of_pos (by simp), ih, followers_filter]
      | false => rw [segments_plain l starts, segments_plain _ starts, ih]
    · rw [List.filter_cons_of_neg (by simpa using own), ← ih]
      cases starts : start a with
      | true => rw [segments_start l starts, List.filter_cons_of_neg (by simpa using own)]
      | false => rw [segments_plain l starts]

/-- Segments of a changed sequence whose keys and starts are as before. -/
theorem segments_map {β : Type} (f : β → α) (l : List β) :
    segments key start (l.map f) =
      (segments (fun b => key (f b)) (fun b => start (f b)) l).map fun g => (f g.1, g.2.map f) := by
  have taken : ∀ (k : κ) (l : List β), followers key start k (l.map f) =
      (followers (fun b => key (f b)) (fun b => start (f b)) k l).map f := by
    intro k l
    rw [followers, followers, List.filter_map, List.takeWhile_map]
    rfl
  induction l with
  | nil => rfl
  | cons b l ih =>
    rw [List.map_cons]
    cases starts : start (f b) with
    | true =>
      have own : segments (fun b => key (f b)) (fun b => start (f b)) (b :: l) =
          (b, followers (fun b => key (f b)) (fun b => start (f b)) (key (f b)) l) ::
            segments (fun b => key (f b)) (fun b => start (f b)) l := segments_start l starts
      rw [segments_start _ starts, own, taken, ih, List.map_cons]
    | false =>
      have own : segments (fun b => key (f b)) (fun b => start (f b)) (b :: l) =
          segments (fun b => key (f b)) (fun b => start (f b)) l := segments_plain l starts
      rw [segments_plain _ starts, own, ih]

end Segments

section Rows

/-- The items of a segment, all of one key and only the first of them starting one. -/
structure Whole (g : α × List α) : Prop where
  starts : start g.1 = true
  own : ∀ a ∈ g.2, key a = key g.1
  plain : ∀ a ∈ g.2, start a = false

variable {key start} {gs : List (α × List α)}

/-- In front of a row of whole segments none is open. -/
theorem followers_flatten (whole : ∀ g ∈ gs, Whole key start g) (k : κ) :
    followers key start k (gs.map fun g => g.1 :: g.2).flatten = [] := by
  induction gs with
  | nil => rfl
  | cons g gs ih =>
    have first := whole g List.mem_cons_self
    rw [List.map_cons, List.flatten_cons, List.cons_append]
    by_cases own : key g.1 = k
    · subst own
      exact followers_start _ first.starts
    · have other : ∀ a ∈ g.2, key a ≠ k := by
        intro a inside
        rw [first.own a inside]
        exact own
      rw [followers_other _ own, followers_append_other _ other]
      exact ih fun h later => whole h (List.mem_cons_of_mem g later)

/-- A row of whole segments. -/
theorem segments_flatten (whole : ∀ g ∈ gs, Whole key start g) :
    segments key start (gs.map fun g => g.1 :: g.2).flatten = gs := by
  induction gs with
  | nil => rfl
  | cons g gs ih =>
    have first := whole g List.mem_cons_self
    have rest : ∀ h ∈ gs, Whole key start h := fun h later => whole h (List.mem_cons_of_mem g later)
    rw [List.map_cons, List.flatten_cons, List.cons_append, segments_start _ first.starts,
      followers_append _ first.own first.plain, followers_flatten rest, segments_append _ first.plain, ih rest,
      List.append_nil]

end Rows

end Demux
