import Mathlib.Data.List.Basic

/-!
# Files written through a descriptor

A file is a string of cells, or it does not exist. Opening one with `O_CREAT | O_WRONLY` keeps
what it holds and puts the descriptor at its front. Each `write` puts a prefix of its argument
at the offset or fails, as its answer says: the answers are the environment's, one for each
call. Writes of one string after another are a write of both (`put_put`), so a whole run of
them leaves the front of the string over what the file held (`content_put_openCreate`).
-/

namespace PosixFile
set_option autoImplicit false

variable {α : Type}

/-- What a call to `write` meets: a failure, or room for at most `count` cells. -/
inductive Answer
  | fails
  | takes (count : Nat)
deriving Repr, DecidableEq

/-- How many cells the answers take before the first failure. -/
def granted : List Answer → Nat
  | [] => 0
  | .fails :: _ => 0
  | .takes count :: answers => count + granted answers

/-- The answers end before `size` cells are taken and without a failure. -/
def Unfinished (answers : List Answer) (size : Nat) : Prop := granted answers < size ∧ Answer.fails ∉ answers

instance (answers : List Answer) (size : Nat) : Decidable (Unfinished answers size) := instDecidableAnd

/-- A descriptor open for writing. -/
@[ext] structure Descriptor (α : Type) where
  content : List α
  offset : Nat
  inside : offset ≤ content.length

/-- A successful `open` with `O_CREAT | O_WRONLY`: no `O_TRUNC`. -/
def openCreate (file : Option (List α)) : Descriptor α := ⟨file.getD [], 0, Nat.zero_le _⟩

/-- `cells` over what stands at the offset. -/
def Descriptor.put (d : Descriptor α) (cells : List α) : Descriptor α where
  content := d.content.take d.offset ++ cells ++ d.content.drop (d.offset + cells.length)
  offset := d.offset + cells.length
  inside := by
    have inside := d.inside
    simp only [List.length_append, List.length_take, List.length_drop]
    omega

/-- `write`. -/
def Descriptor.write (d : Descriptor α) (cells : List α) : Answer → Int × Descriptor α
  | .fails => (-1, d)
  | .takes count => ((cells.take count).length, d.put (cells.take count))

/-! ## Answers -/

@[simp] theorem granted_nil : granted [] = 0 := rfl

@[simp] theorem granted_fails (answers : List Answer) : granted (.fails :: answers) = 0 := rfl

@[simp] theorem granted_takes (count : Nat) (answers : List Answer) :
    granted (.takes count :: answers) = count + granted answers := rfl

/-- After an answer that is no failure, the others have to do for what is left. -/
theorem unfinished_takes {count size : Nat} {answers : List Answer} :
    Unfinished (.takes count :: answers) size ↔ Unfinished answers (size - count) := by
  simp only [Unfinished, granted_takes, List.mem_cons, reduceCtorEq, false_or]
  constructor
  · rintro ⟨few, none⟩
    exact ⟨by omega, none⟩
  · rintro ⟨few, none⟩
    exact ⟨by omega, none⟩

/-! ## Descriptors -/

section Descriptors

variable (d : Descriptor α) (as bs : List α)

@[simp] theorem put_nil : d.put [] = d := by
  ext1
  · simp [Descriptor.put]
  · rfl

theorem put_put : (d.put as).put bs = d.put (as ++ bs) := by
  have inside := d.inside
  have front : (d.content.take d.offset ++ as).length = d.offset + as.length := by
    rw [List.length_append, List.length_take, Nat.min_eq_left inside]
  ext1
  · simp only [Descriptor.put]
    rw [List.take_left' front, ← front, List.drop_append, List.drop_of_length_le (by omega), List.nil_append, front,
      List.drop_drop, List.length_append]
    simp only [List.append_assoc]
    congr 4
    omega
  · simp only [Descriptor.put, List.length_append]
    omega

/-- What stands behind the written cells is what stood there before. -/
theorem content_put_openCreate (file : Option (List α)) :
    ((openCreate file).put as).content = as ++ (file.getD []).drop as.length := by
  simp [Descriptor.put, openCreate]

end Descriptors

/-- The front of a string over another is the whole string exactly when the two agree behind it. -/
theorem take_append_drop_eq_iff {as bs : List α} {k : Nat} :
    as.take k ++ bs.drop k = as ↔ bs.drop k = as.drop k := by
  constructor
  · intro whole
    have fronts : as.take k ++ bs.drop k = as.take k ++ as.drop k := by
      rw [whole, List.take_append_drop]
    exact List.append_cancel_left fronts
  · intro same
    rw [same, List.take_append_drop]

end PosixFile
