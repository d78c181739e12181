import Mathlib.Data.List.Basic

/-!
# Files read through a descriptor

Each `read` takes cells off the front of what is left of a file, no more than the block has room
for, or fails, as its reply says. A reply gives one cell at least, so only at the end of the file
nothing is read. How a run of reads ends depends on the replies and on the size of the file alone
(`ending`): without a failure, one reply more than there are cells is enough to get to the end
(`ending_eq_reached`).
-/

namespace PosixFile
set_option autoImplicit false

/-- What a call to `read` meets: a failure, or at most `count` cells. -/
inductive Reply
  | fails
  | gives (count : Nat) (positive : 0 < count)
deriving Repr, DecidableEq

/-- How a run of reads ends. -/
inductive Ending
  | reached
  | failed
deriving Repr, DecidableEq

variable {α : Type}

/-- `read` into a block: its result, the cells, and what is left of the file. -/
def readBlock (block : Nat) (left : List α) : Reply → Int × List α × List α
  | .fails => (-1, [], left)
  | .gives count _ =>
    let cells := left.take (min count block)
    (cells.length, cells, left.drop (min count block))

/-- The end of a run over `size` cells; `none` is a run that goes on when the replies end. -/
def ending (block : Nat) : List Reply → Nat → Option Ending
  | [], _ => none
  | .fails :: _, _ => some .failed
  | .gives count _ :: replies, size =>
    if size = 0 then some .reached else ending block replies (size - min count block)

/-- How many cells are asked for before the first failure. -/
def fetched (block : Nat) : List Reply → Nat
  | [] => 0
  | .fails :: _ => 0
  | .gives count _ :: replies => min count block + fetched block replies

section Reads

variable {block : Nat} {replies : List Reply} {size : Nat}

@[simp] theorem ending_fails (block size : Nat) (replies : List Reply) :
    ending block (.fails :: replies) size = some .failed := rfl

@[simp] theorem fetched_fails (block : Nat) (replies : List Reply) : fetched block (.fails :: replies) = 0 := rfl

@[simp] theorem fetched_gives (block count : Nat) (positive : 0 < count) (replies : List Reply) :
    fetched block (.gives count positive :: replies) = min count block + fetched block replies := rfl

/-- A block with room reads nothing at the end of the file and nowhere else. -/
theorem readBlock_eq_zero_iff (room : 0 < block) {count : Nat} (positive : 0 < count) (left : List α) :
    (readBlock block left (.gives count positive)).1 = 0 ↔ left = [] := by
  simp only [readBlock, List.length_take, ← List.length_eq_zero_iff]
  omega

/-- With room in the block, replies without a failure get to the end of any file that is not longer
than they are many. -/
theorem ending_eq_reached (room : 0 < block) (working : .fails ∉ replies) (enough : size < replies.length) :
    ending block replies size = some .reached := by
  induction replies generalizing size with
  | nil => cases enough
  | cons reply replies ih =>
    cases reply with
    | fails => exact absurd List.mem_cons_self working
    | gives count positive =>
      rw [ending]
      split
      · rfl
      · apply ih (fun later => working (List.mem_cons_of_mem _ later))
        rw [List.length_cons] at enough
        omega

end Reads

end PosixFile
