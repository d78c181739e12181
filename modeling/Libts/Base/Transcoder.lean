import Mathlib.Data.Option.Basic
import Mathlib.Logic.Function.Iterate

/-!
# Transcoders

A transcoder decodes a string and encodes what it got. What is decoded of an encoded value is the
value in a normal form, so after some runs a transcoder writes what it reads: as soon as the normal
forms of two runs in a row are encoded alike (`recode_settled`).
-/

namespace Transcoder
set_option autoImplicit false

variable {α β : Type}

/-- One run. -/
def recode (decode : β → Option α) (encode : α → Option β) (b : β) : Option β := (decode b).bind encode

/-- `n` runs, each on what the one before it wrote. -/
def recodes (decode : β → Option α) (encode : α → Option β) : Nat → β → Option β
  | 0, b => some b
  | n + 1, b => (recodes decode encode n b).bind (recode decode encode)

/-- The values of `Good` are decoded to their normal forms once they are encoded. -/
structure Restores (decode : β → Option α) (encode : α → Option β) (Good : α → Prop) (norm : α → α) : Prop where
  good : ∀ a, Good a → Good (norm a)
  decoded : ∀ a b, Good a → encode a = some b → decode b = some (norm a)

variable {decode : β → Option α} {encode : α → Option β} {Good : α → Prop} {norm : α → α}
variable (restores : Restores decode encode Good norm) {a : α} {b c : β} (given : Good a)
include restores given

theorem good_iterate (n : Nat) : Good (norm^[n] a) := by
  induction n with
  | zero => exact given
  | succ n ih =>
    rw [Function.iterate_succ_apply']
    exact restores.good _ ih

variable (read : decode b = some a)
include read

/-- What the last run wrote. -/
theorem encode_of_recodes {n : Nat} (ran : recodes decode encode (n + 1) b = some c) : encode (norm^[n] a) = some c := by
  induction n generalizing c with
  | zero =>
    rw [recodes, recodes, Option.bind_some, recode, read, Option.bind_some] at ran
    exact ran
  | succ n ih =>
    rw [recodes] at ran
    obtain ⟨before, wrote, last⟩ := Option.bind_eq_some_iff.mp ran
    rw [recode, restores.decoded _ _ (good_iterate restores given n) (ih wrote), Option.bind_some] at last
    rw [Function.iterate_succ_apply']
    exact last

/-- **A transcoder settles** when it encodes two normal forms in a row alike. -/
theorem recode_settled {n : Nat} (ran : recodes decode encode (n + 1) b = some c)
    (same : encode (norm^[n + 1] a) = encode (norm^[n] a)) : recode decode encode c = some c := by
  have wrote := encode_of_recodes restores given read ran
  rw [recode, restores.decoded _ _ (good_iterate restores given n) wrote, Option.bind_some]
  rw [Function.iterate_succ_apply'] at same
  rw [same, wrote]

end Transcoder
