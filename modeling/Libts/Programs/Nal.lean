import Mathlib.Data.List.GetD
import Libts.Base.Search
import Libts.Base.Stuffing
import Libts.Packet.Load

/-!
# NAL units

`h264_debug` cuts its input into NAL units and takes the stuffed bytes out of each, in place. In place
or not it is the receiver of a stuffed text (`nalUnitDecode_eq`), so of a stream of units that were
stuffed it prints what was put into them (`nalStreamDebug_stream`). A unit without bytes is read
behind its end: the program gets through exactly the inputs in which something stands behind every
start code (`nalStreamDebug_eq_none_iff`).
-/

namespace Libts
set_option autoImplicit false

namespace Nal

open Stuffing

/-- The pattern of `nal_unit_decode`. -/
def stuffing : List UInt8 := [0x00, 0x00, 0x03]

/-- The pattern of `nal_stream_debug`. -/
def startCode : List UInt8 := [0x00, 0x00, 0x01]

theorem find_lt {pat : List UInt8} (filled : pat ≠ []) {l : List UInt8} {i : Nat} (found : Search.find pat l = some i) :
    i + pat.length ≤ l.length := by
  obtain ⟨before, behind, rfl, rfl, -⟩ := Search.exists_of_find filled found
  simp only [List.length_append]
  omega

/-- `nal_unit_decode` from `b` on: the bytes up to `e`, as it leaves them. -/
def nalUnitDecode (data : List UInt8) (b : Nat) : List UInt8 :=
  match found : Search.find stuffing (data.drop b) with
  | none => data
  | some i =>
    have shorter : (data.eraseIdx (b + i + 2)).length < data.length := by
      have inside := find_lt (by decide) found
      rw [List.length_drop, show stuffing.length = 3 from rfl] at inside
      rw [List.length_eraseIdx_of_lt (by omega)]
      omega
    nalUnitDecode (data.eraseIdx (b + i + 2)) (b + i + 2)
termination_by data.length

/-- `desc_type`. -/
def descType : List String :=
  ["Unspecified", "Coded slice of a non-IDR picture", "Coded slice data partition A", "Coded slice data partition B",
    "Coded slice data partition C", "Coded slice of an IDR picture", "Supplemental enhancement information (SEI)",
    "Sequence parameter set", "Picture parameter set", "Access unit delimiter", "End of sequence", "End of stream",
    "Filler data", "Sequence parameter set extension", "Prefix NAL unit", "Subset sequence parameter set", "Reserved",
    "Reserved", "Reserved", "Coded slice of an auxiliary coded picture without partitionin", "Coded slice extension",
    "Coded slice extension for depth view components", "Reserved", "Reserved"]

/-- What is printed of a unit. -/
structure NalDebug where
  desc : String
  ref : UInt8
  type : UInt8
  data : List UInt8
deriving Repr, DecidableEq

/-- The line of a unit, from its first byte, and its other bytes. -/
def describe (first : UInt8) (data : List UInt8) : NalDebug :=
  let type := first &&& 0x1f
  { desc := if type ≥ 24 then "Unspecified" else descType.getD type.toNat ""
    ref := (first >>> 5) &&& 0x03
    type := type
    data := data }

/-- `nal_unit_debug`. Of a unit without bytes the first is read behind its end, and its size wraps: `none`. -/
def nalUnitDebug : List UInt8 → Option NalDebug
  | [] => none
  | first :: data => some (describe first (nalUnitDecode data 0))

/-- Where the unit at `begin` ends in `data`. -/
def unitEnd (data : List UInt8) (begin : Nat) : Nat :=
  match Search.find startCode (data.drop begin) with
  | none => data.length
  | some j => if data.getD (begin + j - 1) 0 = 0x00 then begin + j - 1 else begin + j

theorem drop_unitEnd_lt {data : List UInt8} {i : Nat} (found : Search.find startCode data = some i) :
    (data.drop (unitEnd data (i + 3))).length < data.length := by
  have inside := find_lt (by decide) found
  rw [show startCode.length = 3 from rfl] at inside
  rw [List.length_drop, unitEnd]
  split
  · omega
  · split <;> omega

/-- `nal_stream_debug` on the bytes from `begin` on. A unit is decoded in place, which moves bytes of that unit only. -/
def nalStreamDebug (data : List UInt8) : Option (List NalDebug) :=
  match found : Search.find startCode data with
  | none => some []
  | some i =>
    let begin := i + 3
    let next := unitEnd data begin
    (nalUnitDebug ((data.take next).drop begin)).bind fun unit =>
      (nalStreamDebug (data.drop next)).map (unit :: ·)
termination_by data.length
decreasing_by exact drop_unitEnd_lt found

/-- `main`, with what the reads return: the exit status and what is printed. -/
def h264Debug (replies : List PosixFile.Reply) (input : List UInt8) : Option (Nat × List NalDebug) :=
  (TsPackets.loadLoop replies input []).bind fun (n, buffer) =>
    if n = -1 then some (1, []) else (nalStreamDebug buffer).map fun units => (0, units)

/-! ## One unit -/

/-- The bytes in place of a unit, as a stuffed text. -/
abbrev unescape : List UInt8 → List UInt8 := unstuff 2 0x00 0x03 0

theorem nalUnitDecode_none {data : List UInt8} {b : Nat} (none : Search.find stuffing (data.drop b) = none) :
    nalUnitDecode data b = data := by
  rw [nalUnitDecode]
  split
  · rfl
  · rename_i other
    rw [none] at other
    cases other

theorem nalUnitDecode_some {data : List UInt8} {b i : Nat} (found : Search.find stuffing (data.drop b) = some i) :
    nalUnitDecode data b = nalUnitDecode (data.eraseIdx (b + i + 2)) (b + i + 2) := by
  rw [nalUnitDecode]
  split
  · rename_i other
    rw [found] at other
    cases other
  · rename_i j other
    rw [found] at other
    cases other
    rfl

/-- What is behind `b` is unstuffed, what is in front of it stays. -/
theorem nalUnitDecode_append (front rest : List UInt8) : nalUnitDecode (front ++ rest) front.length = front ++ unescape rest := by
  induction size : rest.length using Nat.strong_induction_on generalizing front rest with
  | _ n ih =>
    subst size
    have pattern : marker 2 (0x00 : UInt8) 0x03 = stuffing := rfl
    have other : (0x03 : UInt8) ≠ 0x00 := by decide
    cases found : Search.find stuffing rest with
    | none =>
      have clean : Clean 2 (0x00 : UInt8) 0x03 0 rest := by
        rw [clean_iff other (Nat.zero_le 2), pattern]
        exact (Search.find_eq_none_iff (by decide)).1 found
      have kept := unstuff_append clean []
      rw [List.append_nil] at kept
      rw [nalUnitDecode_none (by rw [List.drop_left]; exact found), unescape, kept]
      simp [unstuff]
    | some i =>
      obtain ⟨before, behind, rfl, rfl, first⟩ := Search.exists_of_find (by decide) found
      have clean : Clean 2 (0x00 : UInt8) 0x03 0 (before ++ [0x00, 0x00]) := by
        rw [clean_iff other (Nat.zero_le 2), pattern]
        exact first
      have full : after 2 (0x00 : UInt8) 0 (before ++ [0x00, 0x00]) = 2 := by
        have run : after 2 (0x00 : UInt8) (after 2 0x00 0 before) [0x00, 0x00] = _ := after_replicate 2
        rw [after_append]
        refine run.trans ?_
        rw [if_neg (by decide)]
        omega
      have text : before ++ (stuffing ++ behind) = (before ++ [0x00, 0x00]) ++ 0x03 :: behind := by
        simp [stuffing]
      have whole : front ++ (before ++ (stuffing ++ behind)) = (front ++ (before ++ [0x00, 0x00])) ++ 0x03 :: behind := by
        rw [text]
        simp only [List.append_assoc]
      have position : front.length + before.length + 2 = (front ++ (before ++ [0x00, 0x00])).length := by
        simp only [List.length_append, List.length_cons, List.length_nil]
        omega
      have fewer : behind.length < (before ++ (stuffing ++ behind)).length := by
        simp only [List.length_append, stuffing, List.length_cons]
        omega
      rw [nalUnitDecode_some (by rw [List.drop_left]; exact found), whole, position,
        List.eraseIdx_append_of_length_le (Nat.le_refl _), Nat.sub_self, List.eraseIdx_zero, List.tail_cons,
        ih _ fewer _ behind rfl, text, unescape, unstuff_marked clean full behind, List.append_assoc]

/-- **Decoding a unit in place unstuffs it.** -/
theorem nalUnitDecode_eq (data : List UInt8) : nalUnitDecode data 0 = unescape data := nalUnitDecode_append [] data

/-! ## A stream of units -/

/-- How many of the bytes behind a start code are its unit. -/
def unitLength (behind : List UInt8) : Nat :=
  match Search.find startCode behind with
  | none => behind.length
  | some j => if j ≠ 0 ∧ behind.getD (j - 1) 0 = 0x00 then j - 1 else j

theorem nalStreamDebug_none {data : List UInt8} (none : Search.find startCode data = none) : nalStreamDebug data = some [] := by
  rw [nalStreamDebug]
  split
  · rfl
  · rename_i other
    rw [none] at other
    cases other

section Cut

variable (before behind : List UInt8)

theorem getD_behind {j : Nat} (positive : j ≠ 0) :
    (before ++ (startCode ++ behind)).getD (before.length + 3 + j - 1) 0 = behind.getD (j - 1) 0 := by
  have start : (before ++ startCode).length = before.length + 3 := by rw [List.length_append]; rfl
  have index : before.length + 3 + j - 1 = (before ++ startCode).length + (j - 1) := by omega
  rw [← List.append_assoc, index, List.getD_append_right _ _ _ _ (by omega), Nat.add_sub_cancel_left]

theorem getD_startCode : (before ++ (startCode ++ behind)).getD (before.length + 3 + 0 - 1) 0 = 0x01 := by
  have index : before.length + 3 + 0 - 1 = before.length + 2 := by omega
  rw [index, List.getD_append_right _ _ _ _ (by omega), Nat.add_sub_cancel_left]
  rfl

theorem drop_startCode (n : Nat) : (before ++ (startCode ++ behind)).drop (before.length + 3 + n) = behind.drop n := by
  have start : (before ++ startCode).length = before.length + 3 := by rw [List.length_append]; rfl
  rw [← List.append_assoc, ← start, ← List.drop_drop, List.drop_left]

theorem unitEnd_eq : unitEnd (before ++ (startCode ++ behind)) (before.length + 3) = before.length + 3 + unitLength behind := by
  have rest := drop_startCode before behind 0
  rw [Nat.add_zero, List.drop_zero] at rest
  rw [unitEnd, rest, unitLength]
  cases Search.find startCode behind with
  | none =>
    simp only [List.length_append]
    exact (Nat.add_assoc _ _ _).symm
  | some j =>
    obtain rfl | positive := eq_or_ne j 0
    · have last : ¬ (before ++ (startCode ++ behind)).getD (before.length + 3 + 0 - 1) 0 = 0x00 := by
        rw [getD_startCode]
        decide
      simp only [if_neg last]
      rfl
    · simp only [getD_behind before behind positive]
      by_cases zero : behind.getD (j - 1) 0 = 0x00
      · rw [if_pos zero, if_pos ⟨positive, zero⟩]
        omega
      · rw [if_neg zero, if_neg fun both => zero both.2]

variable {before}

/-- One turn of the loop: what is in front of the first start code is skipped, and its unit is printed. -/
theorem nalStreamDebug_cut (first : ¬ startCode <:+: before ++ [0x00, 0x00]) :
    nalStreamDebug (before ++ (startCode ++ behind)) =
      (nalUnitDebug (behind.take (unitLength behind))).bind fun unit =>
        (nalStreamDebug (behind.drop (unitLength behind))).map (unit :: ·) := by
  have found := Search.find_first (m := behind) (by decide) first
  have unit : ((before ++ (startCode ++ behind)).take (before.length + 3 + unitLength behind)).drop (before.length + 3) =
      behind.take (unitLength behind) := by
    have rest := drop_startCode before behind 0
    rw [Nat.add_zero, List.drop_zero] at rest
    rw [List.drop_take, rest, Nat.add_sub_cancel_left]
  rw [nalStreamDebug]
  split
  · rename_i other
    rw [found] at other
    cases other
  · rename_i i other
    rw [found] at other
    cases other
    simp only [unitEnd_eq, unit, drop_startCode]

end Cut

/-! ## What the program does not get through -/

/-- A start code with nothing behind it, or with the next one, of three bytes or of four. -/
def HasEmpty (data : List UInt8) : Prop :=
  ∃ before behind, data = before ++ (startCode ++ behind) ∧
    (behind = [] ∨ startCode <+: behind ∨ 0x00 :: startCode <+: behind)

theorem unitLength_eq_zero_iff (behind : List UInt8) :
    unitLength behind = 0 ↔ behind = [] ∨ startCode <+: behind ∨ 0x00 :: startCode <+: behind := by
  have filled : startCode ≠ [] := by decide
  rw [unitLength]
  cases found : Search.find startCode behind with
  | none =>
    have absent := (Search.find_eq_none_iff filled).1 found
    rw [List.length_eq_zero_iff]
    constructor
    · exact Or.inl
    · rintro (empty | here | here)
      · exact empty
      · exact absurd here.isInfix absent
      · exact absurd ((List.suffix_cons _ _).isInfix.trans here.isInfix) absent
  | some j =>
    obtain ⟨before, rest, rfl, rfl, -⟩ := Search.exists_of_find filled found
    cases before with
    | nil => simp
    | cons a before =>
      have none : ¬ startCode <+: a :: before ++ (startCode ++ rest) := by
        rintro ⟨m, same⟩
        rw [← same, Search.find_prefix filled] at found
        cases found
      rw [or_iff_right (by simp), or_iff_right none]
      cases before with
      | nil =>
        simp only [List.length_cons, List.length_nil, List.cons_append, List.nil_append]
        constructor
        · intro empty
          split at empty
          · rename_i zero
            have value : a = 0x00 := zero.2
            rw [value]
            exact (List.prefix_cons_inj _).2 (List.prefix_append _ _)
          · omega
        · intro here
          rw [List.cons_prefix_cons] at here
          rw [if_pos ⟨by decide, here.1.symm⟩]
      | cons b before =>
        constructor
        · intro empty
          simp only [List.length_cons] at empty
          split at empty <;> omega
        · rintro ⟨m, same⟩
          rw [← same, ← List.singleton_append, List.append_assoc] at found
          have early := Search.find_le filled found
          simp only [List.length_cons, List.length_nil] at early
          omega

/-- A later start code is behind the first, whole. -/
theorem behind_first {before behind front rest : List UInt8} (first : ¬ startCode <:+: before ++ [0x00, 0x00])
    (same : before ++ (startCode ++ behind) = front ++ (startCode ++ rest)) :
    (front = before ∧ rest = behind) ∨ ∃ middle, behind = middle ++ (startCode ++ rest) := by
  have filled : startCode ≠ [] := by decide
  have found := Search.find_first (m := behind) filled first
  rw [same] at found
  have order := Search.find_le filled found
  obtain ⟨middle, rfl⟩ : before <+: front :=
    List.prefix_of_prefix_length_le (List.prefix_append _ _) (same.symm ▸ List.prefix_append _ _) order
  rw [List.append_assoc, List.append_cancel_left_eq] at same
  -- two start codes do not overlap
  match middle, same with
  | [], same => exact Or.inl ⟨List.append_nil _, (List.append_cancel_left same).symm⟩
  | [a], same => simp [startCode] at same
  | [a, b], same => simp [startCode] at same
  | a :: b :: c :: middle, same =>
    right
    refine ⟨middle, ?_⟩
    simp only [startCode, List.cons_append, List.nil_append, List.cons.injEq] at same
    exact same.2.2.2

theorem unitLength_le (middle rest : List UInt8) : unitLength (middle ++ (startCode ++ rest)) ≤ middle.length := by
  have filled : startCode ≠ [] := by decide
  rw [unitLength]
  cases found : Search.find startCode (middle ++ (startCode ++ rest)) with
  | none =>
    have absent := (Search.find_eq_none_iff filled).1 found
    exact absurd ((List.prefix_append _ _).isInfix.trans (List.suffix_append _ _).isInfix) absent
  | some j =>
    have early := Search.find_le filled found
    simp only
    split <;> omega

/-- A unit of some bytes has nothing to do with it. -/
theorem hasEmpty_behind_iff {before behind : List UInt8} (first : ¬ startCode <:+: before ++ [0x00, 0x00])
    (filled : unitLength behind ≠ 0) :
    HasEmpty (before ++ (startCode ++ behind)) ↔ HasEmpty (behind.drop (unitLength behind)) := by
  constructor
  · rintro ⟨front, rest, same, bare⟩
    obtain ⟨-, rfl⟩ | ⟨middle, rfl⟩ := behind_first first same
    · exact absurd ((unitLength_eq_zero_iff rest).2 bare) filled
    · refine ⟨middle.drop (unitLength (middle ++ (startCode ++ rest))), rest, ?_, bare⟩
      rw [List.drop_append_of_le_length (unitLength_le middle rest)]
  · rintro ⟨front, rest, same, bare⟩
    refine ⟨before ++ (startCode ++ (behind.take (unitLength behind) ++ front)), rest, ?_, bare⟩
    simp only [List.append_assoc]
    rw [← same, List.take_append_drop]

/-- **The program gets through** exactly when something stands behind every start code. -/
theorem nalStreamDebug_eq_none_iff (data : List UInt8) : nalStreamDebug data = none ↔ HasEmpty data := by
  have filled : startCode ≠ [] := by decide
  induction size : data.length using Nat.strong_induction_on generalizing data with
  | _ n ih =>
    subst size
    cases found : Search.find startCode data with
    | none =>
      rw [nalStreamDebug_none found]
      constructor
      · intro none
        cases none
      · rintro ⟨before, behind, rfl, -⟩
        have absent := (Search.find_eq_none_iff filled).1 found
        exact absurd ((List.prefix_append _ _).isInfix.trans (List.suffix_append _ _).isInfix) absent
    | some i =>
      obtain ⟨before, behind, rfl, -, first⟩ := Search.exists_of_find filled found
      have start : (startCode ++ behind).length = 3 + behind.length := by
        rw [List.length_append]
        rfl
      have fewer : (behind.drop (unitLength behind)).length < (before ++ (startCode ++ behind)).length := by
        rw [List.length_append, start, List.length_drop]
        omega
      have rest := ih _ fewer _ rfl
      rw [nalStreamDebug_cut behind first]
      by_cases empty : unitLength behind = 0
      · have whole : HasEmpty (before ++ (startCode ++ behind)) :=
          ⟨before, behind, rfl, (unitLength_eq_zero_iff behind).1 empty⟩
        rw [empty, List.take_zero]
        exact iff_of_true rfl whole
      · obtain ⟨byte, bytes, unit⟩ : ∃ byte bytes, behind.take (unitLength behind) = byte :: bytes := by
          apply List.exists_cons_of_ne_nil
          intro none
          have zero := congrArg List.length none
          rw [List.length_take, List.length_nil] at zero
          have nothing : behind.length = 0 := by omega
          exact empty ((unitLength_eq_zero_iff behind).2 (Or.inl (List.eq_nil_of_length_eq_zero nothing)))
        rw [unit, nalUnitDebug, Option.bind_some, Option.map_eq_none_iff, hasEmpty_behind_iff first empty]
        exact rest

/-! ## What is printed of a stream of stuffed units -/

/-- A unit: its first byte, and the bytes that are stuffed. Neither is the first byte zero nor the last. -/
structure NalUnit where
  long : Bool
  first : UInt8
  payload : List UInt8
  given : first ≠ 0x00
  ended : payload.getLast? ≠ some 0x00

namespace NalUnit

/-- A start code of four bytes has this in front. -/
def zeros (u : NalUnit) : List UInt8 := if u.long then [0x00] else []

/-- The unit as it is sent. -/
def text (u : NalUnit) : List UInt8 := u.first :: stuff 2 0x00 0x03 (· ≤ 3) 0 u.payload

def bytes (u : NalUnit) : List UInt8 := u.zeros ++ (startCode ++ u.text)

variable (u : NalUnit)

theorem getLast?_text : ∃ a, u.text.getLast? = some a ∧ a ≠ 0x00 := by
  rw [text, List.getLast?_cons, getLast?_stuff]
  cases last : u.payload.getLast? with
  | none => exact ⟨_, rfl, u.given⟩
  | some a =>
    refine ⟨a, rfl, fun zero => u.ended ?_⟩
    rw [last, zero]

theorem clean_text : Clean 2 (0x00 : UInt8) 0x01 0 u.text := by
  have run : next 2 (0x00 : UInt8) 0 u.first = 0 := if_neg u.given
  refine ⟨fun both => absurd both.1 (by decide), ?_⟩
  rw [run]
  exact clean_stuff (by decide) (by decide) (by decide) (by decide) u.payload

/-- No start code is in a unit, nor in what follows it before the next. -/
theorem no_startCode (zeros : List UInt8) (clean : Clean 2 (0x00 : UInt8) 0x01 0 zeros) :
    ¬ startCode <:+: u.text ++ zeros := by
  obtain ⟨a, last, ends⟩ := u.getLast?_text
  have whole : Clean 2 (0x00 : UInt8) 0x01 0 (u.text ++ zeros) := by
    rw [clean_append, after_ended last ends]
    exact ⟨u.clean_text, clean⟩
  exact (clean_iff (by decide) (Nat.zero_le 2) _).1 whole

/-- What is printed of a unit. -/
theorem nalUnitDebug_text : nalUnitDebug u.text = some (describe u.first u.payload) := by
  rw [text, nalUnitDebug, nalUnitDecode_eq, unescape, unstuff_stuff (by decide) (by decide)]

end NalUnit

/-- A unit ends where the next start code begins, whether it has three bytes or four. -/
theorem unitLength_text (u : NalUnit) (us : List NalUnit) :
    unitLength (u.text ++ us.flatMap NalUnit.bytes) = u.text.length := by
  have filled : startCode ≠ [] := by decide
  cases us with
  | nil =>
    have absent := u.no_startCode [] trivial
    have none := (Search.find_eq_none_iff filled).2 absent
    rw [List.flatMap_nil, unitLength, none, List.append_nil]
  | cons v us =>
    have whole : u.text ++ (v :: us).flatMap NalUnit.bytes =
        (u.text ++ v.zeros) ++ (startCode ++ (v.text ++ us.flatMap NalUnit.bytes)) := by
      simp only [List.flatMap_cons, NalUnit.bytes, List.append_assoc]
    have first : ¬ startCode <:+: (u.text ++ v.zeros) ++ startCode.dropLast := by
      rw [List.append_assoc]
      apply u.no_startCode
      unfold NalUnit.zeros
      split <;> simp [Clean, next, startCode]
    obtain ⟨a, last, ends⟩ := u.getLast?_text
    obtain ⟨front, text⟩ := List.getLast?_eq_some_iff.1 last
    have found := Search.find_first (m := v.text ++ us.flatMap NalUnit.bytes) filled first
    have length : u.text.length = front.length + 1 := by rw [text, List.length_append, List.length_singleton]
    rw [whole, unitLength, found]
    cases long : v.long with
    | true =>
      have zeros : v.zeros = [0x00] := if_pos long
      have counted : (u.text ++ v.zeros).length = u.text.length + 1 := by rw [zeros, List.length_append]; rfl
      have zero : ((u.text ++ v.zeros) ++ (startCode ++ (v.text ++ us.flatMap NalUnit.bytes))).getD
          (u.text.length + 1 - 1) 0 = 0x00 := by
        rw [zeros, List.append_assoc, List.getD_append_right _ _ _ _ (by omega), Nat.add_sub_cancel, Nat.sub_self]
        rfl
      simp only [counted]
      rw [if_pos ⟨Nat.succ_ne_zero _, zero⟩, Nat.add_sub_cancel]
    | false =>
      have zeros : v.zeros = [] := by rw [NalUnit.zeros, long]; rfl
      have counted : (u.text ++ v.zeros).length = front.length + 1 := by rw [zeros, List.append_nil, length]
      have filled : ¬ ((u.text ++ v.zeros) ++ (startCode ++ (v.text ++ us.flatMap NalUnit.bytes))).getD
          (front.length + 1 - 1) 0 = 0x00 := by
        rw [zeros, List.append_nil, text, List.append_assoc, List.getD_append_right _ _ _ _ (by omega), Nat.add_sub_cancel,
          Nat.sub_self]
        exact ends
      simp only [counted]
      rw [if_neg fun both => filled both.2, length]

/-- **What was put into a stream of units is printed of it.** -/
theorem nalStreamDebug_stream (us : List NalUnit) :
    nalStreamDebug (us.flatMap NalUnit.bytes) = some (us.map fun u => describe u.first u.payload) := by
  induction us with
  | nil => exact nalStreamDebug_none rfl
  | cons u us ih =>
    have first : ¬ startCode <:+: u.zeros ++ [0x00, 0x00] := by
      unfold NalUnit.zeros
      split <;> decide
    rw [List.flatMap_cons, NalUnit.bytes, List.append_assoc, List.append_assoc, nalStreamDebug_cut _ first, unitLength_text,
      List.take_left, List.drop_left, u.nalUnitDebug_text, ih]
    rfl

/-! ## The program -/

/-- **What `h264_debug` does** depends on what it reads, not on how: at the end of its input it prints the units of
all of it, and after a failure none. -/
theorem h264Debug_eq (replies : List PosixFile.Reply) (input : List UInt8) :
    h264Debug replies input = (PosixFile.ending TsPackets.blockSize replies input.length).bind fun
      | .reached => (nalStreamDebug input).map fun units => (0, units)
      | .failed => some (1, []) := by
  rw [h264Debug, TsPackets.loadLoop_eq]
  cases PosixFile.ending TsPackets.blockSize replies input.length with
  | none => rfl
  | some e => cases e <;> rfl

end Nal
end Libts
