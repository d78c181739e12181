import Libts.Packet.Packets

/-!
# Packet framing on input

`ts_packets_unpack` takes its input for a sequence of 188-byte packets but never looks
where a packet ends: the end follows from the adaptation field control and the length byte
of the adaptation field. `Slips l` says that the packet at the front of `l` is accepted and
ends elsewhere. The framing of a whole input is right exactly when no packet that the loop
reaches slips (`framing_iff`).
-/

namespace Libts
set_option autoImplicit false

open CArith

namespace TsPackets
open TsPacket

/-- The streams on which `unpack` calls `TsPacket.unpack`, from `s` on. -/
inductive Called [Compilation] (s : Bytestream) : Bytestream → Prop where
  | first (nonempty : s.size ≠ 0) : Called s s
  | next {t u : Bytestream} {n : Int} {p : TsPacket} (called : Called s t)
      (read : TsPacket.construct.unpack t = some (n, p, u)) (positive : 0 < n) (nonempty : u.size ≠ 0) :
      Called s u

/-- The call on `s` comes back, and if it returns 1 it has consumed 188 bytes and produced
a payload of at most 184. -/
def CallFramed [Compilation] (s : Bytestream) : Prop :=
  ∃ n p t, TsPacket.construct.unpack s = some (n, p, t) ∧
    (n = 1 → s.size = t.size + 188 ∧ p.payloadSize ≤ 184)

/-- The 188 bytes at `188 * i`. -/
def block (bs : List UInt8) (i : Nat) : List UInt8 := (bs.drop (188 * i)).take 188

/-- The packet that the decoder makes of 188 bytes alone. -/
def OfBlock [Compilation] (b : List UInt8) (p : TsPacket) : Prop :=
  b.length = 188 ∧ ∃ t, TsPacket.construct.unpack (Bytestream.construct (some b) b.length) = some (1, p, t)

/-- The framing of a whole input. -/
structure Framing [Compilation] (bs : List UInt8) : Prop where
  calls : ∀ s, Called (Bytestream.constructBuffer bs) s → CallFramed s
  packets : ∃ r packets t, construct.unpack (Bytestream.constructBuffer bs) = some (r, packets, t) ∧
    ∀ i p, packets.list[i]? = some p → OfBlock (block bs i) p

/-- The packet at the front of `l` is accepted but does not end after 188 bytes: it has a
payload that starts behind them, or none and an adaptation field of another length. -/
structure Slips (l : List UInt8) : Prop where
  long : 188 ≤ l.length
  field : (wireHeader l).hasAdaptationField = true → FieldAccepted l
  there : payloadOffset l ≤ l.length
  ends : if (wireHeader l).hasPayload then 188 < payloadOffset l else payloadOffset l ≠ 188

/-- All packets before the `i`-th are framed. -/
def Reached (bs : List UInt8) (i : Nat) : Prop := ∀ j < i, Framed (bs.drop (188 * j))

section Call

variable [Compilation] {s : Bytestream} {l : List UInt8}

/-- What one call does: refuse, read one framed packet, or slip. -/
theorem call_cases (h : s.Holds l) (bound : l.length < 2 ^ 63) :
    (∃ n p t, TsPacket.construct.unpack s = some (n, p, t) ∧ n ≤ 0 ∧ ¬ Framed l ∧ ¬ Slips l) ∨
      Framed l ∨ Slips l := by
  by_cases long : 188 ≤ l.length
  · by_cases field : (wireHeader l).hasAdaptationField = true → FieldAccepted l
    · have there := payloadOffset_there long field
      right
      by_cases ends : if (wireHeader l).hasPayload then payloadOffset l ≤ 188 else payloadOffset l = 188
      · exact Or.inl ⟨long, field, ends⟩
      · right
        refine ⟨long, field, there, ?_⟩
        split at ends <;> rename_i payload
        · rw [if_pos payload]
          omega
        · rw [if_neg payload]
          exact ends
    · obtain ⟨has, bad⟩ := Classical.not_imp.mp field
      obtain ⟨p, t, refused⟩ := unpack_rejects h long bound has bad
      exact Or.inl ⟨-1, p, t, refused, by decide, fun f => bad (f.field has), fun f => bad (f.field has)⟩
  · left
    exact ⟨0, _, s, unpack_short h (by omega) _, by decide, fun f => long f.long, fun f => long f.long⟩

/-- A packet that slips aborts the program or is taken for another number of bytes. -/
theorem Slips.read (slips : Slips l) (h : s.Holds l) {n : Int} {p : TsPacket} {t : Bytestream}
    (read : TsPacket.construct.unpack s = some (n, p, t)) : n = 1 ∧ s.size ≠ t.size + 188 := by
  have wrong := slips.ends
  by_cases payload : (wireHeader l).hasPayload = true
  · rw [if_pos payload] at wrong
    rw [unpack_aborts h slips.long slips.field payload slips.there wrong] at read
    cases read
  · rw [if_neg payload] at wrong
    rw [unpack_accepts h slips.long slips.field slips.there (fun has => absurd has payload)] at read
    cases read
    have there := slips.there
    rw [if_neg payload, h.size_skip, h.sizeEq]
    exact ⟨rfl, by omega⟩

theorem Slips.call (slips : Slips l) (h : s.Holds l) : ¬ CallFramed s := by
  rintro ⟨n, p, t, read, consumed⟩
  obtain ⟨one, other⟩ := slips.read h read
  exact other (consumed one).1

/-- The frame of one call. -/
theorem callFramed_iff (h : s.Holds l) (bound : l.length < 2 ^ 63) : CallFramed s ↔ ¬ Slips l := by
  constructor
  · intro framed slips
    exact slips.call h framed
  · intro fits
    rcases call_cases h bound with ⟨n, p, t, read, low, -, -⟩ | framed | slips
    · exact ⟨n, p, t, read, fun one => by omega⟩
    · refine ⟨1, _, _, framed.unpack h, fun _ => ⟨?_, payloadSize_wirePacket_le l⟩⟩
      have long := framed.long
      rw [h.size_skip, h.sizeEq]
      omega
    · exact absurd slips fits

end Call

section Run

variable {bs : List UInt8}

theorem holds_drop (nonempty : bs ≠ []) {i : Nat} (inside : 188 * i ≤ bs.length) :
    ((Bytestream.constructBuffer bs).skip (188 * i)).Holds (bs.drop (188 * i)) :=
  (Bytestream.holds_constructBuffer nonempty).skip inside

/-- Framed packets in front of the `i`-th leave it in the input. -/
theorem Reached.inside {i : Nat} (reached : Reached bs i) : 188 * i ≤ bs.length := by
  cases i with
  | zero => omega
  | succ i =>
    have long := (reached i (by omega)).long
    rw [List.length_drop] at long
    omega

theorem Reached.succ {i : Nat} (reached : Reached bs i) (framed : Framed (bs.drop (188 * i))) :
    Reached bs (i + 1) := by
  intro j before
  obtain last | earlier := eq_or_ne j i
  · rw [last]
    exact framed
  · exact reached j (by omega)

/-- As long as nothing slips, every call is made in front of a block. -/
theorem called_at [Compilation] (bound : bs.length < 2 ^ 63)
    (fits : ∀ i, Reached bs i → ¬ Slips (bs.drop (188 * i))) {s : Bytestream}
    (called : Called (Bytestream.constructBuffer bs) s) :
    bs ≠ [] ∧ ∃ i, Reached bs i ∧ s = (Bytestream.constructBuffer bs).skip (188 * i) := by
  induction called with
  | first filled =>
    have nonempty : bs ≠ [] := by
      rintro rfl
      exact filled rfl
    refine ⟨nonempty, 0, fun j before => by omega, ?_⟩
    exact (Bytestream.holds_constructBuffer nonempty).skip_zero.symm
  | next _ read positive _ ih =>
    obtain ⟨nonempty, i, reached, rfl⟩ := ih
    have h := holds_drop nonempty reached.inside
    have small : (bs.drop (188 * i)).length < 2 ^ 63 := by
      rw [List.length_drop]
      omega
    rcases call_cases h small with ⟨n, p, t, other, low, -, -⟩ | framed | slips
    · rw [other] at read
      cases read
      omega
    · rw [framed.unpack h] at read
      cases read
      refine ⟨nonempty, i + 1, reached.succ framed, ?_⟩
      rw [Bytestream.skip_skip]
      rfl
    · exact absurd slips (fits i reached)

/-- The decoder is called in front of every block that is reached. -/
theorem Reached.called [Compilation] {i : Nat} (reached : Reached bs i) (inside : 188 * i < bs.length) :
    Called (Bytestream.constructBuffer bs) ((Bytestream.constructBuffer bs).skip (188 * i)) := by
  have nonempty : bs ≠ [] := by
    rintro rfl
    simp at inside
  have whole := Bytestream.holds_constructBuffer nonempty
  induction i with
  | zero =>
    rw [Nat.mul_zero, whole.skip_zero]
    apply Called.first
    rw [whole.sizeEq]
    omega
  | succ i ih =>
    have before : Reached bs i := fun j earlier => reached j (by omega)
    have h := holds_drop nonempty before.inside
    have read := (reached i (by omega)).unpack h
    rw [Bytestream.skip_skip] at read
    apply Called.next (ih before (by omega)) read (by decide)
    rw [whole.size_skip]
    omega

/-- The packet decoded from a framed block. -/
theorem ofBlock_of_framed [Compilation] {i : Nat} (framed : Framed (bs.drop (188 * i))) :
    OfBlock (block bs i) (wirePacket (bs.drop (188 * i))) := by
  have long := framed.long
  have read := framed.take.unpack (Bytestream.holds_construct _)
  rw [framed.wirePacket_take] at read
  exact ⟨by rw [block, List.length_take]; omega, _, read⟩

/-- The packets the loop adds from the `i`-th block on, when nothing slips. The induction
is on the bytes that are left. -/
theorem unpackLoop_decoded [Compilation] (nonempty : bs ≠ []) (bound : bs.length < 2 ^ 63)
    (fits : ∀ i, Reached bs i → ¬ Slips (bs.drop (188 * i))) (m : Nat) :
    ∀ (i : Nat) (list : List TsPacket) (count : Int), bs.length - 188 * i ≤ m → Reached bs i →
      list.length = i → (∀ j p, list[j]? = some p → OfBlock (block bs j) p) →
      ∃ r qs t, unpackLoop ((Bytestream.constructBuffer bs).skip (188 * i)) count list = some (r, qs, t) ∧
        ∀ j p, qs[j]? = some p → OfBlock (block bs j) p := by
  induction m with
  | zero =>
    intro i list count left reached _ decoded
    have empty : ((Bytestream.constructBuffer bs).skip (188 * i)).size = 0 := by
      rw [(holds_drop nonempty reached.inside).sizeEq, List.length_drop]
      omega
    exact ⟨_, _, _, unpackLoop_empty empty, decoded⟩
  | succ m ih =>
    intro i list count left reached length decoded
    have h := holds_drop nonempty reached.inside
    have small : (bs.drop (188 * i)).length < 2 ^ 63 := by
      rw [List.length_drop]
      omega
    obtain empty | filled := eq_or_ne (((Bytestream.constructBuffer bs).skip (188 * i)).size) 0
    · exact ⟨_, _, _, unpackLoop_empty empty, decoded⟩
    · rcases call_cases h small with ⟨n, p, t, refused, low, -, -⟩ | framed | slips
      · exact ⟨_, _, _, unpackLoop_stop filled refused low, decoded⟩
      · have long := framed.long
        rw [List.length_drop] at long
        rw [unpackLoop_framed h framed, Bytestream.skip_skip]
        refine ih (i + 1) _ _ (by omega) (reached.succ framed) (by simp [length]) ?_
        intro j p member
        rw [List.getElem?_append] at member
        split at member
        · exact decoded j p member
        · rename_i last
          have here : j - list.length = 0 := by
            by_contra other
            rw [List.getElem?_eq_none (by simp only [List.length_singleton]; omega)] at member
            cases member
          rw [here] at member
          cases member
          have index : j = i := by omega
          rw [index]
          exact ofBlock_of_framed framed
      · exact absurd slips (fits i reached)

/-- **The framing of an input** is right exactly when no packet that is reached slips. An
object of C has fewer than `2 ^ 63` bytes. -/
theorem framing_iff [Compilation] (bound : bs.length < 2 ^ 63) :
    Framing bs ↔ ∀ i, Reached bs i → ¬ Slips (bs.drop (188 * i)) := by
  constructor
  · intro framing i reached slips
    have long := slips.long
    rw [List.length_drop] at long
    have nonempty : bs ≠ [] := by
      rintro rfl
      simp at long
    exact slips.call (holds_drop nonempty reached.inside) (framing.calls _ (reached.called (by omega)))
  · intro fits
    constructor
    · intro s called
      obtain ⟨nonempty, i, reached, rfl⟩ := called_at bound fits called
      have small : (bs.drop (188 * i)).length < 2 ^ 63 := by
        rw [List.length_drop]
        omega
      exact (callFramed_iff (holds_drop nonempty reached.inside) small).2 (fits i reached)
    · obtain rfl | filled := eq_or_ne bs []
      · refine ⟨_, _, _, by rw [unpack, unpackLoop_empty rfl]; rfl, ?_⟩
        intro i p member
        cases member
      · have whole := Bytestream.holds_constructBuffer filled
        obtain ⟨r, qs, t, run, decoded⟩ := unpackLoop_decoded filled bound fits bs.length 0 [] 0 (by omega)
          (fun j before => by omega) rfl (fun j p member => by cases member)
        rw [Nat.mul_zero, whole.skip_zero] at run
        exact ⟨_, _, _, by rw [unpack, construct, run]; rfl, decoded⟩

end Run

section AtRunTime
attribute [local instance] Compilation.atRunTime

/-- A packet without adaptation field, payload or anything else is taken for four bytes. -/
theorem framing_iff_null : Framing (List.replicate 188 0) ↔
    ∀ i, Reached (List.replicate 188 0) i → ¬ Slips ((List.replicate 188 0).drop (188 * i)) :=
  framing_iff (by decide +kernel)

/-- An adaptation field of 200 bytes in front of a payload aborts the program. -/
theorem not_framing_overlong : ¬ Framing ([0x47, 0, 0, 0x30, 200] ++ List.replicate 371 0) := by
  have slips : Slips ([0x47, 0, 0, 0x30, 200] ++ List.replicate 371 0) :=
    ⟨by decide +kernel, by decide +kernel, by decide +kernel, by decide +kernel⟩
  intro framing
  have called : Called (Bytestream.constructBuffer ([0x47, 0, 0, 0x30, 200] ++ List.replicate 371 0)) _ :=
    Called.first (by decide +kernel)
  exact slips.call (Bytestream.holds_constructBuffer (List.cons_ne_nil _ _)) (framing.calls _ called)

end AtRunTime

end TsPackets
end Libts
