import Libts.Packet.Framing

/-!
# Refused packets that are not reported

`ts_packets_unpack` reports a refused packet by looking whether the stream is still valid.
The packet decoder refuses with a destructed stream, with one exception: private data
longer than the input makes `ts_adaptation_field_unpack` return early (`unpack_result`).
These packets are dropped with everything behind them, and no others (`reports_iff`).
-/

namespace Libts
set_option autoImplicit false

open CArith

namespace TsAdaptationField

/-- The bytes after a length byte announce private data that reaches behind their end. -/
def OverlongPrivate (l : List UInt8) : Prop :=
  (wireFlags l).transportPrivateDataFlag = true ∧ l.length < wireSize l

instance (l : List UInt8) : Decidable (OverlongPrivate l) := inferInstanceAs (Decidable (_ ∧ _))

theorem unpackPrivate_result {af : TsAdaptationField} {s : Bytestream} (len size : Nat)
    (room : af.transportPrivateDataFlag = true → s.read8.1 ≤ (s.skip 1).size) :
    (af.unpackPrivate len size s).1 = (af.unpackPrivate len size s).2.2.result := by
  unfold unpackPrivate
  by_cases flag : af.transportPrivateDataFlag = true
  · have notAbove : ¬ s.read8.1 > s.read8.2.size := Nat.not_lt.mpr (room flag)
    simp only [if_pos flag, if_neg notAbove]
    rfl
  · rw [if_neg flag]
    rfl

section Field

variable {t : Bytestream} {len : UInt8} {l : List UInt8} (h : t.Holds (len :: l)) (enough : 15 ≤ l.length)
include h enough

/-- The stream behind the size byte of the private data. -/
theorem holds_private :
    ((t.skip 1).skip ((wireFlags l).privateOffset + 1)).Holds (l.drop ((wireFlags l).privateOffset + 1)) := by
  have offset := privateOffset_le (wireFlags l)
  exact h.skip_cons.skip (by omega)

/-- Without overlong private data the result of the decoder is the validity of its stream. -/
theorem unpack_result [Compilation] (short : len ≠ 0 → ¬ OverlongPrivate l) :
    (construct.unpack t).1 = (construct.unpack t).2.2.result := by
  obtain zero | nonzero := eq_or_ne len 0
  · subst zero
    rw [unpack_empty h]
    exact h.skip_cons.result.symm
  · rw [unpack_eq h nonzero]
    apply unpackPrivate_result
    intro flag
    rw [unpackClocks_eq] at flag
    have fits : ¬ l.length < wireSize l := fun beyond => short nonzero ⟨flag, beyond⟩
    unfold wireSize at fits
    rw [if_pos flag] at fits
    have left : (((t.skip 1).skip (wireFlags l).privateOffset).skip 1).size =
        l.length - ((wireFlags l).privateOffset + 1) := by
      rw [(t.skip 1).skip_skip, (holds_private h enough).sizeEq, List.length_drop]
    rw [h.skip_cons.read8_getD, left]
    dsimp only
    omega

/-- Overlong private data is refused in a stream that stays valid. -/
theorem unpack_overlong [Compilation] (nonzero : len ≠ 0) (overlong : OverlongPrivate l) :
    ∃ af u, construct.unpack t = (-1, af, u) ∧ u.valid = true := by
  obtain ⟨flag, beyond⟩ := overlong
  have offset := privateOffset_le (wireFlags l)
  unfold wireSize at beyond
  rw [if_pos flag] at beyond
  have above : (l.getD (wireFlags l).privateOffset 0).toNat >
      ((t.skip 1).skip ((wireFlags l).privateOffset + 1)).size := by
    rw [(holds_private h enough).sizeEq, List.length_drop]
    omega
  have same : ((wireFlags l).unpackClocks ((t.skip 1).skip 1)).1.transportPrivateDataFlag = true := by
    rw [unpackClocks_eq]
    exact flag
  rw [unpack_eq h nonzero, unpackPrivate, if_pos same]
  simp only [h.skip_cons.read8_getD, if_pos above]
  exact ⟨_, _, rfl, (holds_private h enough).isValid⟩

end Field

end TsAdaptationField

namespace TsPacket

/-- The packet at the front of `l` has private data that reaches behind the end of `l`. -/
def OverlongPrivate (l : List UInt8) : Prop :=
  188 ≤ l.length ∧ (wireHeader l).hasAdaptationField = true ∧ fieldLength l ≠ 0 ∧
    TsAdaptationField.OverlongPrivate (l.drop 5)

instance (l : List UInt8) : Decidable (OverlongPrivate l) := inferInstanceAs (Decidable (_ ∧ _ ∧ _ ∧ _))

variable {s t : Bytestream} {l : List UInt8} {p q : TsPacket} {n : Int}

theorem unpackPayload_result {size : Nat} (read : p.unpackPayload size s = some (n, q, t)) : n = t.result := by
  unfold unpackPayload at read
  split at read
  · simp only at read
    split at read
    · cases read
    · cases read
      rfl
  · cases read
    rfl

theorem unpackBody_result [Compilation] {size : Nat} (field : p.hasAdaptationField = true →
    (p.adaptationField.unpack s).1 = (p.adaptationField.unpack s).2.2.result)
    (read : p.unpackBody size s = some (n, q, t)) : n = t.result := by
  unfold unpackBody at read
  split at read
  · rename_i has
    simp only at read
    split at read
    · cases read
      exact field has
    · exact unpackPayload_result read
  · exact unpackPayload_result read

/-- A refused packet leaves a valid stream exactly when its private data is overlong. -/
theorem valid_of_refused [Compilation] (h : s.Holds l) (read : construct.unpack s = some (-1, p, t)) :
    t.valid = true ↔ OverlongPrivate l := by
  have long : 188 ≤ l.length := by
    by_contra few
    rw [unpack_short h (by omega)] at read
    cases read
  have rest := holds_field h long
  have enough : 15 ≤ (l.drop 5).length := by
    rw [List.length_drop]
    omega
  have blank : (wireHeader l).adaptationField = TsAdaptationField.construct := rfl
  rw [unpack_header h long] at read
  constructor
  · intro valid
    by_contra short
    have field : (wireHeader l).hasAdaptationField = true →
        ((wireHeader l).adaptationField.unpack (s.skip 4)).1 =
          ((wireHeader l).adaptationField.unpack (s.skip 4)).2.2.result := by
      intro has
      rw [blank]
      exact TsAdaptationField.unpack_result rest enough
        (fun nonzero overlong => short ⟨long, has, nonzero, overlong⟩)
    have result := unpackBody_result field read
    rw [Bytestream.result, if_pos valid] at result
    contradiction
  · rintro ⟨-, has, nonzero, overlong⟩
    obtain ⟨af, u, refused, valid⟩ := TsAdaptationField.unpack_overlong rest enough nonzero overlong
    rw [unpackBody, if_pos has, blank, refused] at read
    cases read
    exact valid

/-- A packet with overlong private data is refused. -/
theorem unpack_overlong [Compilation] (h : s.Holds l) (bound : l.length < 2 ^ 63) (overlong : OverlongPrivate l) :
    ∃ p t, construct.unpack s = some (-1, p, t) := by
  obtain ⟨long, has, nonzero, -, beyond⟩ := overlong
  apply unpack_rejects h long bound has
  rintro (zero | ⟨fits, there⟩)
  · exact nonzero zero
  · rw [List.length_drop] at beyond
    omega

end TsPacket

namespace TsPackets
open TsPacket

/-- A refused packet is reported: when any call returns -1, so does `unpack`. -/
def Reports [Compilation] (bs : List UInt8) : Prop :=
  (∃ s p t, Called (Bytestream.constructBuffer bs) s ∧ TsPacket.construct.unpack s = some (-1, p, t)) →
    ∃ packets u, construct.unpack (Bytestream.constructBuffer bs) = some (-1, packets, u)

/-- The packet at the front of `l` is read. -/
structure Accepted (l : List UInt8) : Prop where
  long : 188 ≤ l.length
  field : (wireHeader l).hasAdaptationField = true → FieldAccepted l
  inside : (wireHeader l).hasPayload = true → payloadOffset l ≤ 188

/-- How many bytes a packet that is read takes. -/
def taken (l : List UInt8) : Nat := if (wireHeader l).hasPayload then 188 else payloadOffset l

/-- The positions of the input at which the decoder starts to read a packet. -/
inductive Starts (bs : List UInt8) : Nat → Prop where
  | first (nonempty : bs ≠ []) : Starts bs 0
  | next {k : Nat} (starts : Starts bs k) (accepted : Accepted (bs.drop k))
      (inside : k + taken (bs.drop k) < bs.length) : Starts bs (k + taken (bs.drop k))

section Call

variable {s t : Bytestream} {l : List UInt8} {p : TsPacket} {n : Int}

theorem Accepted.there (accepted : Accepted l) : payloadOffset l ≤ l.length := payloadOffset_there accepted.long accepted.field

theorem Accepted.read [Compilation] (accepted : Accepted l) (h : s.Holds l) :
    TsPacket.construct.unpack s = some (1, wirePacket l, s.skip (taken l)) :=
  unpack_accepts h accepted.long accepted.field accepted.there accepted.inside

/-- A call that reads a packet meets one that is accepted. -/
theorem accepted_of_read [Compilation] (h : s.Holds l) (bound : l.length < 2 ^ 63)
    (read : TsPacket.construct.unpack s = some (n, p, t)) (positive : 0 < n) :
    Accepted l ∧ t = s.skip (taken l) := by
  have long : 188 ≤ l.length := by
    by_contra few
    rw [unpack_short h (by omega)] at read
    cases read
    contradiction
  have field : (wireHeader l).hasAdaptationField = true → FieldAccepted l := by
    intro has
    by_contra bad
    obtain ⟨q, u, refused⟩ := unpack_rejects h long bound has bad
    rw [refused] at read
    cases read
    contradiction
  have inside : (wireHeader l).hasPayload = true → payloadOffset l ≤ 188 := by
    intro payload
    by_contra behind
    rw [unpack_aborts h long field payload (payloadOffset_there long field) (by omega)] at read
    cases read
  have accepted : Accepted l := ⟨long, field, inside⟩
  rw [accepted.read h] at read
  cases read
  exact ⟨accepted, rfl⟩

end Call

section Run

variable {bs : List UInt8}

theorem Starts.inside {k : Nat} (starts : Starts bs k) : k < bs.length := by
  cases starts with
  | first nonempty => exact List.length_pos_iff.mpr nonempty
  | next _ _ inside => exact inside

theorem Starts.nonempty {k : Nat} (starts : Starts bs k) : bs ≠ [] := by
  rintro rfl
  exact absurd starts.inside (Nat.not_lt_zero k)

theorem Starts.holds {k : Nat} (starts : Starts bs k) :
    ((Bytestream.constructBuffer bs).skip k).Holds (bs.drop k) :=
  (Bytestream.holds_constructBuffer starts.nonempty).skip (Nat.le_of_lt starts.inside)

/-- The decoder is called in front of every start. -/
theorem Starts.called [Compilation] {k : Nat} (starts : Starts bs k) :
    Called (Bytestream.constructBuffer bs) ((Bytestream.constructBuffer bs).skip k) := by
  induction starts with
  | first nonempty =>
    have whole := Bytestream.holds_constructBuffer nonempty
    rw [whole.skip_zero]
    apply Called.first
    rw [whole.sizeEq]
    exact Nat.ne_of_gt (List.length_pos_iff.mpr nonempty)
  | next starts accepted inside ih =>
    rw [← Bytestream.skip_skip]
    apply Called.next ih (accepted.read starts.holds) (by decide)
    rw [starts.holds.size_skip, List.length_drop]
    omega

/-- It is called nowhere else. -/
theorem starts_of_called [Compilation] (bound : bs.length < 2 ^ 63) {s : Bytestream}
    (called : Called (Bytestream.constructBuffer bs) s) :
    ∃ k, Starts bs k ∧ s = (Bytestream.constructBuffer bs).skip k := by
  induction called with
  | first filled =>
    have nonempty : bs ≠ [] := by
      rintro rfl
      exact filled rfl
    exact ⟨0, Starts.first nonempty, (Bytestream.holds_constructBuffer nonempty).skip_zero.symm⟩
  | next _ read positive filled ih =>
    obtain ⟨k, starts, rfl⟩ := ih
    have small : (bs.drop k).length < 2 ^ 63 := by
      rw [List.length_drop]
      omega
    obtain ⟨accepted, rfl⟩ := accepted_of_read starts.holds small read positive
    rw [starts.holds.size_skip, List.length_drop] at filled
    exact ⟨_, Starts.next starts accepted (by omega), Bytestream.skip_skip _ _ _⟩

theorem Called.filled [Compilation] {s t : Bytestream} (called : Called s t) : t.size ≠ 0 := by
  cases called with
  | first nonempty => exact nonempty
  | next _ _ _ nonempty => exact nonempty

/-- From any call on, the loop goes on as if it had started there, with some packets read. -/
theorem unpackLoop_called [Compilation] {s t : Bytestream} (called : Called s t) (list : List TsPacket) :
    ∃ (count : Int) (read : List TsPacket), 0 ≤ count ∧ unpackLoop s 0 list = unpackLoop t count read := by
  induction called with
  | first _ => exact ⟨0, list, Int.le_refl 0, rfl⟩
  | @next t u n p called read positive _ ih =>
    obtain ⟨count, packets, positive', run⟩ := ih
    refine ⟨count + 1, packets ++ [p], by omega, ?_⟩
    rw [run, unpackLoop_read called.filled read positive]

/-- Where a call refuses its packet, `unpack` ends. -/
theorem unpack_refused [Compilation] {s t : Bytestream} {p : TsPacket} (called : Called s t) {u : Bytestream}
    (read : TsPacket.construct.unpack t = some (-1, p, u)) :
    ∃ (count : Int) (packets : TsPackets), 0 ≤ count ∧
      construct.unpack s = some (if u.valid then count else -1, packets, u) := by
  obtain ⟨count, packets, positive, run⟩ := unpackLoop_called called construct.list
  refine ⟨count, { construct with list := packets }, positive, ?_⟩
  rw [unpack, run, unpackLoop_stop called.filled read (by decide)]
  rfl

/-- Overlong private data ends the loop in a valid stream, and the packets before it count. -/
theorem not_reports [Compilation] {k : Nat} (bound : bs.length < 2 ^ 63) (starts : Starts bs k)
    (overlong : OverlongPrivate (bs.drop k)) : ¬ Reports bs := by
  intro reports
  have small : (bs.drop k).length < 2 ^ 63 := by
    rw [List.length_drop]
    omega
  obtain ⟨p, t, refused⟩ := unpack_overlong starts.holds small overlong
  have valid := (valid_of_refused starts.holds refused).2 overlong
  obtain ⟨count, packets, positive, run⟩ := unpack_refused starts.called refused
  obtain ⟨other, u, failed⟩ := reports ⟨_, p, t, starts.called, refused⟩
  rw [run, if_pos valid] at failed
  cases failed
  contradiction

/-- **Refused packets are reported** exactly when the decoder meets none with private data
that reaches behind the end of the input. -/
theorem reports_iff [Compilation] (bound : bs.length < 2 ^ 63) :
    Reports bs ↔ ∀ k, Starts bs k → ¬ OverlongPrivate (bs.drop k) := by
  constructor
  · intro reports k starts overlong
    exact not_reports bound starts overlong reports
  · rintro short ⟨s, p, t, called, refused⟩
    obtain ⟨k, starts, rfl⟩ := starts_of_called bound called
    obtain ⟨count, packets, -, run⟩ := unpack_refused called refused
    have invalid : ¬ t.valid = true := fun valid =>
      short k starts ((valid_of_refused starts.holds refused).1 valid)
    rw [if_neg invalid] at run
    exact ⟨packets, t, run⟩

end Run

section AtRunTime
attribute [local instance] Compilation.atRunTime

/-- An input of 187 zero bytes, too short for a packet. -/
theorem reports_iff_short : Reports (List.replicate 187 0) ↔
    ∀ k, Starts (List.replicate 187 0) k → ¬ OverlongPrivate ((List.replicate 187 0).drop k) :=
  reports_iff (by decide +kernel)

/-- Private data of 255 bytes in the last packet of an input: it is refused, and 0 is returned. -/
theorem not_reports_last : ¬ Reports ([0x47, 0, 0, 0x20, 183, 0x02, 255] ++ List.replicate 181 0) :=
  not_reports (k := 0) (by decide +kernel) (Starts.first (List.cons_ne_nil _ _)) (by decide +kernel)

end AtRunTime

end TsPackets
end Libts
