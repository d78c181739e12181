import Libts.Packet.RoundTrip
import Mathlib.Data.List.Chain

/-!
# Continuity counters

`ts_packets_pack` assigns a packet the counter of its PID and advances the counter for the
next packet if this one was given with a payload bit. The law of the transport stream
advances it for a packet that is emitted with a payload. So the counters are continuous
exactly when each packet's payload bit announces the payload of the next packet of its PID
(`continuity_iff`).
-/

namespace Libts
set_option autoImplicit false

namespace TsPackets
open TsPacket

/-- The law of the counter, from an emitted packet to the next of its PID. -/
def Continuous (earlier later : TsPacket) : Prop :=
  later.continuityCounter =
    if later.hasPayload then earlier.continuityCounter + 1 else earlier.continuityCounter

/-- The payload bit of a packet as it was given says whether the next has a payload. -/
def Announces (earlier later : TsPacket) : Prop := earlier.hasPayload = decide (later.payloadSize ≠ 0)

/-- `R` holds between any two consecutive packets of one PID. -/
def PidChain (R : TsPacket → TsPacket → Prop) (ps : List TsPacket) : Prop :=
  ∀ pid : BitVec 13, (ps.filter (·.pid = pid)).IsChain R

/-- The packets of one PID as `pack` leaves them, from its counter. -/
def numbered (value : BitVec 32) : List TsPacket → List TsPacket
  | [] => []
  | p :: ps =>
    { p with continuityCounter := value.setWidth 4 }.normalised ::
      numbered (value + if p.hasPayload then 1 else 0) ps

variable {ps : List TsPacket}

/-- The counter of a PID depends on the packets of that PID alone. -/
theorem filter_packed (pid : BitVec 13) (counters : List TsPacketsCounter) (ps : List TsPacket) :
    (packed counters ps).filter (·.pid = pid) =
      numbered (counterOf counters pid.toNat) (ps.filter (·.pid = pid)) := by
  induction ps generalizing counters with
  | nil => rfl
  | cons p ps ih =>
    have kept : ({ p with continuityCounter := (counterOf counters p.pid.toNat).setWidth 4 } : TsPacket).normalised.pid =
        p.pid := by
      rw [normalised_eq]
    rw [packed, List.filter_cons, List.filter_cons, ih, counterOf_countPacket, kept]
    obtain own | apart := eq_or_ne p.pid pid
    · simp [own, numbered]
    · have other : ¬ ((pid.toNat : Int) = p.pid.toNat ∧ p.hasPayload = true) := by
        rintro ⟨same, -⟩
        apply apart
        apply BitVec.eq_of_toNat_eq
        omega
      simp only [apart, decide_false, Bool.false_eq_true, if_false, if_neg other]
      rw [show counterOf counters (pid.toNat : Int) + 0 = counterOf counters (pid.toNat : Int) from BitVec.add_zero _]

/-- One step of the law. -/
theorem continuous_iff (value : BitVec 32) (p q : TsPacket) :
    Continuous ({ p with continuityCounter := value.setWidth 4 } : TsPacket).normalised
        ({ q with continuityCounter := (value + if p.hasPayload then 1 else 0).setWidth 4 } : TsPacket).normalised ↔
      Announces p q := by
  have counter : ∀ (r : TsPacket) (c : BitVec 4),
      ({ r with continuityCounter := c } : TsPacket).normalised.continuityCounter = c := by
    intro r c
    rw [normalised_eq]
  have low : (value + 1#32).setWidth 4 = value.setWidth 4 + 1#4 := BitVec.setWidth_add value 1 (by decide)
  rw [Continuous, Announces, counter, counter, hasPayload_normalised]
  rw [show ({ q with continuityCounter := (value + if p.hasPayload then 1 else 0).setWidth 4 } :
    TsPacket).payloadSize = q.payloadSize from rfl]
  cases p.hasPayload <;> cases decide (q.payloadSize ≠ 0)
  · simp
  · simp
  · simp [low]
  · simp [low]

/-- A run of the law. -/
theorem isChain_numbered (value : BitVec 32) (ps : List TsPacket) :
    (numbered value ps).IsChain Continuous ↔ ps.IsChain Announces := by
  induction ps generalizing value with
  | nil => simp [numbered]
  | cons p ps ih =>
    cases ps with
    | nil => simp [numbered]
    | cons q qs =>
      have rest := ih (value + if p.hasPayload then 1 else 0)
      rw [numbered] at rest
      rw [numbered, numbered, List.isChain_cons_cons, List.isChain_cons_cons, rest, continuous_iff]

/-- The header an emitted packet carries. -/
theorem wireHeader_emitted (p : TsPacket) :
    (wireHeader p.bytes).pid = p.pid ∧ (wireHeader p.bytes).hasPayload = p.hasPayload ∧
      (wireHeader p.bytes).continuityCounter = p.continuityCounter := by
  have header := wireHeader_bytes (p := p) []
  rw [List.append_nil] at header
  rw [header]
  exact ⟨rfl, rfl, rfl⟩

theorem pidChain_emitted (ps : List TsPacket) :
    PidChain Continuous (ps.map fun p => wireHeader p.bytes) ↔ PidChain Continuous ps := by
  have law : ∀ p q : TsPacket, Continuous (wireHeader p.bytes) (wireHeader q.bytes) ↔ Continuous p q := by
    intro p q
    obtain ⟨-, -, counter⟩ := wireHeader_emitted p
    obtain ⟨-, payload, other⟩ := wireHeader_emitted q
    rw [Continuous, Continuous, counter, payload, other]
  have own : ∀ pid : BitVec 13, (ps.map fun p => wireHeader p.bytes).filter (·.pid = pid) =
      (ps.filter (·.pid = pid)).map fun p => wireHeader p.bytes := by
    intro pid
    induction ps with
    | nil => rfl
    | cons p ps ih =>
      rw [List.map_cons, List.filter_cons, List.filter_cons, (wireHeader_emitted p).1, ih]
      obtain same | apart := eq_or_ne p.pid pid
      · simp only [same, decide_true, if_true, List.map_cons]
      · simp only [apart, decide_false, Bool.false_eq_true, if_false]
  apply forall_congr'
  intro pid
  rw [own, List.isChain_map]
  simp only [law]

/-- **The continuity counters** of the emitted packets are continuous exactly when every
packet announces the next of its PID. -/
theorem continuity_iff (ps : List TsPacket) :
    ∃ left s, ({ list := ps } : TsPackets).pack (Bytestream.constructBuffer []) = ((ps.length : Int), left, s) ∧
      s.store = (left.list.map bytes).flatten ∧
      (PidChain Continuous (left.list.map fun p => wireHeader p.bytes) ↔ PidChain Announces ps) := by
  refine ⟨_, _, pack_eq { list := ps } rfl, store_foldl_write rfl _, ?_⟩
  rw [pidChain_emitted]
  constructor
  · intro chain pid
    have one := chain pid
    rw [filter_packed, isChain_numbered] at one
    exact one
  · intro chain pid
    rw [filter_packed, isChain_numbered]
    exact chain pid

/-- A packet without payload that follows one with a payload. -/
theorem not_continuity_adaptation :
    ∃ left s, ({ list := [{ pid := 256, adaptationFieldControl := 1, payloadData := [0] },
          { pid := 256, adaptationFieldControl := 2 }] } : TsPackets).pack (Bytestream.constructBuffer []) =
        ((2 : Int), left, s) ∧
      s.store = (left.list.map bytes).flatten ∧
      ¬ PidChain Continuous (left.list.map fun p => wireHeader p.bytes) := by
  refine ⟨_, _, pack_eq _ rfl, store_foldl_write rfl _, ?_⟩
  rw [pidChain_emitted]
  intro chain
  have one := chain 256
  rw [filter_packed, isChain_numbered] at one
  have announced : Announces _ _ := one.rel
  exact absurd announced (by unfold Announces; decide)

end TsPackets
end Libts
