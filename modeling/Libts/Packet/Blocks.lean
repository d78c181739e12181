import Libts.Packet.Isolation
import Libts.Packet.Recoding

/-!
# A file block by block

Which packets are decoded of a file whose 188-byte blocks are framed (`unpack_reached`), and what is found at the
blocks of a file that the encoder wrote (`block_settled`): the two ends between which `remux_packets` carries block
`i` to block `i`.
-/

namespace Libts
set_option autoImplicit false

open CArith

namespace TsPackets
open TsPacket

/-- Every 188-byte block of the file is framed, with private data that the encoder keeps. Behind the last one there may
be fewer than 188 bytes. -/
structure Whole (bs : List UInt8) : Prop where
  nonempty : bs ≠ []
  reached : Reached bs (bs.length / 188)
  keeps : ∀ i < bs.length / 188, ¬ LosesPrivateData (bs.drop (188 * i))

/-- The packets of the blocks of a file. -/
def wirePackets [Compilation] (bs : List UInt8) : List TsPacket :=
  (List.range (bs.length / 188)).map fun i => wirePacket (bs.drop (188 * i))

section Read

variable [Compilation] {bs : List UInt8} {i : Nat}

theorem getElem?_wirePackets (inside : i < bs.length / 188) :
    (wirePackets bs)[i]? = some (wirePacket (bs.drop (188 * i))) := by
  rw [wirePackets, List.getElem?_map, List.getElem?_range inside]
  rfl

/-- The loop from the `i`-th block on. The induction is on the blocks that are left. -/
theorem unpackLoop_reached (nonempty : bs ≠ []) (reached : Reached bs (bs.length / 188)) (m : Nat) :
    ∀ (i : Nat) (count : Int) (list : List TsPacket), i + m = bs.length / 188 →
      unpackLoop ((Bytestream.constructBuffer bs).skip (188 * i)) count list =
        some (count + m, list ++ (List.range' i m).map fun j => wirePacket (bs.drop (188 * j)),
          (Bytestream.constructBuffer bs).skip (188 * (bs.length / 188))) := by
  induction m with
  | zero =>
    intro i count list last
    obtain rfl : i = bs.length / 188 := by omega
    have h := holds_drop nonempty (by omega : 188 * (bs.length / 188) ≤ bs.length)
    have few : (bs.drop (188 * (bs.length / 188))).length < 188 := by
      rw [List.length_drop]
      omega
    have same : unpackLoop ((Bytestream.constructBuffer bs).skip (188 * (bs.length / 188))) count list =
        some (count, list, (Bytestream.constructBuffer bs).skip (188 * (bs.length / 188))) := by
      obtain empty | filled := eq_or_ne (((Bytestream.constructBuffer bs).skip (188 * (bs.length / 188))).size) 0
      · exact unpackLoop_empty empty
      · -- what is left is too short for a packet
        exact unpackLoop_stop filled (unpack_short h few _) (le_refl 0)
    rw [same]
    simp
  | succ m ih =>
    intro i count list left
    have inside : i < bs.length / 188 := by omega
    have h := holds_drop nonempty (by omega : 188 * i ≤ bs.length)
    rw [unpackLoop_framed h (reached i inside), Bytestream.skip_skip, ← Nat.mul_succ, ih (i + 1) _ _ (by omega),
      List.range'_succ, List.map_cons, List.append_assoc]
    simp only [List.cons_append, List.nil_append, Option.some.injEq, Prod.mk.injEq, and_true]
    omega

/-- **Framed blocks are decoded one by one**; what is left behind them is not looked at. -/
theorem unpack_reached (nonempty : bs ≠ []) (reached : Reached bs (bs.length / 188)) :
    construct.unpack (Bytestream.constructBuffer bs) =
      some (((bs.length / 188 : Nat) : Int), { list := wirePackets bs },
        (Bytestream.constructBuffer bs).skip (188 * (bs.length / 188))) := by
  have h := Bytestream.holds_constructBuffer nonempty
  have run := unpackLoop_reached nonempty reached (bs.length / 188) 0 0 [] (Nat.zero_add _)
  rw [Nat.mul_zero, h.skip_zero, Int.zero_add, List.nil_append, ← List.range_eq_range'] at run
  have valid := (h.skip (n := 188 * (bs.length / 188)) (by omega)).isValid
  simp only [unpack, construct, run, Option.map_some, if_pos valid]
  rfl

/-- The encoder can write what it decodes of whole blocks. -/
theorem Whole.encodable (whole : Whole bs) : ∀ p ∈ wirePackets bs, p.Encodable := by
  intro p member
  obtain ⟨i, there, rfl⟩ := List.mem_map.mp member
  have inside := List.mem_range.mp there
  exact (whole.reached i inside).encodable (whole.keeps i inside)

end Read

section Written

variable {ps : List TsPacket} {i : Nat} {p : TsPacket}

theorem drop_flatten {bs : List (List UInt8)} (widths : ∀ b ∈ bs, b.length = 188) (i : Nat) :
    bs.flatten.drop (188 * i) = (bs.drop i).flatten := by
  induction bs generalizing i with
  | nil => rw [List.flatten_nil, List.drop_nil, List.drop_nil, List.flatten_nil]
  | cons b bs ih =>
    cases i with
    | zero => rfl
    | succ i =>
      rw [List.flatten_cons, Nat.mul_succ, Nat.add_comm, ← List.drop_drop,
        List.drop_left' (widths b List.mem_cons_self), ih fun c later => widths c (List.mem_cons_of_mem b later)]
      rfl

/-- A packet among those that are packed, with the counter it is given. -/
theorem getElem?_packed (counters : List TsPacketsCounter) (ps : List TsPacket) (i : Nat) :
    (packed counters ps)[i]? = ps[i]?.map fun p =>
      ({ p with continuityCounter := (counterOf (counted counters (ps.take i)) p.pid.toNat).setWidth 4 } :
        TsPacket).normalised := by
  induction ps generalizing counters i with
  | nil => rfl
  | cons p ps ih =>
    cases i with
    | zero => rfl
    | succ i => exact ih (countPacket counters p) i

theorem counter_counted (ps : List TsPacket) (pid : Int) :
    (counterOf (counted [] ps) pid).setWidth 4 = BitVec.ofNat 4 (payloads pid ps) := by
  have start : counterOf [] pid = 0#32 := rfl
  rw [counterOf_counted, start, BitVec.zero_add, BitVec.setWidth_ofNat_of_le (by decide)]

/-- A block of what settled packets are written to. -/
theorem block_settled (settled : ∀ p ∈ ps, p.Settled) (at_i : ps[i]? = some p) :
    ∃ rest, ((ps.map TsPacket.bytes).flatten).drop (188 * i) = p.bytes ++ rest := by
  obtain ⟨inside, rfl⟩ := List.getElem?_eq_some_iff.mp at_i
  refine ⟨((ps.drop (i + 1)).map TsPacket.bytes).flatten, ?_⟩
  rw [drop_flatten (widths_settled settled), ← List.map_drop, List.drop_eq_getElem_cons inside]
  rfl

end Written

end TsPackets
end Libts
