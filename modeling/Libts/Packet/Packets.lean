import Libts.Base.FindOrInsert
import Libts.Packet.Packet

/-!
# Packet lists

`ts_packets.c`: packing assigns a continuity counter to each packet from a table with one
entry per PID and writes the packets one after the other (`packLoop_eq`); unpacking calls
the packet decoder until the stream is empty or a packet is not read.
-/

namespace Libts
set_option autoImplicit false

open CArith

/-- `value` is an `int`. -/
structure TsPacketsCounter where
  pid : Int
  value : BitVec 32 := 0
deriving Repr, DecidableEq

structure TsPackets where
  list : List TsPacket := []
  counters : List TsPacketsCounter := []
deriving Repr, DecidableEq

namespace TsPackets

def construct : TsPackets := {}

/-- The counter `lookupCounter` appends for a PID it does not find. -/
def freshCounter (pid : Int) : TsPacketsCounter := { pid := pid }

/-- `ts_packets_lookup_counter`, with the position of the counter in the vector for its
address. -/
def lookupCounter (counters : List TsPacketsCounter) (pid : Int) : List TsPacketsCounter × Nat :=
  FindOrInsert.slot TsPacketsCounter.pid freshCounter pid counters

/-- `counter->value ++`. -/
def advance (c : TsPacketsCounter) : TsPacketsCounter := { c with value := c.value + 1 }

/-- The loop of `pack`. A refused packet ends it with the packets behind it untouched. -/
def packLoop : List TsPacket → List TsPacketsCounter → Bytestream → Int →
    Int × List TsPacket × List TsPacketsCounter × Bytestream
  | [], counters, s, count => (count, [], counters, s)
  | p :: ps, counters, s, count =>
    let (counters, counter) := lookupCounter counters p.pid.toNat
    let value := (counters[counter]?.getD (freshCounter p.pid.toNat)).value
    let counters := if p.hasPayload then counters.modify counter advance else counters
    let (n, p, s) := { p with continuityCounter := value.setWidth 4 }.pack s
    if n = -1 then (-1, p :: ps, counters, s)
    else
      let (count, ps, counters, s) := packLoop ps counters s (count + 1)
      (count, p :: ps, counters, s)

def pack (packets : TsPackets) (s : Bytestream) : Int × TsPackets × Bytestream :=
  let (count, list, counters, s) := packLoop packets.list packets.counters s 0
  (count, { list := list, counters := counters }, s)

/-- The loop of `unpack`; `none` is the `abort` of the packet decoder. -/
def unpackLoop [Compilation] (s : Bytestream) (count : Int) (list : List TsPacket) :
    Option (Int × List TsPacket × Bytestream) :=
  if nonempty : s.size = 0 then some (count, list, s)
  else
    match read : TsPacket.construct.unpack s with
    | none => none
    | some (n, packet, t) =>
      if failed : n ≤ 0 then some (count, list, t)
      else
        have shorter : t.size < s.size := TsPacket.unpack_size_lt read (by omega) nonempty
        unpackLoop t (count + 1) (list ++ [packet])
termination_by s.size

def unpack [Compilation] (packets : TsPackets) (s : Bytestream) : Option (Int × TsPackets × Bytestream) :=
  (unpackLoop s 0 packets.list).map fun (count, list, s) =>
    (if s.valid then count else -1, { packets with list := list }, s)

/-! ## Packing -/

/-- The value of a PID's counter. -/
def counterOf (counters : List TsPacketsCounter) (pid : Int) : BitVec 32 :=
  (FindOrInsert.entry TsPacketsCounter.pid freshCounter pid counters).value

/-- The table after a packet. -/
def countPacket (counters : List TsPacketsCounter) (p : TsPacket) : List TsPacketsCounter :=
  FindOrInsert.update TsPacketsCounter.pid freshCounter p.pid.toNat (if p.hasPayload then advance else id) counters

/-- The packets as `pack` leaves them. -/
def packed (counters : List TsPacketsCounter) : List TsPacket → List TsPacket
  | [] => []
  | p :: ps =>
    { p with continuityCounter := (counterOf counters p.pid.toNat).setWidth 4 }.normalised ::
      packed (countPacket counters p) ps

/-- The table `pack` leaves. -/
def counted (counters : List TsPacketsCounter) (ps : List TsPacket) : List TsPacketsCounter :=
  ps.foldl countPacket counters

@[simp] theorem length_packed (counters : List TsPacketsCounter) (ps : List TsPacket) :
    (packed counters ps).length = ps.length := by
  induction ps generalizing counters with
  | nil => rfl
  | cons p ps ih => simp [packed, ih]

/-- Counting keeps the PID of an entry. -/
theorem pid_counting (p : TsPacket) (c : TsPacketsCounter) : ((if p.hasPayload then advance else id) c).pid = c.pid := by
  split <;> rfl

theorem counterOf_countPacket (counters : List TsPacketsCounter) (p : TsPacket) (pid : Int) :
    counterOf (countPacket counters p) pid =
      counterOf counters pid + if pid = p.pid.toNat ∧ p.hasPayload then 1 else 0 := by
  unfold counterOf countPacket
  rw [FindOrInsert.entry_update (fun _ => rfl) (pid_counting p)]
  obtain same | other := eq_or_ne pid p.pid.toNat
  · rw [if_pos same, same]
    by_cases payload : p.hasPayload = true
    · rw [if_pos payload, if_pos ⟨rfl, payload⟩]
      rfl
    · rw [if_neg payload, if_neg (fun both => payload both.2)]
      exact (BitVec.add_zero _).symm
  · rw [if_neg other, if_neg (fun both => other both.1)]
    exact (BitVec.add_zero _).symm

/-- The whole effect of the loop on a stream with a buffer. -/
theorem packLoop_eq (ps : List TsPacket) (counters : List TsPacketsCounter) {s : Bytestream}
    (h : s.attached = true) (count : Int) :
    packLoop ps counters s count =
      (count + ps.length, packed counters ps, counted counters ps,
        ((packed counters ps).map TsPacket.bytes).foldl Bytestream.write s) := by
  induction ps generalizing counters s count with
  | nil => simp [packLoop, packed, counted]
  | cons p ps ih =>
    have value : ((lookupCounter counters p.pid.toNat).1[(lookupCounter counters p.pid.toNat).2]?.getD
        (freshCounter p.pid.toNat)).value = counterOf counters p.pid.toNat := by
      rw [lookupCounter, FindOrInsert.getElem?_slot]
      rfl
    have table : (if p.hasPayload then
          (lookupCounter counters p.pid.toNat).1.modify (lookupCounter counters p.pid.toNat).2 advance
        else (lookupCounter counters p.pid.toNat).1) = countPacket counters p := by
      unfold countPacket lookupCounter
      by_cases payload : p.hasPayload = true
      · rw [if_pos payload, if_pos payload]
        rfl
      · rw [if_neg payload, if_neg payload, FindOrInsert.slot_fst]
    have accepted : ¬ (1 : Int) = -1 := by decide
    have step := ih (countPacket counters p)
      (Bytestream.attached_write h
        { p with continuityCounter := (counterOf counters p.pid.toNat).setWidth 4 }.normalised.bytes) (count + 1)
    simp only [packLoop, value, table, TsPacket.pack_eq _ h, if_neg accepted, step]
    simp only [packed, counted, List.length_cons, List.map_cons, List.foldl_cons, Prod.mk.injEq, and_true]
    omega

/-- The whole effect of `pack` on a stream with a buffer. -/
theorem pack_eq (packets : TsPackets) {s : Bytestream} (h : s.attached = true) :
    packets.pack s =
      ((packets.list.length : Int),
        { list := packed packets.counters packets.list, counters := counted packets.counters packets.list },
        ((packed packets.counters packets.list).map TsPacket.bytes).foldl Bytestream.write s) := by
  rw [pack, packLoop_eq _ _ h]
  simp

/-- The bytes `pack` leaves in a buffer. -/
theorem store_foldl_write {s : Bytestream} (h : s.attached = true) (bs : List (List UInt8)) :
    (bs.foldl Bytestream.write s).store = s.store ++ bs.flatten := by
  induction bs generalizing s with
  | nil => simp
  | cons b bs ih =>
    rw [List.foldl_cons, ih (Bytestream.attached_write h b), Bytestream.store_write h]
    simp

/-! ## Unpacking -/

section Unpacking

variable [Compilation] {s t : Bytestream} {count n : Int} {list : List TsPacket} {packet : TsPacket}

theorem unpackLoop_empty (empty : s.size = 0) : unpackLoop s count list = some (count, list, s) := by
  rw [unpackLoop, dif_pos empty]

theorem unpackLoop_read (nonempty : s.size ≠ 0) (read : TsPacket.construct.unpack s = some (n, packet, t))
    (positive : 0 < n) : unpackLoop s count list = unpackLoop t (count + 1) (list ++ [packet]) := by
  rw [unpackLoop, dif_neg nonempty]
  split
  · rename_i aborted
    rw [aborted] at read
    cases read
  · rename_i other
    rw [other] at read
    cases read
    rw [dif_neg (by omega)]

theorem unpackLoop_stop (nonempty : s.size ≠ 0) (read : TsPacket.construct.unpack s = some (n, packet, t))
    (failed : n ≤ 0) : unpackLoop s count list = some (count, list, t) := by
  rw [unpackLoop, dif_neg nonempty]
  split
  · rename_i aborted
    rw [aborted] at read
    cases read
  · rename_i other
    rw [other] at read
    cases read
    rw [dif_pos failed]

/-- A framed packet is one turn of the loop. -/
theorem unpackLoop_framed {l : List UInt8} (h : s.Holds l) (framed : TsPacket.Framed l) (count : Int)
    (list : List TsPacket) :
    unpackLoop s count list = unpackLoop (s.skip 188) (count + 1) (list ++ [TsPacket.wirePacket l]) := by
  have long := framed.long
  have nonempty : s.size ≠ 0 := by
    rw [h.sizeEq]
    omega
  exact unpackLoop_read nonempty (framed.unpack h) (by decide)

/-- A stream of blocks that are framed whatever follows them is read block by block. -/
theorem unpackLoop_blocks (blocks : List (List UInt8)) (h : s.Holds blocks.flatten)
    (size : ∀ b ∈ blocks, b.length = 188) (framed : ∀ b ∈ blocks, ∀ rest, TsPacket.Framed (b ++ rest))
    (count : Int) (list : List TsPacket) :
    unpackLoop s count list =
      some (count + blocks.length, list ++ blocks.map TsPacket.wirePacket, s.skip (188 * blocks.length)) := by
  induction blocks generalizing s count list with
  | nil =>
    rw [unpackLoop_empty h.sizeEq]
    simp [h.skip_zero]
  | cons b bs ih =>
    have width := size b List.mem_cons_self
    have front := framed b List.mem_cons_self bs.flatten
    have same : TsPacket.wirePacket (b ++ bs.flatten) = TsPacket.wirePacket b := by
      rw [← front.wirePacket_take, List.take_left' width]
    rw [List.flatten_cons] at h
    have rest : (s.skip 188).Holds bs.flatten := h.skip_append width
    rw [unpackLoop_framed h front, same, ih rest (fun c member => size c (List.mem_cons_of_mem b member))
      (fun c member => framed c (List.mem_cons_of_mem b member)), Bytestream.skip_skip]
    have stream : 188 + 188 * bs.length = 188 * (b :: bs).length := by
      rw [List.length_cons]
      omega
    rw [stream]
    simp
    omega

end Unpacking

end TsPackets
end Libts
