import Libts.Packet.Packets

/-!
# The unit

`ts_unit.c`: the payloads of one PID from one start indicator to the next. `pack` cuts the
data of a unit into packets of its PID. The first of them has the start indicator and the
flags of the unit; a packet takes as many bytes as its header leaves.
-/

namespace Libts
set_option autoImplicit false

open CArith

structure TsUnit where
  pid : BitVec 13 := 0
  randomAccessIndicator : Bool := false
  pcrFlag : Bool := false
  pcr : BitVec 64 := 0
  data : Buffer := []
deriving Repr, DecidableEq

namespace TsUnit

def construct (pid : BitVec 13) (randomAccessIndicator : Bool) : TsUnit :=
  { pid := pid, randomAccessIndicator := randomAccessIndicator }

/-- `buffer_compact` gives memory back and leaves the bytes. -/
def compact (u : TsUnit) : TsUnit := u

/-- The `count`-th packet of a unit, without its payload. -/
def packet (u : TsUnit) (count : Nat) : TsPacket :=
  let p := { TsPacket.construct with
    pid := u.pid
    adaptationFieldControl := TsPacket.construct.adaptationFieldControl ||| 1#2 }
  if count = 0 then
    let p := { p with payloadUnitStartIndicator := true }
    let p := if u.randomAccessIndicator
      then { p with
        adaptationField := { p.adaptationField with randomAccessIndicator := true }
        adaptationFieldControl := p.adaptationFieldControl ||| 2#2 }
      else p
    if u.pcrFlag
      then { p with
        adaptationField := { p.adaptationField with pcrFlag := true, pcr := u.pcr }
        adaptationFieldControl := p.adaptationFieldControl ||| 2#2 }
      else p
  else p

/-- The bytes a packet has room for. -/
def room (u : TsUnit) (count : Nat) : Nat := sizeSub 188 (u.packet count).size

theorem packet_eq (u : TsUnit) (count : Nat) : u.packet count =
    { pid := u.pid
      payloadUnitStartIndicator := decide (count = 0)
      adaptationFieldControl := if count = 0 ∧ (u.randomAccessIndicator ∨ u.pcrFlag) then 3 else 1
      adaptationField :=
        { randomAccessIndicator := decide (count = 0) && u.randomAccessIndicator
          pcrFlag := decide (count = 0) && u.pcrFlag
          pcr := if count = 0 ∧ u.pcrFlag then u.pcr else 0 } } := by
  unfold packet
  obtain first | later := eq_or_ne count 0
  · cases random : u.randomAccessIndicator <;> cases pcr : u.pcrFlag <;> simp [first, TsPacket.construct]
  · simp [later, TsPacket.construct]

theorem size_packet (u : TsUnit) (count : Nat) : (u.packet count).size =
    4 + if count = 0 ∧ (u.randomAccessIndicator ∨ u.pcrFlag) then 2 + (if u.pcrFlag then 6 else 0) else 0 := by
  rw [packet_eq]
  simp only [TsPacket.size, TsPacket.hasAdaptationField, TsAdaptationField.size, TsPacket.payloadSize]
  obtain first | later := eq_or_ne count 0
  · cases random : u.randomAccessIndicator <;> cases pcr : u.pcrFlag <;> simp [first]
  · simp [later]

/-- Every packet has room for 176 bytes at least. -/
theorem room_eq (u : TsUnit) (count : Nat) : u.room count = 188 - (u.packet count).size ∧ 176 ≤ u.room count := by
  have size := u.size_packet count
  have small : (u.packet count).size ≤ 12 := by
    rw [size]
    split
    · split <;> omega
    · omega
  have room : u.room count = 188 - (u.packet count).size := sizeSub_of_le (by omega) (by omega)
  omega

/-- The loop of `pack` on the bytes that are left. -/
def packLoop (u : TsUnit) (base : List UInt8) (count : Nat) : List TsPacket :=
  if empty : base.length = 0 then []
  else
    let payloadSize := min (u.room count) base.length
    have shorter : (base.drop payloadSize).length < base.length := by
      have room := (u.room_eq count).2
      rw [List.length_drop]
      omega
    { u.packet count with payloadData := base.take payloadSize } ::
      packLoop u (base.drop payloadSize) (count + 1)
termination_by base.length
decreasing_by exact shorter

def pack (u : TsUnit) (packets : TsPackets) : Int × TsPackets :=
  (0, { packets with list := packets.list ++ u.packLoop u.data 0 })

def unpack (u : TsUnit) (p : TsPacket) : Int × TsUnit :=
  (0, { u with data := bufferInsert u.data u.data.length p.payloadData })

theorem unpack_eq (u : TsUnit) (p : TsPacket) : (u.unpack p).2 = { u with data := u.data ++ p.payloadData } := by
  simp [unpack, bufferInsert]

end TsUnit
end Libts
