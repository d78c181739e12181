import Libts.Bytestream

/-!
# The packetized elementary stream

`ts_pes.c`: a start code with a stream identifier and a length, a header with optional time
stamps for all but two stream identifiers, and the payload to the end of the unit.
-/

namespace Libts
set_option autoImplicit false

open CArith

/-- `data` and `size` are one byte string. -/
structure TsPes where
  streamId : UInt8 := 0
  scramblingControl : BitVec 2 := 0
  priority : Bool := false
  dataAlignmentIndicator : Bool := false
  copyright : Bool := false
  originalOrCopy : Bool := false
  ptsIndicator : Bool := false
  dtsIndicator : Bool := false
  pts : BitVec 64 := 0
  dts : BitVec 64 := 0
  data : List UInt8 := []
  randomAccessIndicator : Bool := false
deriving Repr, DecidableEq

namespace TsPes

def construct : TsPes := {}

/-- `ts_pes_ts_pack`. -/
def tsPack (t : BitVec 64) (s : Bytestream) (ptsIndicator dtsIndicator : Bool) : Bytestream :=
  let s := s.write8 (
    writeBits ptsIndicator.toNat 8 2 1 |||
    writeBits dtsIndicator.toNat 8 3 1 |||
    writeBits (t >>> 30).toNat 8 4 3 |||
    writeBits 1 8 7 1)
  s.write32 (
    writeBits (t >>> 15).toNat 32 0 15 |||
    writeBits 1 32 15 1 |||
    writeBits t.toNat 32 16 15 |||
    writeBits 1 32 31 1)

/-- `ts_pes_ts_unpack`. -/
def tsUnpack (s : Bytestream) : Int × BitVec 64 × Bytestream :=
  let (v, s) := s.read8
  let t := BitVec.ofNat 64 (readBits v 8 4 3)
  let (v, s) := s.read16
  let t := (t <<< 15) + BitVec.ofNat 64 (readBits v 16 0 15)
  let (v, s) := s.read16
  let t := (t <<< 15) + BitVec.ofNat 64 (readBits v 16 0 15)
  (s.result, t, s)

def headerSize (p : TsPes) : Nat := 3 + (if p.ptsIndicator then 5 else 0) + (if p.dtsIndicator then 5 else 0)

def headerPackStream (p : TsPes) (s : Bytestream) : Int × Bytestream :=
  let s := s.write16 (
    writeBits 0x02 16 0 2 |||
    writeBits p.dataAlignmentIndicator.toNat 16 5 1 |||
    writeBits p.ptsIndicator.toNat 16 8 1 |||
    writeBits p.dtsIndicator.toNat 16 9 1)
  let s := s.write8 (p.headerSize - 3)
  let s := if p.ptsIndicator then tsPack p.pts s p.ptsIndicator p.dtsIndicator else s
  let s := if p.dtsIndicator then tsPack p.dts s false p.dtsIndicator else s
  (s.result, s)

/-- A video stream may leave its length open. -/
def isVideo (p : TsPes) : Bool := decide (0xe0 ≤ p.streamId) && decide (p.streamId < 0xf0)

/-- Padding and private stream 2 have no header. -/
def hasHeader (p : TsPes) : Bool := p.streamId != 0xbe && p.streamId != 0xbf

def packStream (p : TsPes) (s : Bytestream) : Int × Bytestream :=
  let s := s.write32 (writeBits 1 32 23 1 ||| writeBits p.streamId.toNat 32 24 8)
  let len := intOfSize (p.headerSize + p.data.length)
  let len := if p.isVideo ∧ len ≥ 65536 then 0 else len
  if len ≥ 65536 then (-1, s)
  else
    let s := s.write16 (uint64OfInt len)
    let (n, s) := if p.hasHeader then p.headerPackStream s else (1, s)
    if n = -1 then (-1, s)
    else
      let s := s.write p.data
      (s.result, s)

/-- A time stamp of `unpackStream`, with what it leaves of the header length. -/
def unpackTimestamp (wanted : Bool) (t : BitVec 64) (len : Nat) (s : Bytestream) :
    Int × BitVec 64 × Nat × Bytestream :=
  if wanted then
    let (n, t, s) := tsUnpack s
    if n = -1 ∨ len < 5 ∨ !s.valid then (-1, t, len, s) else (1, t, len - 5, s)
  else (1, t, len, s)

/-- The assignments of `unpackStream` from the flags word. -/
def setFlags (p : TsPes) (v : Nat) : TsPes :=
  { p with
    scramblingControl := BitVec.ofNat 2 (readBits v 16 2 2)
    priority := flag (readBits v 16 4 1)
    dataAlignmentIndicator := flag (readBits v 16 5 1)
    copyright := flag (readBits v 16 6 1)
    originalOrCopy := flag (readBits v 16 7 1)
    ptsIndicator := flag (readBits v 16 8 1)
    dtsIndicator := flag (readBits v 16 9 1) }

/-- The header of `unpackStream`. -/
def unpackHeader (p : TsPes) (s : Bytestream) : Int × TsPes × Bytestream :=
  let (v, s) := s.read16
  if readBits v 16 0 2 ≠ 0x02 then (-1, p, s)
  else
    let p := p.setFlags v
    let (len, s) := s.read8
    let (n, pts, len, s) := unpackTimestamp p.ptsIndicator p.pts len s
    let p := { p with pts := pts }
    if n = -1 then (-1, p, s)
    else
      let (n, dts, len, s) := unpackTimestamp p.dtsIndicator p.dts len s
      let p := { p with dts := dts }
      if n = -1 then (-1, p, s) else (1, p, s.skip len)

def unpackStream (p : TsPes) (s : Bytestream) : Int × TsPes × Bytestream :=
  let (v, s) := s.read32
  let v := uint64OfInt (intOfSize v)
  if readBits v 32 0 24 ≠ 0x000001 then (-1, p, s)
  else
    let p := { p with streamId := UInt8.ofNat (readBits v 32 24 8) }
    let (len, s) := s.read16
    if (!p.isVideo ∧ len = 0) ∨ (len ≠ 0 ∧ len ≠ s.size) then (-1, p, s)
    else
      let (n, p, s) := if p.hasHeader then p.unpackHeader s else (1, p, s)
      if n = -1 ∨ !s.valid then (-1, p, s)
      else (1, { p with data := (s.bytestreamData.getD []).take s.size }, s)

def packBuffer (p : TsPes) (b : Buffer) : Int × Buffer :=
  let (n, s) := p.packStream (Bytestream.constructBuffer b)
  (n, s.store)

def unpackBuffer (p : TsPes) (b : Buffer) : Int × TsPes :=
  let (n, p, _) := p.unpackStream (Bytestream.constructBuffer b)
  (n, p)

end TsPes
end Libts
