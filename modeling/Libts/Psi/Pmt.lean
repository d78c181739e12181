import Libts.Psi.Psi

/-!
# The program map table

`ts_pmt.c`: a PID and a descriptor loop for the program, then a type, a PID and a descriptor
loop for each stream, up to the end of the section. A loop is kept as its first descriptor.
-/

namespace Libts
set_option autoImplicit false

open CArith

/-- `data` with its `size`; a descriptor with tag 0 is absent. -/
structure TsPmtDescriptor where
  tag : UInt8 := 0
  data : Block := default
deriving Repr, DecidableEq

structure TsPmtStream where
  streamType : UInt8 := 0
  elementaryPid : BitVec 13 := 0
  descriptor : TsPmtDescriptor := {}
deriving Repr, DecidableEq

structure TsPmt where
  id : Int := 0
  idExtension : Int := 0
  version : Int := 0
  pcrPid : BitVec 13 := 0
  descriptor : TsPmtDescriptor := {}
  streams : List TsPmtStream := []
deriving Repr, DecidableEq

namespace TsPmtDescriptor

def construct : TsPmtDescriptor := {}

def size (d : TsPmtDescriptor) : Nat := if d.tag ≠ 0 then d.data.size + 2 else 0

def pack (d : TsPmtDescriptor) (s : Bytestream) : Int × Bytestream :=
  let s := if d.tag ≠ 0
    then ((s.write8 d.tag.toNat).write8 d.data.size).write d.data.data
    else s
  (s.result, s)

/-- On the early return the source has the size without the data; no caller reads either
then. -/
def unpack (d : TsPmtDescriptor) (s : Bytestream) (len : Nat) : Int × TsPmtDescriptor × Bytestream :=
  if len < 2 ∨ len > s.size then (-1, d, s)
  else
    let (tag, s) := s.read8
    let d := { d with tag := UInt8.ofNat tag }
    let (size, s) := s.read8
    if size + 2 > len then (-1, d, s)
    else
      let (data, s) := s.readBlock (UInt8.ofNat size)
      let s := s.skip (len - size - 2)
      (s.result, { d with data := data }, s)

def equal (a b : TsPmtDescriptor) : Bool :=
  (a.tag == 0 && b.tag == 0) || (a.tag == b.tag && a.data.size == b.data.size && a.data.data == b.data.data)

/-- The copy of `src` replaces `dst`, which has no data of its own. -/
def copy (_dst src : TsPmtDescriptor) : TsPmtDescriptor := { tag := src.tag, data := src.data }

/-- A PID and a descriptor loop, as `TsPmt.packStream` writes them for the program and for
each stream. -/
def packInfo (d : TsPmtDescriptor) (pid : BitVec 13) (s : Bytestream) : Bytestream :=
  let s := s.write16 (writeBits 0x07 16 0 3 ||| writeBits pid.toNat 16 3 13)
  let s := s.write16 (writeBits 0x0f 16 0 4 ||| writeBits 0 16 4 2 ||| writeBits d.size 16 6 10)
  if d.size ≠ 0 then (d.pack s).2 else s

/-- The check `TsPmt.unpackStream` makes on the word in front of each loop. -/
def wrongInfo (v : Nat) : Bool :=
  readBits v 32 0 3 != 0x07 || readBits v 32 16 4 != 0x0f || readBits v 32 20 2 != 0x00

/-- The loop itself. -/
def unpackInfo (d : TsPmtDescriptor) (v : Nat) (s : Bytestream) : Int × TsPmtDescriptor × Bytestream :=
  let len := readBits v 32 22 10
  if len ≠ 0 then d.unpack s len else (1, d, s)

theorem unpack_later {s t : Bytestream} {n : Nat} (far : s.Later n t) (d : TsPmtDescriptor) (len : Nat) :
    s.Later n (d.unpack t len).2.2 := by
  simp only [unpack]
  split
  · exact far
  · split
    · exact (far.skip 1).skip 1
    · exact (((far.skip 1).skip 1).skip _).skip _

theorem unpackInfo_later {s t : Bytestream} {n : Nat} (far : s.Later n t) (d : TsPmtDescriptor) (v : Nat) :
    s.Later n (d.unpackInfo v t).2.2 := by
  simp only [unpackInfo]
  split
  · exact unpack_later far d _
  · exact far

end TsPmtDescriptor

namespace TsPmt

def construct : TsPmt := {}

/-- The loop of `packStream`. -/
def packStreams : List TsPmtStream → Bytestream → Bytestream
  | [], s => s
  | p :: ps, s => packStreams ps (p.descriptor.packInfo p.elementaryPid (s.write8 p.streamType.toNat))

/-- The section header of every table that is written. -/
def psi : TsPsi := { id := 0x02, idExtension := 0x01, version := 0, current := true }

def packStream (pmt : TsPmt) (s : Bytestream) : Option (Int × Bytestream) :=
  let (n, s) := TsPsi.pointerPack s
  if n = -1 then some (-1, s)
  else
    let pmtStream := Bytestream.constructBuffer []
    let pmtStream := pmt.descriptor.packInfo pmt.pcrPid pmtStream
    let pmtStream := packStreams pmt.streams pmtStream
    psi.packStream s pmtStream

def packBuffer (pmt : TsPmt) (b : Buffer) : Option (Int × Buffer) :=
  (pmt.packStream (Bytestream.constructBuffer b)).map fun (n, s) => (n, s.store)

/-- The stream loop of `unpackStream`. -/
def unpackStreams (pmt : TsPmt) (s : Bytestream) : Int × TsPmt × Bytestream :=
  if empty : s.size = 0 then (1, pmt, s)
  else
    let word := (s.skip 1).read32
    let v := uint64OfInt (intOfSize word.1)
    if TsPmtDescriptor.wrongInfo v then (-1, pmt, word.2)
    else
      let info := TsPmtDescriptor.construct.unpackInfo v word.2
      have shorter : info.2.2.size < s.size := by
        have far : s.Later 5 word.2 := by
          have skipped := s.later_skip 5
          rw [show s.skip 5 = word.2 from (s.skip_skip 1 4).symm] at skipped
          exact skipped
        exact (TsPmtDescriptor.unpackInfo_later far _ v).size_lt (by decide) empty
      if info.1 = -1 then (-1, pmt, info.2.2)
      else
        unpackStreams { pmt with streams := pmt.streams ++ [
          { streamType := UInt8.ofNat s.read8.1
            elementaryPid := BitVec.ofNat 13 (readBits v 32 3 13)
            descriptor := info.2.1 }] } info.2.2
termination_by s.size

/-- The section of `unpackStream`, in a stream of its own. -/
def unpackSection (pmt : TsPmt) (data : Bytestream) : Int × TsPmt :=
  let (word, data) := data.read32
  let v := uint64OfInt (intOfSize word)
  if TsPmtDescriptor.wrongInfo v then (-1, pmt)
  else
    let pmt := { pmt with pcrPid := BitVec.ofNat 13 (readBits v 32 3 13) }
    let (n, descriptor, data) := pmt.descriptor.unpackInfo v data
    let pmt := { pmt with descriptor := descriptor }
    if n = -1 then (-1, pmt)
    else
      let (n, pmt, data) := pmt.unpackStreams data
      if n = -1 then (-1, pmt)
      else if !data.valid ∨ pmt.id ≠ 0x02 then (-1, pmt)
      else (1, pmt)

def unpackStream (pmt : TsPmt) (s : Bytestream) : Int × TsPmt × Bytestream :=
  let (n, s) := TsPsi.pointerUnpack s
  if n ≤ 0 then (n, pmt, s)
  else
    let (n, psi, s) := TsPsi.constructStream s
    if n ≤ 0 then (n, pmt, s)
    else
      let pmt := { pmt with id := psi.id.toNat, idExtension := psi.idExtension.toNat, version := psi.version.toNat }
      let size := psi.sectionLength.toNat
      if size < 9 ∨ s.size + 5 < size then (-1, pmt, s)
      else
        let (n, pmt) := pmt.unpackSection (Bytestream.construct s.bytestreamData (size - 9))
        (n, pmt, s)

def unpackBuffer (pmt : TsPmt) (b : Buffer) : Int × TsPmt :=
  let (n, pmt, _) := pmt.unpackStream (Bytestream.constructBuffer b)
  (n, pmt)

end TsPmt
end Libts
