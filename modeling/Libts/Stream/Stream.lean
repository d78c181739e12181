import Libts.Base.FindOrInsert
import Libts.Psi.Pat
import Libts.Psi.PmtRoundTrip
import Libts.Stream.Pes
import Libts.Unit.Units

/-!
# The program stream

`ts_stream.c`: a program with its table of elementary streams. `pack` makes the units of
the program association, of the program map and of the packets of all streams, the packets
in the order of their time stamps; `unpack` goes over a list of units three times, for the
program association, for the map and for the packets.
-/

namespace Libts
set_option autoImplicit false

structure TsStreamPes where
  pid : Int := 0
  type : UInt8 := 0
  descriptor : TsPmtDescriptor := {}
  packets : List TsPes := []
deriving Repr, DecidableEq

structure TsStream where
  programPid : Int := 0
  pcrPid : Int := 0
  descriptor : TsPmtDescriptor := {}
  streams : List TsStreamPes := []
deriving Repr, DecidableEq

/-- `current` holds the packets from `current` to `end`. -/
structure TsStreamIterator where
  current : List TsPes
  pesStream : TsStreamPes
deriving Repr, DecidableEq

namespace TsStreamPes

def construct : TsStreamPes := {}

/-- The stream that is created for a PID. -/
def fresh (pid : Int) : TsStreamPes := { construct with pid := pid }

/-- A type that is not set yet. -/
def setType (p : TsStreamPes) (s : TsPmtStream) : TsStreamPes :=
  if p.type = 0 then { p with type := s.streamType } else p

/-- A descriptor that is not set yet. -/
def setDescriptor (p : TsStreamPes) (s : TsPmtStream) : TsStreamPes :=
  if p.descriptor.size = 0 ∧ s.descriptor.size ≠ 0
    then { p with descriptor := p.descriptor.copy s.descriptor }
    else p

/-- What `TsStream.unpackPmt` does to the entry of a stream of the map. -/
def merge (p : TsStreamPes) (s : TsPmtStream) : Int × TsStreamPes :=
  let p := p.setType s
  if p.type ≠ s.streamType then (-1, p)
  else
    let p := p.setDescriptor s
    if !p.descriptor.equal s.descriptor then (-1, p) else (1, p)

/-- The inner loop of `TsStream.unpackPes`. -/
def unpackUnits : List TsUnit → TsStreamPes → TsStreamPes
  | [], p => p
  | u :: us, p =>
    if (u.pid.toNat : Int) = p.pid then
      let (n, pes) := TsPes.construct.unpackBuffer u.data
      if n = -1 then unpackUnits us p
      else unpackUnits us { p with packets := p.packets ++ [
        { pes with randomAccessIndicator := u.randomAccessIndicator }] }
    else unpackUnits us p

end TsStreamPes

namespace TsStream

def construct : TsStream := {}

/-! ## The table of streams -/

def lookup (ts : TsStream) (pid : Int) : Option TsStreamPes := FindOrInsert.find TsStreamPes.pid pid ts.streams

/-- The stream is returned as its position in the table. -/
def create (ts : TsStream) (pid : Int) : TsStream × Nat :=
  let (streams, i) := FindOrInsert.slot TsStreamPes.pid TsStreamPes.fresh pid ts.streams
  ({ ts with streams := streams }, i)

def delete (ts : TsStream) (pid : Int) : TsStream :=
  { ts with streams := ts.streams.eraseP fun p => p.pid = pid }

/-! ## The program association -/

/-- The table `packPat` encodes. -/
def pat (ts : TsStream) : TsPat :=
  { TsPat.construct with
    id := 0, idExtension := 1, version := 0, programNumber := 1, programPid := BitVec.ofInt 13 ts.programPid }

def packPat (ts : TsStream) (units : TsUnits) : Option (Int × TsUnits) :=
  if ts.programPid = 0 then some (-1, units)
  else
    let unit := TsUnit.construct 0 false
    (ts.pat.packBuffer unit.data).map fun (n, data) =>
      if n = -1 then (-1, units) else (1, { list := units.list ++ [{ unit with data := data }] })

/-- A program PID that is not set yet. -/
def setProgramPid (ts : TsStream) (pid : BitVec 13) : TsStream :=
  if ts.programPid = 0 then { ts with programPid := pid.toNat } else ts

/-- The loop of `unpackPat`. -/
def unpackPatLoop : List TsUnit → TsStream → Int × TsStream
  | [], ts => (1, ts)
  | u :: us, ts =>
    if u.pid = 0 then
      let (n, pat) := TsPat.construct.unpackBuffer u.data
      if n = -1 then (-1, ts)
      else
        let ts := ts.setProgramPid pat.programPid
        if ts.programPid ≠ pat.programPid.toNat then (-1, ts) else unpackPatLoop us ts
    else unpackPatLoop us ts

def unpackPat (ts : TsStream) (units : TsUnits) : Int × TsStream := unpackPatLoop units.list ts

/-! ## The program map -/

/-- The entry of a stream in the map. -/
def pmtStream (p : TsStreamPes) : TsPmtStream :=
  { streamType := p.type
    elementaryPid := BitVec.ofInt 13 p.pid
    descriptor := ({} : TsPmtDescriptor).copy p.descriptor }

/-- The table `packPmt` encodes. -/
def pmt (ts : TsStream) : TsPmt :=
  let pmt := TsPmt.construct
  { pmt with
    id := 0x02
    idExtension := 1
    version := 0
    pcrPid := if ts.pcrPid ≠ 0 then BitVec.ofInt 13 ts.pcrPid else 0x1fff
    descriptor := pmt.descriptor.copy ts.descriptor
    streams := pmt.streams ++ ts.streams.map pmtStream }

def packPmt (ts : TsStream) (units : TsUnits) : Option (Int × TsUnits) :=
  if ts.programPid = 0 then some (-1, units)
  else
    let unit := TsUnit.construct (BitVec.ofInt 13 ts.programPid) false
    (ts.pmt.packBuffer unit.data).map fun (n, data) =>
      if n = -1 then (-1, units) else (1, { list := units.list ++ [{ unit with data := data }] })

/-- The loop of `unpackPmt` over the streams of a map. -/
def mergeStreams : List TsPmtStream → TsStream → Int × TsStream
  | [], ts => (1, ts)
  | s :: ss, ts =>
    let (ts, i) := ts.create (s.elementaryPid.toNat : Int)
    let (n, pesStream) := (ts.streams[i]?.getD TsStreamPes.construct).merge s
    let ts := { ts with streams := ts.streams.set i pesStream }
    if n = -1 then (-1, ts) else mergeStreams ss ts

/-- A PCR PID that is not set yet. -/
def setPcrPid (ts : TsStream) (pid : BitVec 13) : TsStream :=
  if ts.pcrPid = 0 then { ts with pcrPid := pid.toNat } else ts

/-- The loop of `unpackPmt` over the units. -/
def unpackPmtLoop : List TsUnit → TsStream → Int × TsStream
  | [], ts => (1, ts)
  | u :: us, ts =>
    if (u.pid.toNat : Int) = ts.programPid then
      let (n, pmt) := TsPmt.construct.unpackBuffer u.data
      if n = -1 then (-1, ts)
      else
        let ts := ts.setPcrPid pmt.pcrPid
        if ts.pcrPid ≠ pmt.pcrPid.toNat then (-1, ts)
        else
          let (n, ts) := mergeStreams pmt.streams ts
          if n = -1 then (-1, ts) else unpackPmtLoop us ts
    else unpackPmtLoop us ts

def unpackPmt (ts : TsStream) (units : TsUnits) : Int × TsStream :=
  if ts.programPid = 0 then (-1, ts) else unpackPmtLoop units.list ts

/-! ## The packets -/

/-- An iterator at a packet, as `iMin` points to it. -/
structure Selected where
  i : Nat
  pesStream : TsStreamPes
  pes : TsPes
deriving Repr, DecidableEq

/-- The test of the selection loop on the packet of an iterator. -/
def precedes (pes : TsPes) (iMin : Option Selected) : Bool :=
  pes.ptsIndicator && match iMin with
    | none => true
    | some least => decide (pes.pts < least.pes.pts)

/-- The selection loop, from iterator `i` on. -/
def selectLoop : List TsStreamIterator → Nat → Option Selected → Option Selected
  | [], _, iMin => iMin
  | it :: is, i, iMin =>
    match it.current with
    | [] => selectLoop is (i + 1) iMin
    | pes :: _ => selectLoop is (i + 1) (if precedes pes iMin then some ⟨i, it.pesStream, pes⟩ else iMin)

def select (is : List TsStreamIterator) : Option Selected := selectLoop is 0 none

/-- `list_next` on one iterator. -/
def advance (is : List TsStreamIterator) (i : Nat) : List TsStreamIterator :=
  is.modify i fun it => { it with current := it.current.tail }

/-- The unit of a packet, without its data. -/
def pesUnit (ts : TsStream) (pcrRecorded : Bool) (c : Selected) : TsUnit :=
  let unit := TsUnit.construct (BitVec.ofInt 13 c.pesStream.pid) c.pes.randomAccessIndicator
  if ts.pcrPid = c.pesStream.pid ∧ !pcrRecorded
    then { unit with pcrFlag := true, pcr := c.pes.pts * 300 }
    else unit

/-- The selection ends at an iterator that is where it says. -/
theorem selectLoop_some {is : List TsStreamIterator} {i : Nat} {iMin : Option Selected} {c : Selected}
    (found : selectLoop is i iMin = some c) :
    iMin = some c ∨ c.pes.ptsIndicator = true ∧ i ≤ c.i ∧
      ∃ rest, is[c.i - i]? = some { current := c.pes :: rest, pesStream := c.pesStream } := by
  induction is generalizing i iMin with
  | nil => exact Or.inl found
  | cons it is ih =>
    have later {kept : Option Selected} (found : selectLoop is (i + 1) kept = some c) :
        kept = some c ∨ c.pes.ptsIndicator = true ∧ i ≤ c.i ∧
          ∃ rest, (it :: is)[c.i - i]? = some { current := c.pes :: rest, pesStream := c.pesStream } := by
      obtain same | ⟨pts, behind, rest, there⟩ := ih found
      · exact Or.inl same
      · refine Or.inr ⟨pts, by omega, rest, ?_⟩
        rw [show c.i - i = (c.i - (i + 1)) + 1 by omega, List.getElem?_cons_succ]
        exact there
    rw [selectLoop] at found
    split at found
    · exact later found
    · rename_i pes rest front
      obtain same | there := later found
      · split at same
        · rename_i first
          cases same
          obtain ⟨pts, -⟩ := Bool.and_eq_true_iff.mp first
          refine Or.inr ⟨pts, Nat.le_refl i, rest, ?_⟩
          rw [Nat.sub_self, List.getElem?_cons_zero, ← front]
        · exact Or.inl same
      · exact Or.inr there

theorem select_some {is : List TsStreamIterator} {c : Selected} (found : select is = some c) :
    c.pes.ptsIndicator = true ∧
      ∃ rest, is[c.i]? = some { current := c.pes :: rest, pesStream := c.pesStream } := by
  obtain none | ⟨pts, -, there⟩ := selectLoop_some found
  · cases none
  · exact ⟨pts, there⟩

/-- The packets that are left. -/
def remaining (is : List TsStreamIterator) : Nat := (is.map fun it => it.current.length).sum

theorem remaining_advance {is : List TsStreamIterator} {i : Nat} {it : TsStreamIterator} (there : is[i]? = some it)
    (filled : it.current ≠ []) : remaining (advance is i) < remaining is := by
  induction is generalizing i with
  | nil => cases there
  | cons first is ih =>
    cases i with
    | zero =>
      cases there
      have shorter : it.current.tail.length < it.current.length := by
        rw [List.length_tail]
        have positive := List.length_pos_of_ne_nil filled
        omega
      simpa [remaining, advance] using shorter
    | succ i =>
      have rest := ih there
      simpa [remaining, advance] using rest

/-- The loop of `packPes`. -/
def packPesLoop (ts : TsStream) (is : List TsStreamIterator) (pcrRecorded : Bool) (units : List TsUnit) :
    Int × List TsUnit :=
  match found : select is with
  | none => (1, units)
  | some c =>
    have shorter : remaining (advance is c.i) < remaining is := by
      obtain ⟨-, rest, there⟩ := select_some found
      exact remaining_advance there (List.cons_ne_nil _ _)
    let unit := ts.pesUnit pcrRecorded c
    let (n, data) := c.pes.packBuffer unit.data
    if n = -1 then (-1, units)
    else packPesLoop ts (advance is c.i) (pcrRecorded || unit.pcrFlag) (units ++ [{ unit with data := data }])
termination_by remaining is

def packPes (ts : TsStream) (units : TsUnits) : Int × TsUnits :=
  let (n, list) := ts.packPesLoop (ts.streams.map fun s => { current := s.packets, pesStream := s }) false units.list
  (n, { list := list })

def unpackPes (ts : TsStream) (units : TsUnits) : Int × TsStream :=
  (1, { ts with streams := ts.streams.map (TsStreamPes.unpackUnits units.list) })

/-! ## The whole stream -/

def unpack (ts : TsStream) (units : TsUnits) : Int × TsStream :=
  let (n, ts) := ts.unpackPat units
  if n ≥ 0 then
    let (n, ts) := ts.unpackPmt units
    if n ≥ 0 then ts.unpackPes units else (n, ts)
  else (n, ts)

def pack (ts : TsStream) (units : TsUnits) : Option (Int × TsUnits) :=
  (ts.packPat units).bind fun (n, units) =>
    if n ≥ 0 then
      (ts.packPmt units).map fun (n, units) =>
        if n ≥ 0 then ts.packPes units else (n, units)
    else some (n, units)

end TsStream
end Libts
