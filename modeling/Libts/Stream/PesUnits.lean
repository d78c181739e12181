import Libts.Stream.Recode

/-!
# The packets of a stream and their units

Decoding goes through the units of a PID and reads each by itself (`unpackUnits_filterMap`); encoding
makes a unit of each packet that has its turn. So what is read of the units of a stream is what each
of its packets becomes on its own (`readUnits_emitted`), in front of the first that has no time stamp.
-/

namespace Libts
set_option autoImplicit false

namespace TsPes

/-- What is read of a unit with these bytes; `none` is a unit that is refused. -/
def read (randomAccessIndicator : Bool) (data : Buffer) : Option TsPes :=
  let (n, pes) := construct.unpackBuffer data
  if n = -1 then none else some { pes with randomAccessIndicator := randomAccessIndicator }

/-- What a packet becomes that is encoded and decoded. -/
def reread (p : TsPes) : Option TsPes := read p.randomAccessIndicator (p.packBuffer []).2

/-- A packet of which the encoder writes everything. -/
def Bare (p : TsPes) : Prop := { p.carried with randomAccessIndicator := p.randomAccessIndicator } = p

instance (p : TsPes) : Decidable p.Bare := inferInstanceAs (Decidable (_ = _))

theorem read_accepted {b : Buffer} {p : TsPes} (r : Bool) (accepted : construct.unpackBuffer b = (1, p)) :
    read r b = some { p with randomAccessIndicator := r } := by
  have one : ¬ (1 : Int) = -1 := by decide
  rw [read, accepted]
  exact if_neg one

/-- A unit that is read is one that is framed. -/
theorem framed_of_read {b : Buffer} {p : TsPes} {r : Bool} (is : read r b = some p) :
    Framed b ∧ p = { wire b with randomAccessIndicator := r } := by
  have result := construct.unpackStream_result (Bytestream.constructBuffer b)
  cases decoded : construct.unpackBuffer b with
  | mk n q =>
    have first : n = (construct.unpackStream (Bytestream.constructBuffer b)).1 := (congrArg Prod.fst decoded).symm
    simp only [read, decoded] at is
    split at is
    · cases is
    · rename_i accepted
      have one : n = 1 := by
        rw [first] at accepted ⊢
        exact result.resolve_left accepted
      rw [one] at decoded
      obtain ⟨framed, value⟩ := unpackBuffer_framed.1 decoded
      cases is
      exact ⟨framed, by rw [value]⟩

theorem packBuffer_result (p : TsPes) : (p.packBuffer []).1 = -1 ∨ (p.packBuffer []).1 = 1 := by
  have attached : (Bytestream.constructBuffer []).attached = true := rfl
  simp only [packBuffer, packStream_eq attached]
  split
  · exact Or.inl rfl
  · exact Or.inr rfl

theorem headed_of_pts {b : Buffer} (stamped : (wire b).ptsIndicator = true) : Headed b := by
  by_contra plain
  rw [wire, if_neg plain] at stamped
  contradiction

/-- The decoder on what the encoder wrote. -/
theorem Encodable.reread {p : TsPes} (encodable : p.Encodable) (small : p.data.length < 2 ^ 31 - 13)
    (packed : (p.packBuffer []).1 = 1) :
    p.reread = some { p.carried with randomAccessIndicator := p.randomAccessIndicator } := by
  obtain ⟨fits, written⟩ := packBuffer_eq packed
  have nonempty : p.bytes ≠ [] := by simp [bytes, BigEndian.bytes]
  have decoded := encodable.unpackStream small fits (Bytestream.holds_constructBuffer nonempty)
  rw [TsPes.reread, written]
  apply read_accepted
  rw [unpackBuffer, decoded]

/-- A packet with a time stamp comes back when all of it can be written, and not otherwise. -/
theorem reread_eq_iff {p : TsPes} (stamped : p.ptsIndicator = true) (small : p.data.length < 2 ^ 31 - 13)
    (packed : (p.packBuffer []).1 = 1) : p.reread = some p ↔ p.Encodable ∧ p.Bare := by
  constructor
  · intro back
    obtain ⟨-, value⟩ := framed_of_read back
    have pts : (wire (p.packBuffer []).2).ptsIndicator = true := by
      rw [value] at stamped
      exact stamped
    have wired := encodable_wire (headed_of_pts pts)
    have encodable : p.Encodable := by
      rw [value]
      exact ⟨wired.padding, wired.private2, wired.pts, wired.dts, wired.noPts, wired.noDts⟩
    refine ⟨encodable, ?_⟩
    rw [encodable.reread small packed] at back
    exact Option.some.inj back
  · rintro ⟨encodable, bare⟩
    rw [encodable.reread small packed, show _ = p from bare]

end TsPes

namespace TsStreamPes

/-- The inner loop of `unpackPes`, as what is read of the units of the PID. -/
theorem unpackUnits_filterMap (us : List TsUnit) (p : TsStreamPes) :
    unpackUnits us p =
      { p with
        packets := p.packets ++
          (us.filter fun u => (u.pid.toNat : Int) = p.pid).filterMap fun u => TsPes.read u.randomAccessIndicator u.data } := by
  induction us generalizing p with
  | nil => simp [unpackUnits]
  | cons u us ih =>
    by_cases own : (u.pid.toNat : Int) = p.pid
    · rw [List.filter_cons_of_pos (by simpa using own)]
      simp only [unpackUnits, if_pos own, TsPes.read, List.filterMap_cons]
      split
      · rw [ih]
        simp only [TsPes.read]
      · rw [ih]
        simp only [TsPes.read, List.append_assoc, List.cons_append, List.nil_append]
    · rw [List.filter_cons_of_neg (by simpa using own), unpackUnits, if_neg own]
      exact ih p

end TsStreamPes

namespace TsStream

/-- The units of a PID come from the packets of its streams, indicator and data. -/
theorem filter_emitted_both (ts : TsStream) (pid : Int) (pcrRecorded : Bool) (cs : List Selected) :
    ((ts.emitted pcrRecorded cs).filter fun u => (u.pid.toNat : Int) = pid).map
        (fun u => (u.randomAccessIndicator, u.data)) =
      (cs.filter fun c => ((BitVec.ofInt 13 c.pesStream.pid).toNat : Int) = pid).map fun c =>
        (c.pes.randomAccessIndicator, (c.pes.packBuffer []).2) := by
  have indicator (pcrRecorded : Bool) (c : Selected) :
      (ts.pesUnit pcrRecorded c).randomAccessIndicator = c.pes.randomAccessIndicator := by
    rw [pesUnit]
    split <;> rfl
  induction cs generalizing pcrRecorded with
  | nil => rfl
  | cons c cs ih =>
    obtain ⟨own, empty⟩ := ts.pesUnit_eq pcrRecorded c
    rw [emitted, empty, List.filter_cons, List.filter_cons]
    simp only [own, decide_eq_true_eq]
    split
    · rw [List.map_cons, List.map_cons, ih, indicator]
    · exact ih _

/-- **What is read of the units of a stream** is what becomes of each of its packets, in front of the first
without time stamp. -/
theorem readUnits_emitted {ts : TsStream} {chosen : List Selected}
    (run : Selection.Run TsPes.ptsIndicator (ts.streams.map TsStreamPes.packets) (chosen.map fun c => (c.i, c.pes)))
    (table : ∀ c ∈ chosen, ts.streams[c.i]? = some c.pesStream) (distinct : ts.Distinct) (carried : ts.Carried)
    {s : TsStreamPes} (there : s ∈ ts.streams) :
    (((ts.emitted false chosen).filter fun u => (u.pid.toNat : Int) = s.pid).filterMap fun u =>
        TsPes.read u.randomAccessIndicator u.data) =
      (s.packets.takeWhile TsPes.ptsIndicator).filterMap TsPes.reread := by
  have both := filter_emitted_both ts s.pid false chosen
  have parts : ∀ us : List TsUnit, (us.filterMap fun u => TsPes.read u.randomAccessIndicator u.data) =
      (us.map fun u => (u.randomAccessIndicator, u.data)).filterMap fun t => TsPes.read t.1 t.2 := by
    intro us
    rw [List.filterMap_map]
    rfl
  rw [parts, both, ← filter_chosen run table distinct carried there, List.filterMap_map, List.filterMap_map]
  rfl

/-- A run that succeeds has encoded every packet it took. -/
theorem packPesLoop_accepted {ts : TsStream} {is : List TsStreamIterator} {pcrRecorded : Bool} {units : List TsUnit}
    {out : List (Nat × TsPes)} (ok : (packPesLoop ts is pcrRecorded units).1 = 1)
    (run : Selection.LeastRun TsPes.ptsIndicator clock (is.map TsStreamIterator.current) out) :
    ∀ t ∈ out, (t.2.packBuffer []).1 = 1 := by
  induction out generalizing is pcrRecorded units with
  | nil => exact List.forall_mem_nil _
  | cons t out ih =>
    obtain ⟨i, pes⟩ := t
    cases run with
    | @take _ _ _ _ rest front chosen least later =>
      rw [packPesLoop_eq] at ok
      cases found : select is with
      | none =>
        obtain ⟨-, blocked⟩ := selectLoop_none found
        obtain ⟨it, member, current⟩ := List.mem_map.mp (List.mem_of_getElem? front)
        have stuck := blocked it member pes (by rw [current]; rfl)
        rw [chosen] at stuck
        cases stuck
      | some c =>
        obtain ⟨pts, behind, there⟩ := select_some found
        have here : (is.map TsStreamIterator.current)[c.i]? = some (c.pes :: behind) := by
          rw [List.getElem?_map, there]
          rfl
        obtain ⟨rfl, rfl, rfl⟩ := least.unique (select_least found) front here chosen pts
        obtain ⟨queues, -⟩ := map_advance there
        simp only [found, (ts.pesUnit_eq pcrRecorded c).2] at ok
        split at ok
        · cases ok
        · rename_i written
          have packed : (c.pes.packBuffer []).1 = 1 := (c.pes.packBuffer_result).resolve_left written
          have others := ih ok (by rw [queues]; exact later)
          exact List.forall_mem_cons.mpr ⟨packed, others⟩

/-- The packets that were taken were encoded. -/
theorem packPes_accepted {ts : TsStream} {units : TsUnits} {out : List (Nat × TsPes)} (ok : (ts.packPes units).1 = 1)
    (run : Selection.LeastRun TsPes.ptsIndicator clock (ts.streams.map TsStreamPes.packets) out) :
    ∀ t ∈ out, (t.2.packBuffer []).1 = 1 := by
  apply packPesLoop_accepted ok
  rw [List.map_map]
  exact run

end TsStream
end Libts
