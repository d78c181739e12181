import Mathlib.Data.List.TakeWhile
import Libts.Base.Selection
import Libts.Stream.Table

/-!
# Remultiplexing

`packPes` takes packets from the fronts of the streams as long as one of them has a time
stamp: a selection of the least one (`packPesLoop_leastRun`) that a packet without one blocks for its
stream. So every packet is kept exactly when all have a time stamp, and the PID of each
stream that has packets is one a unit can have (`keepsEvery_iff`).
-/

namespace Libts
set_option autoImplicit false

namespace TsStream

/-! ## The run of the loop -/

/-- The loop without its termination. -/
theorem packPesLoop_eq (ts : TsStream) (is : List TsStreamIterator) (pcrRecorded : Bool) (units : List TsUnit) :
    packPesLoop ts is pcrRecorded units =
      match select is with
      | none => (1, units)
      | some c =>
        let unit := ts.pesUnit pcrRecorded c
        if (c.pes.packBuffer unit.data).1 = -1 then (-1, units)
        else packPesLoop ts (advance is c.i) (pcrRecorded || unit.pcrFlag)
          (units ++ [{ unit with data := (c.pes.packBuffer unit.data).2 }]) := by
  rw [packPesLoop]
  split
  · rename_i stopped
    simp only [stopped]
  · rename_i c found
    simp only [found]

/-- Without a selection every iterator is at its end or at a packet without time stamp. -/
theorem selectLoop_none {is : List TsStreamIterator} {i : Nat} {iMin : Option Selected}
    (stopped : selectLoop is i iMin = none) :
    iMin = none ∧ ∀ it ∈ is, ∀ pes ∈ it.current.head?, pes.ptsIndicator = false := by
  induction is generalizing i iMin with
  | nil => exact ⟨stopped, List.forall_mem_nil _⟩
  | cons it is ih =>
    rw [selectLoop] at stopped
    split at stopped
    · rename_i ended
      obtain ⟨absent, blocked⟩ := ih stopped
      refine ⟨absent, List.forall_mem_cons.mpr ⟨?_, blocked⟩⟩
      rw [ended]
      intro pes member
      cases member
    · rename_i pes rest front
      obtain ⟨absent, blocked⟩ := ih stopped
      split at absent
      · cases absent
      · rename_i later
        subst absent
        refine ⟨rfl, List.forall_mem_cons.mpr ⟨?_, blocked⟩⟩
        intro a first
        rw [front, List.head?_cons, Option.mem_some_iff] at first
        subst first
        simpa [precedes] using later

/-- The units of the selected packets. -/
def emitted (ts : TsStream) : Bool → List Selected → List TsUnit
  | _, [] => []
  | pcrRecorded, c :: cs =>
    let unit := ts.pesUnit pcrRecorded c
    { unit with data := (c.pes.packBuffer unit.data).2 } :: emitted ts (pcrRecorded || unit.pcrFlag) cs

theorem pesUnit_eq (ts : TsStream) (pcrRecorded : Bool) (c : Selected) :
    (ts.pesUnit pcrRecorded c).pid = BitVec.ofInt 13 c.pesStream.pid ∧ (ts.pesUnit pcrRecorded c).data = [] := by
  rw [pesUnit]
  split <;> exact ⟨rfl, rfl⟩

/-- The iterators' queues after one has advanced. -/
theorem map_advance {is : List TsStreamIterator} {i : Nat} {it : TsStreamIterator} (there : is[i]? = some it) :
    (advance is i).map TsStreamIterator.current = (is.map TsStreamIterator.current).set i it.current.tail ∧
      (advance is i).map TsStreamIterator.pesStream = is.map TsStreamIterator.pesStream := by
  induction is generalizing i with
  | nil => cases there
  | cons first is ih =>
    cases i with
    | zero =>
      cases there
      exact ⟨rfl, rfl⟩
    | succ i =>
      obtain ⟨queues, streams⟩ := ih there
      exact ⟨congrArg (first.current :: ·) queues, congrArg (first.pesStream :: ·) streams⟩

/-- The time stamp of a packet as a number. -/
def clock (pes : TsPes) : Nat := pes.pts.toNat

theorem precedes_iff {pes : TsPes} {iMin : Option Selected} :
    precedes pes iMin = true ↔ pes.ptsIndicator = true ∧ ∀ m ∈ iMin, clock pes < clock m.pes := by
  cases iMin <;> simp [precedes, clock, BitVec.lt_def]

/-- A packet has the least time stamp of those at the front of the iterators, which are counted
from `i`, and is before the others that have it. -/
def LeastFrom (c : Selected) (is : List TsStreamIterator) (i : Nat) : Prop :=
  ∀ (j : Nat) (it : TsStreamIterator) (pes : TsPes) (rest : List TsPes), is[j]? = some it →
    it.current = pes :: rest → pes.ptsIndicator = true →
    clock c.pes ≤ clock pes ∧ (i + j < c.i → clock c.pes < clock pes)

theorem leastFrom_nil (c : Selected) (i : Nat) : LeastFrom c [] i := by
  intro j it pes rest there
  cases there

theorem LeastFrom.cons {c : Selected} {first : TsStreamIterator} {is : List TsStreamIterator} {i : Nat}
    (here : ∀ (pes : TsPes) (rest : List TsPes), first.current = pes :: rest → pes.ptsIndicator = true →
      clock c.pes ≤ clock pes ∧ (i < c.i → clock c.pes < clock pes))
    (behind : LeastFrom c is (i + 1)) : LeastFrom c (first :: is) i := by
  intro j it pes rest there front pts
  cases j with
  | zero =>
    cases there
    exact here pes rest front pts
  | succ j =>
    rw [show i + (j + 1) = i + 1 + j by omega]
    exact behind j it pes rest there front pts

/-- What does not precede a selected packet has one that is not later. -/
theorem exists_of_not_precedes {pes : TsPes} {iMin : Option Selected} (pts : pes.ptsIndicator = true)
    (not_first : ¬ precedes pes iMin = true) : ∃ m ∈ iMin, clock m.pes ≤ clock pes := by
  by_contra none
  apply not_first
  refine precedes_iff.2 ⟨pts, fun m member => ?_⟩
  by_contra more
  exact none ⟨m, member, Nat.not_lt.mp more⟩

/-- The selection has the least time stamp of those at the front, and is the first with it.
The induction is on the iterators; the packet selected so far lies before them. -/
theorem selectLoop_least {is : List TsStreamIterator} {i : Nat} {iMin : Option Selected} {c : Selected}
    (before : ∀ m ∈ iMin, m.i < i) (found : selectLoop is i iMin = some c) :
    (∀ m ∈ iMin, c = m ∨ clock c.pes < clock m.pes) ∧ LeastFrom c is i := by
  induction is generalizing i iMin with
  | nil =>
    rw [selectLoop] at found
    subst found
    exact ⟨fun m member => Or.inl (Option.mem_some_iff.mp member), leastFrom_nil c i⟩
  | cons first is ih =>
    have later : ∀ m ∈ iMin, m.i < i + 1 := fun m member => Nat.lt_succ_of_lt (before m member)
    rw [selectLoop] at found
    split at found
    · rename_i ended
      obtain ⟨kept, behind⟩ := ih later found
      refine ⟨kept, LeastFrom.cons ?_ behind⟩
      intro pes rest front
      rw [ended] at front
      cases front
    · rename_i pes rest front
      by_cases precedes' : precedes pes iMin = true
      · rw [if_pos precedes'] at found
        have here : ∀ m ∈ some (Selected.mk i first.pesStream pes), m.i < i + 1 := by
          rintro m ⟨rfl⟩
          exact Nat.lt_succ_self i
        obtain ⟨kept, behind⟩ := ih here found
        have new := kept _ rfl
        refine ⟨?_, LeastFrom.cons ?_ behind⟩
        · intro m member
          have less := (precedes_iff.1 precedes').2 m member
          right
          obtain rfl | other := new
          · exact less
          · exact Nat.lt_trans other less
        · intro pes' rest' front' pts
          rw [front] at front'
          cases front'
          obtain rfl | other := new
          · exact ⟨Nat.le_refl _, fun before => absurd before (Nat.lt_irrefl i)⟩
          · exact ⟨Nat.le_of_lt other, fun _ => other⟩
      · rw [if_neg precedes'] at found
        obtain ⟨kept, behind⟩ := ih later found
        refine ⟨kept, LeastFrom.cons ?_ behind⟩
        intro pes' rest' front' pts
        rw [front] at front'
        cases front'
        obtain ⟨m, member, most⟩ := exists_of_not_precedes pts precedes'
        obtain rfl | less := kept m member
        · have early := before c member
          exact ⟨most, fun late => by omega⟩
        · exact ⟨by omega, fun _ => by omega⟩

/-- The selected packet is a first least one of the iterators' queues. -/
theorem select_least {is : List TsStreamIterator} {c : Selected} (found : select is = some c) :
    Selection.Least TsPes.ptsIndicator clock (is.map TsStreamIterator.current) c.i c.pes := by
  intro j pes rest there pts
  rw [List.getElem?_map, Option.map_eq_some_iff] at there
  obtain ⟨it, at_j, front⟩ := there
  obtain ⟨most, strict⟩ := (selectLoop_least (by simp) found).2 j it pes rest at_j front pts
  exact ⟨most, fun earlier => strict (by omega)⟩

/-- **The loop is a selection of the least time stamp.** A run without failure appends the
units of the packets it selects. -/
theorem packPesLoop_leastRun {ts : TsStream} {is : List TsStreamIterator} {pcrRecorded : Bool} {units : List TsUnit}
    (ok : (packPesLoop ts is pcrRecorded units).1 = 1) :
    ∃ chosen, (packPesLoop ts is pcrRecorded units).2 = units ++ emitted ts pcrRecorded chosen ∧
      Selection.LeastRun TsPes.ptsIndicator clock (is.map TsStreamIterator.current)
        (chosen.map fun c => (c.i, c.pes)) ∧
      ∀ c ∈ chosen, (is.map TsStreamIterator.pesStream)[c.i]? = some c.pesStream := by
  induction left : remaining is using Nat.strong_induction_on generalizing is pcrRecorded units with
  | _ n ih =>
    subst left
    rw [packPesLoop_eq] at ok ⊢
    cases found : select is with
    | none =>
      obtain ⟨-, blocked⟩ := selectLoop_none found
      refine ⟨[], ?_, Selection.LeastRun.stop ?_, List.forall_mem_nil _⟩
      · rw [emitted, List.append_nil]
      · exact List.forall_mem_map.mpr blocked
    | some c =>
      obtain ⟨pts, rest, there⟩ := select_some found
      obtain ⟨queues, streams⟩ := map_advance there
      have shorter := remaining_advance there (List.cons_ne_nil _ _)
      simp only [found] at ok ⊢
      split at ok
      · cases ok
      · rename_i packed
        rw [if_neg packed]
        obtain ⟨chosen, result, run, table⟩ := ih _ shorter ok rfl
        rw [queues] at run
        rw [streams] at table
        have front : (is.map TsStreamIterator.current)[c.i]? = some (c.pes :: rest) := by
          rw [List.getElem?_map, there]
          rfl
        refine ⟨c :: chosen, ?_, Selection.LeastRun.take front pts (select_least found) run, List.forall_mem_cons.mpr ⟨?_, table⟩⟩
        · rw [result, List.append_assoc]
          rfl
        · rw [List.getElem?_map, there]
          rfl

theorem packPes_leastRun {ts : TsStream} {units : TsUnits} (ok : (ts.packPes units).1 = 1) :
    ∃ chosen, (ts.packPes units).2.list = units.list ++ ts.emitted false chosen ∧
      Selection.LeastRun TsPes.ptsIndicator clock (ts.streams.map TsStreamPes.packets)
        (chosen.map fun c => (c.i, c.pes)) ∧
      ∀ c ∈ chosen, ts.streams[c.i]? = some c.pesStream := by
  obtain ⟨chosen, result, run, table⟩ := packPesLoop_leastRun ok
  rw [List.map_map] at run table
  refine ⟨chosen, result, run, ?_⟩
  intro c member
  have there := table c member
  rw [show TsStreamIterator.pesStream ∘ _ = id from rfl, List.map_id] at there
  exact there

theorem packPes_run {ts : TsStream} {units : TsUnits} (ok : (ts.packPes units).1 = 1) :
    ∃ chosen, (ts.packPes units).2.list = units.list ++ ts.emitted false chosen ∧
      Selection.Run TsPes.ptsIndicator (ts.streams.map TsStreamPes.packets) (chosen.map fun c => (c.i, c.pes)) ∧
      ∀ c ∈ chosen, ts.streams[c.i]? = some c.pesStream := by
  obtain ⟨chosen, result, least, table⟩ := packPes_leastRun ok
  exact ⟨chosen, result, least.run, table⟩

/-- A stream whose iterators all are blocked from the start. -/
theorem packPes_blocked {ts : TsStream}
    (stopped : select (ts.streams.map fun s => { current := s.packets, pesStream := s }) = none) (units : TsUnits) :
    ts.packPes units = (1, units) := by
  rw [packPes, packPesLoop_eq, stopped]

/-! ## The units of one PID -/

/-- The units `packPes` appends. -/
def appended (ts : TsStream) (units : TsUnits) : List TsUnit := (ts.packPes units).2.list.drop units.list.length

/-- The units with the PID of a stream hold the encodings of its packets, each once and in
order. -/
def KeepsEvery (ts : TsStream) (units : List TsUnit) : Prop :=
  ∀ s ∈ ts.streams, (units.filter fun u => (u.pid.toNat : Int) = s.pid).map TsUnit.data =
    s.packets.map fun pes => (pes.packBuffer []).2

/-- The units of a PID come from the packets of its streams. -/
theorem filter_emitted (ts : TsStream) (pid : Int) (pcrRecorded : Bool) (cs : List Selected) :
    ((ts.emitted pcrRecorded cs).filter fun u => (u.pid.toNat : Int) = pid).map TsUnit.data =
      (cs.filter fun c => ((BitVec.ofInt 13 c.pesStream.pid).toNat : Int) = pid).map fun c => (c.pes.packBuffer []).2 := by
  induction cs generalizing pcrRecorded with
  | nil => rfl
  | cons c cs ih =>
    obtain ⟨own, empty⟩ := ts.pesUnit_eq pcrRecorded c
    rw [emitted, empty, List.filter_cons, List.filter_cons]
    simp only [own, decide_eq_true_eq]
    split
    · rw [List.map_cons, List.map_cons, ih]
    · exact ih _

/-- A stream with packets has a PID that a unit can have. -/
def Carried (ts : TsStream) : Prop := ∀ s ∈ ts.streams, s.packets ≠ [] → 0 ≤ s.pid ∧ s.pid < 8192

section Distinct

variable {ts : TsStream} {chosen : List Selected}
  (run : Selection.Run TsPes.ptsIndicator (ts.streams.map TsStreamPes.packets) (chosen.map fun c => (c.i, c.pes)))
  (table : ∀ c ∈ chosen, ts.streams[c.i]? = some c.pesStream)

include run table in
/-- A packet that was selected is one of the stream it names. -/
theorem mem_packets {c : Selected} (member : c ∈ chosen) : c.pes ∈ c.pesStream.packets := by
  have inside := run.mem (List.mem_map.mpr ⟨c, member, rfl⟩)
  rw [Selection.queue, List.getElem?_map, table c member] at inside
  exact inside

include run table in
/-- The packets selected for the PID of a stream are its packets in front of the first without time stamp. -/
theorem filter_chosen (distinct : ts.Distinct) (carried : ts.Carried) {s : TsStreamPes} (there : s ∈ ts.streams) :
    (chosen.filter fun c => ((BitVec.ofInt 13 c.pesStream.pid).toNat : Int) = s.pid).map Selected.pes =
      s.packets.takeWhile TsPes.ptsIndicator := by
  obtain ⟨j, inside, at_j⟩ := List.getElem_of_mem there
  have queue : Selection.queue (ts.streams.map TsStreamPes.packets) j = s.packets := by
    rw [Selection.queue, List.getElem?_map, List.getElem?_eq_getElem inside, at_j]
    rfl
  have own : ∀ c ∈ chosen, (((BitVec.ofInt 13 c.pesStream.pid).toNat : Int) = s.pid ↔ c.i = j) := by
    intro c member
    have filled : c.pesStream.packets ≠ [] := List.ne_nil_of_mem (mem_packets run table member)
    obtain ⟨low, high⟩ := carried _ (List.mem_of_getElem? (table c member)) filled
    rw [toNat_ofInt_pid low high]
    have at_i : (ts.streams.map TsStreamPes.pid)[c.i]? = some c.pesStream.pid := by
      rw [List.getElem?_map, table c member]
      rfl
    obtain ⟨inside_i, -⟩ := List.getElem?_eq_some_iff.mp at_i
    constructor
    · intro pids
      apply (List.getElem?_inj inside_i distinct).mp
      rw [at_i, pids, List.getElem?_map, List.getElem?_eq_getElem inside, at_j]
      rfl
    · intro equal
      subst equal
      rw [List.getElem?_map, List.getElem?_eq_getElem inside, at_j] at at_i
      exact (Option.some.inj at_i).symm
  have taken := run.taken_eq j
  rw [queue, Selection.taken, List.filter_map, List.map_map] at taken
  have filter : chosen.filter (fun c => ((BitVec.ofInt 13 c.pesStream.pid).toNat : Int) = s.pid) =
      chosen.filter fun c => c.i = j := List.filter_congr fun c member => decide_eq_decide.mpr (own c member)
  rw [filter, ← taken]
  rfl

include run table in
/-- The units of a stream are those of its packets in front of the first without time stamp. -/
theorem filter_own (distinct : ts.Distinct) (carried : ts.Carried) {s : TsStreamPes} (there : s ∈ ts.streams) :
    ((ts.emitted false chosen).filter fun u => (u.pid.toNat : Int) = s.pid).map TsUnit.data =
      (s.packets.takeWhile TsPes.ptsIndicator).map fun pes => (pes.packBuffer []).2 := by
  rw [filter_emitted, ← filter_chosen run table distinct carried there, List.map_map]
  rfl

end Distinct

variable {ts : TsStream} {units : TsUnits}

/-- **Remultiplexing keeps every packet** exactly when each has a time stamp and is in a stream
whose PID is one of 13 bits. -/
theorem keepsEvery_iff (distinct : ts.Distinct) (ok : (ts.packPes units).1 = 1) :
    ts.KeepsEvery (ts.appended units) ↔
      ∀ s ∈ ts.streams, ∀ pes ∈ s.packets, pes.ptsIndicator = true ∧ 0 ≤ s.pid ∧ s.pid < 8192 := by
  obtain ⟨chosen, result, run, table⟩ := packPes_run ok
  have appended : ts.appended units = ts.emitted false chosen := by rw [TsStream.appended, result, List.drop_left]
  rw [appended]
  constructor
  · intro kept
    have carried : ts.Carried := by
      intro s there filled
      have units := kept s there
      have some : (ts.emitted false chosen).filter (fun u => (u.pid.toNat : Int) = s.pid) ≠ [] := by
        intro none
        rw [none] at units
        exact filled (List.map_eq_nil_iff.mp units.symm)
      obtain ⟨u, member⟩ := List.exists_mem_of_ne_nil _ some
      have same := of_decide_eq_true (List.mem_filter.mp member).2
      have high := u.pid.isLt
      omega
    intro s there pes member
    have front := kept s there
    rw [filter_own run table distinct carried there] at front
    have length : (s.packets.takeWhile TsPes.ptsIndicator).length = s.packets.length := by
      have lengths := congrArg List.length front
      rwa [List.length_map, List.length_map] at lengths
    have all := (List.takeWhile_prefix (l := s.packets) TsPes.ptsIndicator).eq_of_length length
    exact ⟨List.takeWhile_eq_self_iff.mp all pes member, carried s there (List.ne_nil_of_mem member)⟩
  · intro stamped s there
    have carried : ts.Carried := by
      intro s there filled
      obtain ⟨pes, member⟩ := List.exists_mem_of_ne_nil _ filled
      exact (stamped s there pes member).2
    rw [filter_own run table distinct carried there,
      List.takeWhile_eq_self_iff.mpr fun pes member => (stamped s there pes member).1]

/-- Two streams with a packet each. -/
def twoStreams : TsStream :=
  { streams := [
      { pid := 256, packets := [{ streamId := 0xe0, ptsIndicator := true, pts := 20, data := [1] }] },
      { pid := 257, packets := [{ streamId := 0xc0, ptsIndicator := true, pts := 10, data := [2] }] }] }

theorem keepsEvery_iff_two :
    twoStreams.KeepsEvery (twoStreams.appended {}) ↔
      ∀ s ∈ twoStreams.streams, ∀ pes ∈ s.packets, pes.ptsIndicator = true ∧ 0 ≤ s.pid ∧ s.pid < 8192 :=
  keepsEvery_iff (by decide) (by decide +kernel)

/-- A packet without time stamp, and one with a time stamp behind it. -/
def blockedStream : TsStream :=
  { streams := [{ pid := 256, packets := [
      { streamId := 0xe0, data := [1] }, { streamId := 0xe0, ptsIndicator := true, pts := 20, data := [2] }] }] }

/-- The loop ends at once, with 1. -/
theorem not_keepsEvery_blocked :
    (blockedStream.packPes {}).1 = 1 ∧ ¬ blockedStream.KeepsEvery (blockedStream.appended {}) := by
  have nothing := @packPes_blocked blockedStream (by decide) {}
  refine ⟨by rw [nothing], ?_⟩
  intro kept
  have own := kept _ List.mem_cons_self
  rw [appended, nothing] at own
  exact List.cons_ne_nil _ _ own.symm

end TsStream
end Libts
