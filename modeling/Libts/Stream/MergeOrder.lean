import Libts.Stream.Remux

/-!
# The order of the remultiplexed packets

When every packet has a time stamp, `packPes` merges the lists of the streams: a stable
merge by time stamp when they are sorted. The first packet of the stream with the clock
carries it (`packPes_merged`).
-/

namespace Libts
set_option autoImplicit false

namespace TsStream

/-- `units` are those of the packets `chosen`, each with the number of its stream, in one
order for both. -/
structure Merged (ts : TsStream) (units : List TsUnit) (chosen : List Selected) : Prop where
  streams : ∀ c ∈ chosen, ts.streams[c.i]? = some c.pesStream
  interleaved : ∀ (i : Nat) (s : TsStreamPes), ts.streams[i]? = some s →
    (chosen.filter fun c => c.i = i).map Selected.pes = s.packets
  length : units.length = chosen.length
  encoded : ∀ (k : Nat) (c : Selected) (u : TsUnit), chosen[k]? = some c → units[k]? = some u →
    u.pid = BitVec.ofInt 13 c.pesStream.pid ∧ u.randomAccessIndicator = c.pes.randomAccessIndicator ∧
      u.data = (c.pes.packBuffer []).2
  ordered : (∀ s ∈ ts.streams, s.packets.Pairwise fun a b => a.pts ≤ b.pts) →
    chosen.Pairwise fun a b => a.pes.pts < b.pes.pts ∨ a.pes.pts = b.pes.pts ∧ a.i ≤ b.i
  clock : ∀ (k : Nat) (c : Selected) (u : TsUnit), chosen[k]? = some c → units[k]? = some u →
    (u.pcrFlag = true ↔ c.pesStream.pid = ts.pcrPid ∧
      ∀ (j : Nat) (d : Selected), j < k → chosen[j]? = some d → d.pesStream.pid ≠ ts.pcrPid) ∧
    (u.pcrFlag = true → u.pcr = 300 * c.pes.pts)
  once : ∀ (j k : Nat) (u v : TsUnit), units[j]? = some u → units[k]? = some v → u.pcrFlag = true →
    v.pcrFlag = true → j = k

/-- One of the first `k` selected packets belongs to the stream with the clock. -/
def recorded (ts : TsStream) (chosen : List Selected) (k : Nat) : Bool :=
  (chosen.take k).any fun c => decide (ts.pcrPid = c.pesStream.pid)

theorem pcrFlag_pesUnit (ts : TsStream) (pcrRecorded : Bool) (c : Selected) :
    (ts.pesUnit pcrRecorded c).pcrFlag = (decide (ts.pcrPid = c.pesStream.pid) && !pcrRecorded) := by
  unfold pesUnit
  by_cases flagged : ts.pcrPid = c.pesStream.pid ∧ (!pcrRecorded) = true
  · simp [flagged]
  · rw [if_neg flagged]
    obtain recorded | fresh := Bool.eq_false_or_eq_true pcrRecorded
    · simp [recorded, TsUnit.construct]
    · simp_all [TsUnit.construct]

/-- The unit of each packet, with the clock where none was written before it. -/
theorem getElem?_emitted (ts : TsStream) (pcrRecorded : Bool) (chosen : List Selected) (k : Nat) :
    (ts.emitted pcrRecorded chosen)[k]? = chosen[k]?.map fun c =>
      { ts.pesUnit (pcrRecorded || ts.recorded chosen k) c with data := (c.pes.packBuffer []).2 } := by
  induction chosen generalizing pcrRecorded k with
  | nil => rfl
  | cons c cs ih =>
    obtain ⟨-, empty⟩ := ts.pesUnit_eq pcrRecorded c
    cases k with
    | zero =>
      simp [emitted, empty, recorded]
    | succ k =>
      have flags : (pcrRecorded || (ts.pesUnit pcrRecorded c).pcrFlag || ts.recorded cs k) =
          (pcrRecorded || ts.recorded (c :: cs) (k + 1)) := by
        rw [pcrFlag_pesUnit]
        cases pcrRecorded <;> simp [recorded]
      rw [emitted, List.getElem?_cons_succ, List.getElem?_cons_succ, ih, flags]

theorem length_emitted (ts : TsStream) (pcrRecorded : Bool) (chosen : List Selected) :
    (ts.emitted pcrRecorded chosen).length = chosen.length := by
  induction chosen generalizing pcrRecorded with
  | nil => rfl
  | cons c cs ih => rw [emitted, List.length_cons, List.length_cons, ih]

theorem recorded_eq_false_iff {ts : TsStream} {chosen : List Selected} {k : Nat} :
    ts.recorded chosen k = false ↔
      ∀ (j : Nat) (d : Selected), j < k → chosen[j]? = some d → d.pesStream.pid ≠ ts.pcrPid := by
  rw [recorded, List.any_eq_false]
  constructor
  · intro none j d before there same
    have member : d ∈ chosen.take k := by
      apply List.mem_of_getElem? (i := j)
      rw [List.getElem?_take_of_lt before, there]
    exact none d member (decide_eq_true same.symm)
  · intro none d member same
    obtain ⟨j, there⟩ := List.mem_iff_getElem?.mp member
    rw [List.getElem?_take] at there
    split at there
    · rename_i before
      exact none j d before there (of_decide_eq_true same).symm
    · cases there

section Clock

variable {ts : TsStream} {chosen : List Selected}

/-- The units of a selection, looked at one by one. -/
theorem emitted_unit {k : Nat} {c : Selected} {u : TsUnit} (packet : chosen[k]? = some c)
    (unit : (ts.emitted false chosen)[k]? = some u) :
    u = { ts.pesUnit (ts.recorded chosen k) c with data := (c.pes.packBuffer []).2 } := by
  rw [getElem?_emitted, packet, Option.map_some, Bool.false_or] at unit
  exact (Option.some.inj unit).symm

theorem emitted_flag {k : Nat} {c : Selected} {u : TsUnit} (packet : chosen[k]? = some c)
    (unit : (ts.emitted false chosen)[k]? = some u) :
    u.pcrFlag = true ↔ c.pesStream.pid = ts.pcrPid ∧
      ∀ (j : Nat) (d : Selected), j < k → chosen[j]? = some d → d.pesStream.pid ≠ ts.pcrPid := by
  have flag : u.pcrFlag = (decide (ts.pcrPid = c.pesStream.pid) && !ts.recorded chosen k) := by
    rw [emitted_unit packet unit]
    exact pcrFlag_pesUnit ts _ c
  rw [flag, ← recorded_eq_false_iff, Bool.and_eq_true_iff, decide_eq_true_iff, Bool.not_eq_true']
  exact and_congr_left fun _ => eq_comm

/-- Of two units with the clock neither can be before the other. -/
theorem emitted_once {j k : Nat} {u v : TsUnit} (first : (ts.emitted false chosen)[j]? = some u)
    (second : (ts.emitted false chosen)[k]? = some v) (flag : u.pcrFlag = true) (flag' : v.pcrFlag = true) :
    ¬ j < k := by
  intro before
  have packet {l : Nat} {w : TsUnit} (there : (ts.emitted false chosen)[l]? = some w) :
      ∃ c, chosen[l]? = some c := by
    rw [getElem?_emitted, Option.map_eq_some_iff] at there
    obtain ⟨c, packet, -⟩ := there
    exact ⟨c, packet⟩
  obtain ⟨c, early⟩ := packet first
  obtain ⟨d, late⟩ := packet second
  have own := ((emitted_flag early first).1 flag).1
  exact ((emitted_flag late second).1 flag').2 j c before early own

/-- The clock is the time stamp in units of 27 MHz. -/
theorem emitted_clock {k : Nat} {c : Selected} {u : TsUnit} (packet : chosen[k]? = some c)
    (unit : (ts.emitted false chosen)[k]? = some u) (flag : u.pcrFlag = true) : u.pcr = 300 * c.pes.pts := by
  have unit' := emitted_unit packet unit
  subst unit'
  have flagged : ts.pcrPid = c.pesStream.pid ∧ (!ts.recorded chosen k) = true := by
    have both : (ts.pesUnit (ts.recorded chosen k) c).pcrFlag = true := flag
    rw [pcrFlag_pesUnit, Bool.and_eq_true_iff, decide_eq_true_iff] at both
    exact both
  have value : (ts.pesUnit (ts.recorded chosen k) c).pcr = c.pes.pts * 300 := by
    unfold pesUnit
    rw [if_pos flagged]
  rw [BitVec.mul_comm]
  exact value

end Clock

/-- A selection from streams that are sorted is sorted, and stable. -/
theorem ordered_of_leastRun {ts : TsStream} {chosen : List Selected}
    (least : Selection.LeastRun TsPes.ptsIndicator clock (ts.streams.map TsStreamPes.packets)
      (chosen.map fun c => (c.i, c.pes)))
    (sorted : ∀ s ∈ ts.streams, s.packets.Pairwise fun a b => a.pts ≤ b.pts) :
    chosen.Pairwise fun a b => a.pes.pts < b.pes.pts ∨ a.pes.pts = b.pes.pts ∧ a.i ≤ b.i := by
  have queues : ∀ q ∈ ts.streams.map TsStreamPes.packets, q.Pairwise fun a b => clock a ≤ clock b := by
    intro q member
    obtain ⟨s, there, rfl⟩ := List.mem_map.mp member
    exact (sorted s there).imp (fun le => BitVec.le_def.mp le)
  have ordered := least.pairwise queues
  rw [List.pairwise_map] at ordered
  apply ordered.imp
  rintro a b (less | ⟨equal, first⟩)
  · exact Or.inl (BitVec.lt_def.mpr less)
  · exact Or.inr ⟨BitVec.eq_of_toNat_eq equal, first⟩

/-- **The order of the remultiplexed packets.** When all packets have a time stamp and
`packPes` does not fail, it appends the units of a merge of the streams, sorted if they
are, with the clock in the first packet of its stream. -/
theorem packPes_merged {ts : TsStream} {units : TsUnits}
    (timed : ∀ s ∈ ts.streams, ∀ pes ∈ s.packets, pes.ptsIndicator = true) (ok : (ts.packPes units).1 = 1) :
    ∃ appended chosen, (ts.packPes units).2.list = units.list ++ appended ∧ ts.Merged appended chosen := by
  obtain ⟨chosen, result, least, table⟩ := packPes_leastRun ok
  refine ⟨ts.emitted false chosen, chosen, result, table, ?_, length_emitted ts false chosen, ?_, ?_, ?_, ?_⟩
  · intro i s there
    have taken := least.run.taken_eq i
    rw [Selection.queue, List.getElem?_map, there, Option.map_some, Option.getD_some,
      List.takeWhile_eq_self_iff.mpr (timed s (List.mem_of_getElem? there)), Selection.taken, List.filter_map,
      List.map_map] at taken
    exact taken
  · intro k c u packet unit
    rw [emitted_unit packet unit]
    obtain ⟨pid, -⟩ := ts.pesUnit_eq (ts.recorded chosen k) c
    refine ⟨pid, ?_, rfl⟩
    unfold pesUnit
    split <;> rfl
  · exact ordered_of_leastRun least
  · intro k c u packet unit
    exact ⟨emitted_flag packet unit, emitted_clock packet unit⟩
  · intro j k u v first second flag flag'
    have forward := emitted_once first second flag flag'
    have backward := emitted_once second first flag' flag
    omega

/-- Two streams that are merged into the order of their time stamps. -/
theorem packPes_merged_two :
    ∃ appended chosen, (twoStreams.packPes {}).2.list = [] ++ appended ∧ twoStreams.Merged appended chosen :=
  packPes_merged (by decide) (by decide +kernel)

end TsStream
end Libts
