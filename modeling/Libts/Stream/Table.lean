import Libts.Base.EarlyReturn
import Libts.Stream.Stream

/-!
# The table of streams

The table is a find-or-insert table under the PID. It starts empty, `create` puts an entry
into it only where `lookup` finds none, and no other function changes a PID, so the PIDs
are pairwise distinct in every stream the functions build (`Distinct`).
-/

namespace Libts
set_option autoImplicit false

namespace TsStreamPes

theorem pid_fresh (pid : Int) : (fresh pid).pid = pid := rfl

theorem pid_setType (p : TsStreamPes) (s : TsPmtStream) : (p.setType s).pid = p.pid := by
  rw [setType]
  split <;> rfl

theorem pid_setDescriptor (p : TsStreamPes) (s : TsPmtStream) : (p.setDescriptor s).pid = p.pid := by
  rw [setDescriptor]
  split <;> rfl

theorem pid_merge (p : TsStreamPes) (s : TsPmtStream) : (p.merge s).2.pid = p.pid := by
  have type := p.pid_setType s
  have descriptor := (p.setType s).pid_setDescriptor s
  simp only [merge]
  split
  · exact type
  · split
    · exact descriptor.trans type
    · exact descriptor.trans type

/-- Decoding the packets of a stream adds to its list and changes nothing else. -/
theorem unpackUnits_eq (us : List TsUnit) (p : TsStreamPes) :
    ∃ more, unpackUnits us p = { p with packets := p.packets ++ more } := by
  induction us generalizing p with
  | nil =>
    refine ⟨[], ?_⟩
    rw [unpackUnits, List.append_nil]
  | cons u us ih =>
    have push (pes : TsPes) : ∃ more, unpackUnits us { p with packets := p.packets ++ [pes] } =
        { p with packets := p.packets ++ more } := by
      obtain ⟨more, rest⟩ := ih { p with packets := p.packets ++ [pes] }
      refine ⟨pes :: more, ?_⟩
      rw [rest, List.append_assoc]
      rfl
    simp only [unpackUnits]
    split
    · split
      · exact ih p
      · exact push _
    · exact ih p

theorem pid_unpackUnits (us : List TsUnit) (p : TsStreamPes) : (unpackUnits us p).pid = p.pid := by
  obtain ⟨more, extended⟩ := unpackUnits_eq us p
  rw [extended]

end TsStreamPes

namespace TsStream

/-- A PID in its 13 bits and back. -/
theorem toNat_ofInt_pid {pid : Int} (low : 0 ≤ pid) (high : pid < 8192) : ((BitVec.ofInt 13 pid).toNat : Int) = pid := by
  rw [BitVec.toNat_ofInt]
  omega

/-- No two streams have one PID. -/
def Distinct (ts : TsStream) : Prop := (ts.streams.map TsStreamPes.pid).Nodup

instance (ts : TsStream) : Decidable ts.Distinct := inferInstanceAs (Decidable (ts.streams.map TsStreamPes.pid).Nodup)

variable {ts : TsStream}

/-- The entry for a PID. -/
def entry (ts : TsStream) (pid : Int) : TsStreamPes :=
  FindOrInsert.entry TsStreamPes.pid TsStreamPes.fresh pid ts.streams

/-- The table after one stream of a map. -/
def merged (ts : TsStream) (s : TsPmtStream) : TsStream :=
  { ts with
    streams := FindOrInsert.update TsStreamPes.pid TsStreamPes.fresh (s.elementaryPid.toNat : Int)
      (fun p => (p.merge s).2) ts.streams }

/-- The entry that is merged is the one the table has for the PID, or a fresh one. -/
theorem mergeStreams_cons (s : TsPmtStream) (ss : List TsPmtStream) (ts : TsStream) :
    mergeStreams (s :: ss) ts =
      if ((ts.entry s.elementaryPid.toNat).merge s).1 = -1 then (-1, ts.merged s) else mergeStreams ss (ts.merged s) := by
  have there := FindOrInsert.getElem?_slot TsStreamPes.pid TsStreamPes.fresh (s.elementaryPid.toNat : Int) ts.streams
  have set := FindOrInsert.set_slot TsStreamPes.pid TsStreamPes.fresh (s.elementaryPid.toNat : Int)
    (fun p => (p.merge s).2) ts.streams
  simp only [mergeStreams, create, there, Option.getD_some, set]
  rfl

/-! ## The loops -/

/-- One unit in the loop of `unpackPat`. -/
def patStep (u : TsUnit) (ts : TsStream) : Int × TsStream :=
  if u.pid = 0 then
    let (n, pat) := TsPat.construct.unpackBuffer u.data
    if n = -1 then (-1, ts)
    else
      let ts := ts.setProgramPid pat.programPid
      if ts.programPid ≠ pat.programPid.toNat then (-1, ts) else (1, ts)
  else (1, ts)

/-- One stream of a map in the inner loop of `unpackPmt`. -/
def mergeStep (s : TsPmtStream) (ts : TsStream) : Int × TsStream :=
  (((ts.entry s.elementaryPid.toNat).merge s).1, ts.merged s)

/-- One unit in the loop of `unpackPmt`. -/
def pmtStep (u : TsUnit) (ts : TsStream) : Int × TsStream :=
  if (u.pid.toNat : Int) = ts.programPid then
    let (n, pmt) := TsPmt.construct.unpackBuffer u.data
    if n = -1 then (-1, ts)
    else
      let ts := ts.setPcrPid pmt.pcrPid
      if ts.pcrPid ≠ pmt.pcrPid.toNat then (-1, ts) else mergeStreams pmt.streams ts
  else (1, ts)

theorem unpackPatLoop_eq (us : List TsUnit) (ts : TsStream) : unpackPatLoop us ts = EarlyReturn.loop patStep us ts := by
  induction us generalizing ts with
  | nil => rfl
  | cons u us ih =>
    simp only [unpackPatLoop, EarlyReturn.loop, patStep]
    split
    · split
      · exact (if_pos rfl).symm
      · split
        · exact (if_pos rfl).symm
        · exact ih _
    · exact ih ts

theorem mergeStreams_eq (ss : List TsPmtStream) (ts : TsStream) : mergeStreams ss ts = EarlyReturn.loop mergeStep ss ts := by
  induction ss generalizing ts with
  | nil => rfl
  | cons s ss ih =>
    rw [mergeStreams_cons, ih]
    rfl

theorem unpackPmtLoop_eq (us : List TsUnit) (ts : TsStream) : unpackPmtLoop us ts = EarlyReturn.loop pmtStep us ts := by
  induction us generalizing ts with
  | nil => rfl
  | cons u us ih =>
    simp only [unpackPmtLoop, EarlyReturn.loop, pmtStep]
    split
    · split
      · exact (if_pos rfl).symm
      · split
        · exact (if_pos rfl).symm
        · split
          · rfl
          · exact ih _
    · exact ih ts

theorem unpackPatLoop_result (us : List TsUnit) (ts : TsStream) :
    (unpackPatLoop us ts).1 = -1 ∨ (unpackPatLoop us ts).1 = 1 := by
  rw [unpackPatLoop_eq]
  exact EarlyReturn.loop_result patStep us ts

theorem mergeStreams_result (ss : List TsPmtStream) (ts : TsStream) :
    (mergeStreams ss ts).1 = -1 ∨ (mergeStreams ss ts).1 = 1 := by
  rw [mergeStreams_eq]
  exact EarlyReturn.loop_result mergeStep ss ts

theorem unpackPmtLoop_result (us : List TsUnit) (ts : TsStream) :
    (unpackPmtLoop us ts).1 = -1 ∨ (unpackPmtLoop us ts).1 = 1 := by
  rw [unpackPmtLoop_eq]
  exact EarlyReturn.loop_result pmtStep us ts

/-! ## What the loops keep -/

section Keeps

variable {P : TsStream → Prop}

theorem unpackPatLoop_keeps (set : ∀ ts pid, P ts → P (ts.setProgramPid pid)) (us : List TsUnit) {ts : TsStream}
    (start : P ts) : P (unpackPatLoop us ts).2 := by
  rw [unpackPatLoop_eq]
  refine EarlyReturn.loop_keeps ?_ us start
  intro u t kept
  have after := set t (TsPat.construct.unpackBuffer u.data).2.programPid kept
  simp only [patStep]
  split
  · split
    · exact kept
    · split <;> exact after
  · exact kept

variable (merge : ∀ ts s, P ts → P (ts.merged s))
include merge

theorem mergeStreams_keeps (ss : List TsPmtStream) {ts : TsStream} (start : P ts) : P (mergeStreams ss ts).2 := by
  rw [mergeStreams_eq]
  refine EarlyReturn.loop_keeps ?_ ss start
  exact fun s t kept => merge t s kept

theorem unpackPmtLoop_keeps (set : ∀ ts pid, P ts → P (ts.setPcrPid pid)) (us : List TsUnit) {ts : TsStream}
    (start : P ts) : P (unpackPmtLoop us ts).2 := by
  rw [unpackPmtLoop_eq]
  refine EarlyReturn.loop_keeps ?_ us start
  intro u t kept
  have after := set t (TsPmt.construct.unpackBuffer u.data).2.pcrPid kept
  have taken := mergeStreams_keeps merge (TsPmt.construct.unpackBuffer u.data).2.streams after
  simp only [pmtStep]
  split
  · split
    · exact kept
    · split
      · exact after
      · exact taken
  · exact kept

end Keeps

theorem streams_setProgramPid (ts : TsStream) (pid : BitVec 13) : (ts.setProgramPid pid).streams = ts.streams := by
  rw [setProgramPid]
  split <;> rfl

theorem streams_setPcrPid (ts : TsStream) (pid : BitVec 13) : (ts.setPcrPid pid).streams = ts.streams := by
  rw [setPcrPid]
  split <;> rfl

theorem distinct_construct : construct.Distinct := List.nodup_nil

theorem distinct_create (distinct : ts.Distinct) (pid : Int) : (ts.create pid).1.Distinct := by
  simp only [Distinct, create]
  rw [FindOrInsert.slot_fst]
  exact FindOrInsert.nodup_update TsStreamPes.pid_fresh (fun _ => rfl) distinct

/-- The position `create` returns holds what `lookup` then finds. -/
theorem lookup_create (ts : TsStream) (pid : Int) :
    (ts.create pid).1.lookup pid = (ts.create pid).1.streams[(ts.create pid).2]? := by
  have found := FindOrInsert.find_update (k := pid) (f := id) TsStreamPes.pid_fresh (fun _ => rfl) pid ts.streams
  rw [if_pos rfl] at found
  simp only [create, lookup]
  rw [FindOrInsert.getElem?_slot, FindOrInsert.slot_fst, found]
  rfl

theorem distinct_delete (distinct : ts.Distinct) (pid : Int) : (ts.delete pid).Distinct :=
  List.Nodup.sublist (List.Sublist.map _ List.eraseP_sublist) distinct

theorem streams_unpackPatLoop (us : List TsUnit) (ts : TsStream) : (unpackPatLoop us ts).2.streams = ts.streams := by
  apply unpackPatLoop_keeps (P := fun t => t.streams = ts.streams)
  · intro t pid kept
    exact (t.streams_setProgramPid pid).trans kept
  · rfl

theorem distinct_unpackPat (distinct : ts.Distinct) (units : TsUnits) : (ts.unpackPat units).2.Distinct := by
  rw [Distinct, unpackPat, streams_unpackPatLoop]
  exact distinct

theorem distinct_unpackPmtLoop (us : List TsUnit) (distinct : ts.Distinct) : (unpackPmtLoop us ts).2.Distinct := by
  apply unpackPmtLoop_keeps (P := Distinct) _ _ us distinct
  · intro t s kept
    exact FindOrInsert.nodup_update TsStreamPes.pid_fresh (fun p => TsStreamPes.pid_merge p s) kept
  · intro t pid kept
    rw [Distinct, streams_setPcrPid]
    exact kept

theorem distinct_unpackPmt (distinct : ts.Distinct) (units : TsUnits) : (ts.unpackPmt units).2.Distinct := by
  rw [unpackPmt]
  split
  · exact distinct
  · exact distinct_unpackPmtLoop units.list distinct

theorem distinct_unpackPes (distinct : ts.Distinct) (units : TsUnits) : (ts.unpackPes units).2.Distinct := by
  have pids : TsStreamPes.pid ∘ TsStreamPes.unpackUnits units.list = TsStreamPes.pid :=
    funext (TsStreamPes.pid_unpackUnits units.list)
  rw [Distinct, unpackPes, List.map_map, pids]
  exact distinct

/-- Decoding, accepted or not, keeps the PIDs distinct. -/
theorem distinct_unpack (distinct : ts.Distinct) (units : TsUnits) : (ts.unpack units).2.Distinct := by
  have pat := distinct_unpackPat distinct units
  have pmt := distinct_unpackPmt pat units
  simp only [unpack]
  split
  · split
    · exact distinct_unpackPes pmt units
    · exact pmt
  · exact pat

end TsStream
end Libts
