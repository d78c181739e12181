import Libts.Base.WriteOnce
import Libts.Stream.History
import Libts.Stream.Passes

/-!
# Maps that are repeated

What `unpackPmt` collects is written once: the PID of the clock, and for each stream its
type and its descriptor, where 0 and the absent descriptor stand for what is not known
yet. They are set where they are absent and compared always, so a list of units that was
accepted is accepted again exactly when its maps agree on what is known (`repeatable_iff`).
-/

namespace Libts
set_option autoImplicit false

open WriteOnce

namespace TsPmtDescriptor

def absent (d : TsPmtDescriptor) : Bool := d.tag == 0

theorem size_eq_zero_iff {d : TsPmtDescriptor} : d.size = 0 ↔ d.tag = 0 := by
  unfold size
  split <;> simp_all

theorem equal_iff {a b : TsPmtDescriptor} : a.equal b = true ↔ Agrees absent a b := by
  obtain ⟨tag, data⟩ := a
  obtain ⟨tag', data'⟩ := b
  have blocks : data = data' ↔ data.size = data'.size ∧ data.data = data'.data := by
    constructor
    · rintro rfl
      exact ⟨rfl, rfl⟩
    · rintro ⟨-, same⟩
      exact Block.ext same
  simp [equal, Agrees, absent, blocks, and_assoc]

end TsPmtDescriptor

namespace TsStreamPes

/-- A type that is not known. -/
def noType (type : UInt8) : Bool := type == 0

/-- The entry with the type and the descriptor of the map written to it. -/
def written (p : TsStreamPes) (s : TsPmtStream) : TsStreamPes :=
  { p with
    type := write noType p.type s.streamType
    descriptor := write TsPmtDescriptor.absent p.descriptor s.descriptor }

theorem setType_eq (p : TsStreamPes) (s : TsPmtStream) :
    p.setType s = { p with type := write noType p.type s.streamType } := by
  have value : write noType p.type s.streamType = if p.type = 0 then s.streamType else p.type := write_beq
  rw [setType, value]
  split <;> rfl

theorem setDescriptor_eq (p : TsStreamPes) (s : TsPmtStream) :
    p.setDescriptor s = { p with descriptor := write TsPmtDescriptor.absent p.descriptor s.descriptor } := by
  unfold setDescriptor write TsPmtDescriptor.absent
  simp only [TsPmtDescriptor.size_eq_zero_iff, ne_eq]
  by_cases fresh : p.descriptor.tag = 0 ∧ ¬ s.descriptor.tag = 0
  · rw [if_pos fresh, if_pos (by simpa using fresh)]
    rfl
  · rw [if_neg fresh, if_neg (by simpa using fresh)]

theorem agrees_noType {a b : UInt8} : Agrees noType a b ↔ a = b := agrees_beq

/-- A merge that is accepted writes the entry, which then agrees with the map. -/
theorem merge_accepted {p : TsStreamPes} {s : TsPmtStream} (accepted : (p.merge s).1 ≠ -1) :
    Agrees noType (p.written s).type s.streamType ∧
      Agrees TsPmtDescriptor.absent (p.written s).descriptor s.descriptor ∧ (p.merge s).2 = p.written s := by
  have both : (p.setType s).setDescriptor s = p.written s := by
    rw [setDescriptor_eq, setType_eq]
    rfl
  simp only [merge, both] at accepted ⊢
  split at accepted
  · contradiction
  · rename_i type
    rw [if_neg type]
    split at accepted
    · contradiction
    · rename_i descriptor
      rw [if_neg descriptor]
      rw [setType_eq, not_ne_iff] at type
      refine ⟨agrees_noType.2 type, TsPmtDescriptor.equal_iff.1 ?_, rfl⟩
      simpa using descriptor

/-- A merge of what agrees already is accepted and changes nothing. -/
theorem merge_agrees {p : TsStreamPes} {s : TsPmtStream} (type : Agrees noType p.type s.streamType)
    (descriptor : Agrees TsPmtDescriptor.absent p.descriptor s.descriptor) : p.merge s = (1, p) := by
  have first : p.setType s = p := by rw [setType_eq, write_of_agrees type]
  have second : p.setDescriptor s = p := by rw [setDescriptor_eq, write_of_agrees descriptor]
  have same : ¬ p.type ≠ s.streamType := not_not_intro (agrees_noType.1 type)
  have equal : ¬ (!p.descriptor.equal s.descriptor) = true := by
    rw [TsPmtDescriptor.equal_iff.2 descriptor]
    decide
  simp only [merge, first, second, if_neg same, if_neg equal]

end TsStreamPes

namespace TsStream

/-- A PID that is not known. -/
def noPid (pid : Int) : Bool := pid == 0

/-- The streams of maps with one PID. -/
def ofPid (pid : Int) (ss : List TsPmtStream) : List TsPmtStream := ss.filter fun s => (s.elementaryPid.toNat : Int) = pid

/-- The maps of a program in a list of units; a unit with an incomplete section counts as
an empty one. -/
def maps (program : Int) (us : List TsUnit) : List TsPmt :=
  (us.filter fun u => (u.pid.toNat : Int) = program).map fun u => (TsPmt.construct.unpackBuffer u.data).2

/-- The entry of a stream with what the map says about it, where that was not known. -/
def put (ts : TsStream) (s : TsPmtStream) : TsStream :=
  { ts with
    streams := FindOrInsert.update TsStreamPes.pid TsStreamPes.fresh (s.elementaryPid.toNat : Int)
      (fun p => p.written s) ts.streams }

/-- From `ts` to `ts'` the streams `ss` were written to the entries of their PIDs, and accepted. -/
structure Wrote (ss : List TsPmtStream) (ts ts' : TsStream) : Prop where
  type : ∀ pid, run TsStreamPes.noType (ts.entry pid).type ((ofPid pid ss).map TsPmtStream.streamType) =
    some (ts'.entry pid).type
  descriptor : ∀ pid, run TsPmtDescriptor.absent (ts.entry pid).descriptor
    ((ofPid pid ss).map TsPmtStream.descriptor) = some (ts'.entry pid).descriptor
  there : ∀ s ∈ ss, (s.elementaryPid.toNat : Int) ∈ ts'.streams.map TsStreamPes.pid
  origin : ∀ pid ∈ ts'.streams.map TsStreamPes.pid,
    pid ∈ ts.streams.map TsStreamPes.pid ∨ ∃ s ∈ ss, (s.elementaryPid.toNat : Int) = pid

/-- The streams `ss` can be written to `ts` without a change. -/
def Agreed (ss : List TsPmtStream) (ts : TsStream) : Prop :=
  ∀ s ∈ ss, (s.elementaryPid.toNat : Int) ∈ ts.streams.map TsStreamPes.pid ∧
    Agrees TsStreamPes.noType (ts.entry s.elementaryPid.toNat).type s.streamType ∧
    Agrees TsPmtDescriptor.absent (ts.entry s.elementaryPid.toNat).descriptor s.descriptor

section Streams

variable {ts ts' : TsStream} {ss : List TsPmtStream}

theorem Extends.mem_pids (extended : ts.Extends ts') {pid : Int} (there : pid ∈ ts.streams.map TsStreamPes.pid) :
    pid ∈ ts'.streams.map TsStreamPes.pid := by
  obtain ⟨p, member, rfl⟩ := List.mem_map.mp there
  obtain ⟨i, at_i⟩ := List.mem_iff_getElem?.mp member
  obtain ⟨q, at_i', kept⟩ := extended.streams i p at_i
  exact List.mem_map.mpr ⟨q, List.mem_of_getElem? at_i', kept.pid⟩

theorem ofPid_own {s : TsPmtStream} {pid : Int} (own : (s.elementaryPid.toNat : Int) = pid) (ss : List TsPmtStream) :
    ofPid pid (s :: ss) = s :: ofPid pid ss := List.filter_cons_of_pos (by simpa using own)

theorem ofPid_other {s : TsPmtStream} {pid : Int} (other : (s.elementaryPid.toNat : Int) ≠ pid) (ss : List TsPmtStream) :
    ofPid pid (s :: ss) = ofPid pid ss := List.filter_cons_of_neg (by simpa using other)

theorem ofPid_append (pid : Int) (ss ss' : List TsPmtStream) : ofPid pid (ss ++ ss') = ofPid pid ss ++ ofPid pid ss' :=
  List.filter_append ss ss'

theorem entry_put (ts : TsStream) (s : TsPmtStream) (pid : Int) :
    (ts.put s).entry pid =
      if pid = s.elementaryPid.toNat then (ts.entry s.elementaryPid.toNat).written s else ts.entry pid :=
  FindOrInsert.entry_update TsStreamPes.pid_fresh (fun p => (rfl : (p.written s).pid = p.pid)) pid ts.streams

/-- What a merge makes of the entry is all that counts. -/
theorem merged_eq {s : TsPmtStream} {f : TsStreamPes → TsStreamPes}
    (same : ((ts.entry s.elementaryPid.toNat).merge s).2 = f (ts.entry s.elementaryPid.toNat)) :
    ts.merged s = { ts with
      streams := FindOrInsert.update TsStreamPes.pid TsStreamPes.fresh (s.elementaryPid.toNat : Int) f ts.streams } := by
  rw [merged, FindOrInsert.update_congr TsStreamPes.pid TsStreamPes.fresh same]

theorem mem_pids_merged (ts : TsStream) (s : TsPmtStream) (pid : Int) :
    pid ∈ (ts.merged s).streams.map TsStreamPes.pid ↔
      pid ∈ ts.streams.map TsStreamPes.pid ∨ (s.elementaryPid.toNat : Int) = pid := by
  rw [merged, FindOrInsert.map_update TsStreamPes.pid_fresh (fun p => p.pid_merge s)]
  split
  · rename_i there
    constructor
    · exact Or.inl
    · rintro (before | rfl)
      · exact before
      · exact there
  · rw [List.mem_append, List.mem_singleton, eq_comm (a := pid)]

/-- What is written to one field of the entries, with one stream in front of the rest. -/
theorem run_stream_iff {α : Type} [DecidableEq α] {absent : α → Bool} {field : TsStreamPes → α}
    {value : TsPmtStream → α} {s : TsPmtStream} {pid : Int} {d : α}
    (written : ∀ p : TsStreamPes, field (p.written s) = write absent (field p) (value s)) :
    run absent (field (ts.entry pid)) ((ofPid pid (s :: ss)).map value) = some d ↔
      ((s.elementaryPid.toNat : Int) = pid →
        Agrees absent (field ((ts.entry s.elementaryPid.toNat).written s)) (value s)) ∧
        run absent (field ((ts.put s).entry pid)) ((ofPid pid ss).map value) = some d := by
  rw [entry_put]
  obtain own | other := eq_or_ne (s.elementaryPid.toNat : Int) pid
  · rw [ofPid_own own, List.map_cons, run_cons_iff, if_pos own.symm, written, own]
    exact and_congr_left fun _ => ⟨fun agrees _ => agrees, fun agrees => agrees rfl⟩
  · rw [ofPid_other other, if_neg (Ne.symm other)]
    exact ⟨fun rest => ⟨fun same => absurd same other, rest⟩, fun both => both.2⟩

/-- A pass over the streams of a map that is accepted. -/
theorem mergeStreams_wrote (accepted : mergeStreams ss ts = (1, ts')) : Wrote ss ts ts' := by
  induction ss generalizing ts with
  | nil =>
    cases accepted
    exact ⟨fun _ => rfl, fun _ => rfl, List.forall_mem_nil _, fun _ there => Or.inl there⟩
  | cons s ss ih =>
    rw [mergeStreams_cons] at accepted
    split at accepted
    · cases accepted
    · rename_i taken
      obtain ⟨type, descriptor, written⟩ := TsStreamPes.merge_accepted taken
      obtain ⟨types, descriptors, there, origin⟩ := ih accepted
      have later : (ts.merged s).Extends ts' := by
        have extended := extends_mergeStreams ss (ts.merged s)
        rw [accepted] at extended
        exact extended
      have own := (ts.mem_pids_merged s s.elementaryPid.toNat).2 (Or.inr rfl)
      have step : ts.merged s = ts.put s := merged_eq (f := fun p => p.written s) written
      rw [step] at types descriptors
      refine ⟨?_, ?_, List.forall_mem_cons.mpr ⟨later.mem_pids own, there⟩, ?_⟩
      · intro pid
        apply (run_stream_iff fun _ => rfl).2
        exact ⟨fun _ => type, types pid⟩
      · intro pid
        apply (run_stream_iff fun _ => rfl).2
        exact ⟨fun _ => descriptor, descriptors pid⟩
      · intro pid there'
        obtain before | ⟨later, member, same⟩ := origin pid there'
        · obtain before | same := (ts.mem_pids_merged s pid).1 before
          · exact Or.inl before
          · exact Or.inr ⟨s, List.mem_cons_self, same⟩
        · exact Or.inr ⟨later, List.mem_cons_of_mem s member, same⟩

/-- A pass over streams that agree with the table changes nothing. -/
theorem mergeStreams_agreed (agreed : Agreed ss ts) : mergeStreams ss ts = (1, ts) := by
  induction ss with
  | nil => rfl
  | cons s ss ih =>
    obtain ⟨⟨there, type, descriptor⟩, rest⟩ := List.forall_mem_cons.mp agreed
    have same := TsStreamPes.merge_agrees type descriptor
    have kept : ts.merged s = ts := by
      have fixed : ((ts.entry s.elementaryPid.toNat).merge s).2 = ts.entry s.elementaryPid.toNat := by rw [same]
      rw [merged, FindOrInsert.update_fixed _ _ there fixed]
    have accepted : ¬ ((ts.entry s.elementaryPid.toNat).merge s).1 = -1 := by
      rw [same]
      exact (by decide : ¬ (1 : Int) = -1)
    rw [mergeStreams_cons, if_neg accepted, kept, ih rest]

theorem pcrPid_mergeStreams (ss : List TsPmtStream) (ts : TsStream) : (mergeStreams ss ts).2.pcrPid = ts.pcrPid := by
  apply mergeStreams_keeps (P := fun t => t.pcrPid = ts.pcrPid)
  · exact fun _ _ kept => kept
  · rfl

end Streams

section Maps

variable {ts ts' : TsStream} {us : List TsUnit}

/-- From `ts` to `ts'` the maps `ms` were written, and accepted. -/
structure WroteMaps (ms : List TsPmt) (ts ts' : TsStream) : Prop where
  clock : run noPid ts.pcrPid (ms.map fun m => (m.pcrPid.toNat : Int)) = some ts'.pcrPid
  streams : Wrote (ms.flatMap TsPmt.streams) ts ts'

theorem setPcrPid_eq (ts : TsStream) (pid : BitVec 13) :
    ts.setPcrPid pid = { ts with pcrPid := write noPid ts.pcrPid pid.toNat } := by
  have value : write noPid ts.pcrPid pid.toNat = if ts.pcrPid = 0 then (pid.toNat : Int) else ts.pcrPid := write_beq
  rw [setPcrPid, value]
  split <;> rfl

theorem agrees_noPid {a b : Int} : Agrees noPid a b ↔ a = b := agrees_beq

/-- Writes to one table after those to another. -/
theorem Wrote.append {ss ss' : List TsPmtStream} {ts ts' ts'' : TsStream} (first : Wrote ss ts ts')
    (second : Wrote ss' ts' ts'') (later : ts'.Extends ts'') : Wrote (ss ++ ss') ts ts'' := by
  refine ⟨?_, ?_, ?_, ?_⟩
  · intro pid
    rw [ofPid_append, List.map_append, run_append, first.type pid, Option.bind_some, second.type pid]
  · intro pid
    rw [ofPid_append, List.map_append, run_append, first.descriptor pid, Option.bind_some, second.descriptor pid]
  · intro s member
    obtain before | after := List.mem_append.mp member
    · exact later.mem_pids (first.there s before)
    · exact second.there s after
  · intro pid there
    obtain middle | ⟨s, member, same⟩ := second.origin pid there
    · obtain before | ⟨s, member, same⟩ := first.origin pid middle
      · exact Or.inl before
      · exact Or.inr ⟨s, List.mem_append_left ss' member, same⟩
    · exact Or.inr ⟨s, List.mem_append_right ss member, same⟩

theorem maps_own {u : TsUnit} {program : Int} (own : (u.pid.toNat : Int) = program) (us : List TsUnit) :
    maps program (u :: us) = (TsPmt.construct.unpackBuffer u.data).2 :: maps program us := by
  rw [maps, List.filter_cons_of_pos (by simpa using own)]
  rfl

theorem maps_other {u : TsUnit} {program : Int} (other : (u.pid.toNat : Int) ≠ program) (us : List TsUnit) :
    maps program (u :: us) = maps program us := by
  rw [maps, List.filter_cons_of_neg (by simpa using other)]
  rfl

/-- The decoder did not refuse the sections of the program. -/
def Decoded (ts : TsStream) (us : List TsUnit) : Prop :=
  ∀ u ∈ us, (u.pid.toNat : Int) = ts.programPid → (TsPmt.construct.unpackBuffer u.data).1 ≠ -1

/-- The first unit of the program in a pass that is accepted. -/
theorem unpackPmtLoop_accepted {u : TsUnit} (own : (u.pid.toNat : Int) = ts.programPid)
    (accepted : unpackPmtLoop (u :: us) ts = (1, ts')) :
    ∃ merged, (TsPmt.construct.unpackBuffer u.data).1 ≠ -1 ∧
      (ts.setPcrPid (TsPmt.construct.unpackBuffer u.data).2.pcrPid).pcrPid =
        (TsPmt.construct.unpackBuffer u.data).2.pcrPid.toNat ∧
      mergeStreams (TsPmt.construct.unpackBuffer u.data).2.streams
        (ts.setPcrPid (TsPmt.construct.unpackBuffer u.data).2.pcrPid) = (1, merged) ∧
      unpackPmtLoop us merged = (1, ts') := by
  simp only [unpackPmtLoop, if_pos own] at accepted
  split at accepted
  · cases accepted
  · rename_i decoded
    split at accepted
    · cases accepted
    · rename_i clock
      split at accepted
      · cases accepted
      · rename_i taken
        have result := (mergeStreams_result _ _).resolve_left taken
        exact ⟨_, decoded, not_not.mp clock, Prod.ext result rfl, accepted⟩

/-- A pass over the units that is accepted. -/
theorem unpackPmtLoop_wrote (accepted : unpackPmtLoop us ts = (1, ts')) :
    ts.Decoded us ∧ WroteMaps (maps ts.programPid us) ts ts' := by
  induction us generalizing ts with
  | nil =>
    cases accepted
    exact ⟨List.forall_mem_nil _, rfl, fun _ => rfl, fun _ => rfl, List.forall_mem_nil _, fun _ there => Or.inl there⟩
  | cons u us ih =>
    by_cases own : (u.pid.toNat : Int) = ts.programPid
    · obtain ⟨merged, decoded, clock, merge, rest⟩ := unpackPmtLoop_accepted own accepted
      rw [setPcrPid_eq] at clock merge
      have wrote := mergeStreams_wrote merge
      have program := programPid_mergeStreams (TsPmt.construct.unpackBuffer u.data).2.streams
        { ts with pcrPid := write noPid ts.pcrPid (TsPmt.construct.unpackBuffer u.data).2.pcrPid.toNat }
      have kept := pcrPid_mergeStreams (TsPmt.construct.unpackBuffer u.data).2.streams
        { ts with pcrPid := write noPid ts.pcrPid (TsPmt.construct.unpackBuffer u.data).2.pcrPid.toNat }
      rw [merge] at program kept
      obtain ⟨decoded', clocks, streams⟩ := ih rest
      have later : merged.Extends ts' := by
        have extended := extends_unpackPmtLoop us merged
        rw [rest] at extended
        exact extended
      rw [program] at clocks streams
      rw [maps_own own]
      refine ⟨List.forall_mem_cons.mpr ⟨fun _ => decoded, ?_⟩, ?_, ?_⟩
      · intro v member own'
        exact decoded' v member (own'.trans program.symm)
      · rw [List.map_cons, run_cons_iff]
        rw [kept] at clocks
        exact ⟨agrees_noPid.2 clock, clocks⟩
      · rw [List.flatMap_cons]
        have first : Wrote (TsPmt.construct.unpackBuffer u.data).2.streams ts merged :=
          ⟨wrote.type, wrote.descriptor, wrote.there, wrote.origin⟩
        exact first.append streams later
    · rw [unpackPmtLoop_other own] at accepted
      obtain ⟨decoded, wrote⟩ := ih accepted
      rw [maps_other own]
      exact ⟨List.forall_mem_cons.mpr ⟨fun same => absurd same own, decoded⟩, wrote⟩

/-- A pass over maps that agree with what is known changes nothing. -/
theorem unpackPmtLoop_agreed (decoded : ts.Decoded us)
    (clock : ∀ m ∈ maps ts.programPid us, Agrees noPid ts.pcrPid m.pcrPid.toNat)
    (streams : ∀ m ∈ maps ts.programPid us, Agreed m.streams ts) :
    unpackPmtLoop us ts = (1, ts) := by
  induction us with
  | nil => rfl
  | cons u us ih =>
    obtain ⟨first, others⟩ := List.forall_mem_cons.mp decoded
    by_cases own : (u.pid.toNat : Int) = ts.programPid
    · rw [maps_own own] at clock streams
      obtain ⟨agrees, clocks⟩ := List.forall_mem_cons.mp clock
      obtain ⟨agreed, rest⟩ := List.forall_mem_cons.mp streams
      have same : ts.setPcrPid (TsPmt.construct.unpackBuffer u.data).2.pcrPid = ts := by
        rw [setPcrPid_eq, write_of_agrees agrees]
      have equal : ¬ ts.pcrPid ≠ (TsPmt.construct.unpackBuffer u.data).2.pcrPid.toNat :=
        not_not_intro (agrees_noPid.1 agrees)
      have accepted : ¬ (1 : Int) = -1 := by decide
      simp only [unpackPmtLoop, if_pos own, if_neg (first own), same, if_neg equal, mergeStreams_agreed agreed,
        if_neg accepted]
      exact ih others clocks rest
    · rw [unpackPmtLoop_other own]
      rw [maps_other own] at clock streams
      exact ih others clock streams

/-- What is known is known of all maps: their clocks, and for each PID the types and the
descriptors, are all absent or all present. -/
structure Steady (ms : List TsPmt) : Prop where
  clock : ∀ a ∈ ms, ∀ b ∈ ms, a.pcrPid = 0 → b.pcrPid = 0
  type : ∀ a ∈ ms.flatMap TsPmt.streams, ∀ b ∈ ms.flatMap TsPmt.streams, a.elementaryPid = b.elementaryPid →
    a.streamType = 0 → b.streamType = 0
  descriptor : ∀ a ∈ ms.flatMap TsPmt.streams, ∀ b ∈ ms.flatMap TsPmt.streams, a.elementaryPid = b.elementaryPid →
    a.descriptor.tag = 0 → b.descriptor.tag = 0

/-- The values that are absent under a map. -/
theorem uniform_map_iff {α β : Type} {absent : β → Bool} {f : α → β} {l : List α} :
    Uniform absent (l.map f) ↔ ∀ a ∈ l, ∀ b ∈ l, absent (f a) = true → absent (f b) = true := by
  simp [Uniform]

theorem mem_ofPid {s : TsPmtStream} {pid : Int} {ss : List TsPmtStream} :
    s ∈ ofPid pid ss ↔ s ∈ ss ∧ (s.elementaryPid.toNat : Int) = pid := by
  simp [ofPid]

theorem elementaryPid_eq_iff {a b : TsPmtStream} :
    (a.elementaryPid.toNat : Int) = b.elementaryPid.toNat ↔ a.elementaryPid = b.elementaryPid := by
  rw [Int.ofNat_inj, BitVec.toNat_inj]

theorem noPid_toNat_iff {pid : BitVec 13} : noPid (pid.toNat : Int) = true ↔ pid = 0 := by
  rw [noPid, beq_iff_eq, Int.natCast_eq_zero, ← BitVec.toNat_inj]
  rfl

/-- One value for each register. -/
theorem steady_iff {ms : List TsPmt} :
    Steady ms ↔ Uniform noPid (ms.map fun m => (m.pcrPid.toNat : Int)) ∧
      ∀ pid, Uniform TsStreamPes.noType ((ofPid pid (ms.flatMap TsPmt.streams)).map TsPmtStream.streamType) ∧
        Uniform TsPmtDescriptor.absent ((ofPid pid (ms.flatMap TsPmt.streams)).map TsPmtStream.descriptor) := by
  simp only [uniform_map_iff, mem_ofPid, noPid_toNat_iff, TsStreamPes.noType, TsPmtDescriptor.absent, beq_iff_eq]
  constructor
  · intro steady
    refine ⟨steady.clock, ?_⟩
    intro pid
    constructor
    · rintro a ⟨first, own⟩ b ⟨second, own'⟩
      exact steady.type a first b second (elementaryPid_eq_iff.1 (own.trans own'.symm))
    · rintro a ⟨first, own⟩ b ⟨second, own'⟩
      exact steady.descriptor a first b second (elementaryPid_eq_iff.1 (own.trans own'.symm))
  · rintro ⟨clocks, streams⟩
    refine ⟨clocks, ?_, ?_⟩
    · intro a first b second same
      exact (streams a.elementaryPid.toNat).1 a ⟨first, rfl⟩ b ⟨second, elementaryPid_eq_iff.2 same.symm⟩
    · intro a first b second same
      exact (streams a.elementaryPid.toNat).2 a ⟨first, rfl⟩ b ⟨second, elementaryPid_eq_iff.2 same.symm⟩

/-- After steady maps the table agrees with each of them. -/
theorem WroteMaps.agreed {ms : List TsPmt} (wrote : WroteMaps ms ts ts') (steady : Steady ms) :
    (∀ m ∈ ms, Agrees noPid ts'.pcrPid m.pcrPid.toNat) ∧ ∀ m ∈ ms, Agreed m.streams ts' := by
  obtain ⟨clocks, streams⟩ := steady_iff.1 steady
  constructor
  · intro m member
    exact agrees_of_uniform wrote.clock clocks _ (List.mem_map_of_mem member)
  · intro m member s inside
    have there : s ∈ ms.flatMap TsPmt.streams := List.mem_flatMap_of_mem member inside
    have own : s ∈ ofPid s.elementaryPid.toNat (ms.flatMap TsPmt.streams) := mem_ofPid.2 ⟨there, rfl⟩
    obtain ⟨types, descriptors⟩ := streams s.elementaryPid.toNat
    refine ⟨wrote.streams.there s there, ?_, ?_⟩
    · exact agrees_of_uniform (wrote.streams.type _) types _ (List.mem_map_of_mem own)
    · exact agrees_of_uniform (wrote.streams.descriptor _) descriptors _ (List.mem_map_of_mem own)

/-- Maps that were written again without a change were steady. -/
theorem WroteMaps.steady {ms : List TsPmt} (wrote : WroteMaps ms ts ts') (again : WroteMaps ms ts' ts') : Steady ms := by
  refine steady_iff.2 ⟨(again_iff wrote.clock).1 again.clock, ?_⟩
  intro pid
  constructor
  · exact (again_iff (wrote.streams.type pid)).1 (again.streams.type pid)
  · exact (again_iff (wrote.streams.descriptor pid)).1 (again.streams.descriptor pid)

end Maps

/-- A second pass over the units returns 1 and changes nothing. -/
def Repeatable (ts : TsStream) (units : TsUnits) : Prop := ts.unpackPmt units = (1, ts)

section Repeated

variable {ts ts' : TsStream} {units : TsUnits}

/-- **Repeated maps.** Units that were accepted can be repeated exactly when their maps are
steady. -/
theorem repeatable_iff (program : ts.programPid ≠ 0) (accepted : ts.unpackPmt units = (1, ts')) :
    ts'.Repeatable units ↔ Steady (maps ts.programPid units.list) := by
  rw [unpackPmt, if_neg program] at accepted
  obtain ⟨decoded, wrote⟩ := unpackPmtLoop_wrote accepted
  have kept : ts'.programPid = ts.programPid := by
    have extended := extends_unpackPmtLoop units.list ts
    rw [accepted] at extended
    exact extended.programPid program
  rw [Repeatable, unpackPmt, if_neg (kept ▸ program)]
  constructor
  · intro again
    obtain ⟨-, wrote'⟩ := unpackPmtLoop_wrote again
    rw [kept] at wrote'
    exact wrote.steady wrote'
  · intro steady
    obtain ⟨clocks, streams⟩ := wrote.agreed steady
    rw [← kept] at clocks streams
    refine unpackPmtLoop_agreed ?_ clocks streams
    intro u member own
    exact decoded u member (own.trans kept)

/-- A map of one video stream, without a descriptor. -/
def plainUnit : TsUnit :=
  { pid := 0x100
    data := [0x00, 0x02, 0xb0, 0x12, 0x00, 0x01, 0xc1, 0x00, 0x00, 0xe1, 0x01, 0xf0, 0x00, 0x1b, 0xe1, 0x01, 0xf0, 0x00,
      0x00, 0x00, 0x00, 0x00] }

/-- The same map with an empty descriptor for the stream. -/
def describedUnit : TsUnit :=
  { pid := 0x100
    data := [0x00, 0x02, 0xb0, 0x14, 0x00, 0x01, 0xc1, 0x00, 0x00, 0xe1, 0x01, 0xf0, 0x00, 0x1b, 0xe1, 0x01, 0xf0, 0x02,
      0x28, 0x00, 0x00, 0x00, 0x00, 0x00] }

/-- The table after the maps. -/
def collected (descriptor : TsPmtDescriptor) : TsStream :=
  { programPid := 0x100
    pcrPid := 0x101
    streams := [{ pid := 0x101, type := 0x1b, descriptor := descriptor }] }

theorem repeatable_iff_plain :
    (collected {}).Repeatable { list := [plainUnit, plainUnit] } ↔
      Steady (maps 0x100 [plainUnit, plainUnit]) := by
  have program : ({ programPid := 0x100 } : TsStream).programPid ≠ 0 := by decide
  have accepted : ({ programPid := 0x100 } : TsStream).unpackPmt { list := [plainUnit, plainUnit] } =
      (1, collected {}) := by decide +kernel
  exact repeatable_iff program accepted

/-- The descriptor of the second map is in the table when the first map comes again. -/
theorem not_repeatable_described :
    ({ programPid := 0x100 } : TsStream).unpackPmt { list := [plainUnit, describedUnit] } =
        (1, collected { tag := 0x28 }) ∧
      ¬ (collected { tag := 0x28 }).Repeatable { list := [plainUnit, describedUnit] } := by
  constructor
  · decide +kernel
  · rw [Repeatable]
    decide +kernel

end Repeated

end TsStream

end Libts
