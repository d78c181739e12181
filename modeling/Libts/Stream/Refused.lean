import Libts.Stream.Repeated

/-!
# Maps that are refused

`unpackPmt` writes as it goes: the PID of the clock, the streams, their types and their
descriptors are set entry by entry, and each of its error returns leaves what was written
by then. A refused list is therefore the accepted one up to the entry that was refused
(`Interrupted`), and that entry itself leaves at most its type.
-/

namespace Libts
set_option autoImplicit false

open WriteOnce

namespace TsStreamPes

variable {p q : TsStreamPes} {s : TsPmtStream}

/-- A merge into an entry that then agrees with the map. -/
theorem merge_taken (type : Agrees noType (p.written s).type s.streamType)
    (descriptor : Agrees TsPmtDescriptor.absent (p.written s).descriptor s.descriptor) : p.merge s = (1, p.written s) := by
  have both : (p.setType s).setDescriptor s = p.written s := by
    rw [setDescriptor_eq, setType_eq]
    rfl
  have same : ¬ (p.setType s).type ≠ s.streamType := by
    rw [setType_eq]
    exact not_not_intro (agrees_noType.1 type)
  have equal : ¬ (!(p.written s).descriptor.equal s.descriptor) = true := by
    rw [TsPmtDescriptor.equal_iff.2 descriptor]
    decide
  simp only [merge, if_neg same, both, if_neg equal]

/-- A type that is known and is another. -/
def OtherType (p : TsStreamPes) (s : TsPmtStream) : Prop := p.type ≠ 0 ∧ p.type ≠ s.streamType

/-- A descriptor that is known and is another, of a stream with the type. -/
def OtherDescriptor (p : TsStreamPes) (s : TsPmtStream) : Prop :=
  (p.type = 0 ∨ p.type = s.streamType) ∧ p.descriptor.tag ≠ 0 ∧ p.descriptor ≠ s.descriptor

theorem setType_of_otherType (other : p.OtherType s) : p.setType s = p := if_neg other.1

theorem setType_of_same (same : p.type = 0 ∨ p.type = s.streamType) :
    p.setType s = { p with type := s.streamType } := by
  rw [setType]
  obtain unset | same := same
  · rw [if_pos unset]
  · split
    · rfl
    · rw [← same]

theorem setDescriptor_of_known (known : p.descriptor.tag ≠ 0) : p.setDescriptor s = p := by
  have size : ¬ (p.descriptor.size = 0 ∧ s.descriptor.size ≠ 0) := by
    rw [TsPmtDescriptor.size_eq_zero_iff]
    exact fun both => known both.1
  rw [setDescriptor, if_neg size]

theorem merge_of_otherType (other : p.OtherType s) : p.merge s = (-1, p) := by
  have kept := setType_of_otherType other
  simp only [merge, kept, if_pos other.2]

theorem merge_of_otherDescriptor (other : p.OtherDescriptor s) : p.merge s = (-1, { p with type := s.streamType }) := by
  obtain ⟨same, known, differs⟩ := other
  have equal : p.descriptor.equal s.descriptor = false := by
    rw [Bool.eq_false_iff]
    intro equal
    obtain ⟨unset, -⟩ | same := TsPmtDescriptor.equal_iff.1 equal
    · exact known (eq_of_beq unset)
    · exact differs same
  have type : ¬ s.streamType ≠ s.streamType := not_not_intro rfl
  have descriptor : ({ p with type := s.streamType } : TsStreamPes).setDescriptor s =
      { p with type := s.streamType } := setDescriptor_of_known known
  simp only [merge, setType_of_same same, if_neg type, descriptor, equal, Bool.not_false, if_true]

/-- The two ways in which a merge is refused. -/
theorem merge_refused_iff :
    p.merge s = (-1, q) ↔ p.OtherType s ∧ q = p ∨ p.OtherDescriptor s ∧ q = { p with type := s.streamType } := by
  constructor
  · intro refused
    by_cases type : p.OtherType s
    · rw [merge_of_otherType type] at refused
      exact Or.inl ⟨type, (Prod.mk.inj refused).2.symm⟩
    · by_cases descriptor : p.OtherDescriptor s
      · rw [merge_of_otherDescriptor descriptor] at refused
        exact Or.inr ⟨descriptor, (Prod.mk.inj refused).2.symm⟩
      · have same : p.type = 0 ∨ p.type = s.streamType := by
          by_contra neither
          exact type (not_or.mp neither)
        have unknown : p.descriptor.tag = 0 ∨ p.descriptor = s.descriptor := by
          by_contra neither
          exact descriptor ⟨same, not_or.mp neither⟩
        have taken : p.merge s = (1, p.written s) := by
          apply merge_taken
          · exact agrees_write_iff.2 (same.imp beq_iff_eq.2 id)
          · exact agrees_write_iff.2 (unknown.imp beq_iff_eq.2 id)
        rw [taken] at refused
        cases refused
  · rintro (⟨other, rfl⟩ | ⟨other, rfl⟩)
    · exact merge_of_otherType other
    · exact merge_of_otherDescriptor other

end TsStreamPes

namespace TsStream

/-- The entry of a stream with its type. -/
def putType (ts : TsStream) (s : TsPmtStream) : TsStream :=
  { ts with
    streams := FindOrInsert.update TsStreamPes.pid TsStreamPes.fresh (s.elementaryPid.toNat : Int)
      (fun p => { p with type := s.streamType }) ts.streams }

/-- A whole map. -/
def putMap (ts : TsStream) (m : TsPmt) : TsStream :=
  m.streams.foldl put { ts with pcrPid := write noPid ts.pcrPid m.pcrPid.toNat }

def putMaps (ts : TsStream) (ms : List TsPmt) : TsStream := ms.foldl putMap ts

/-- Streams that contradict neither the table nor each other. -/
structure ConsistentStreams (ss : List TsPmtStream) (ts : TsStream) : Prop where
  type : ∀ pid, (run TsStreamPes.noType (ts.entry pid).type ((ofPid pid ss).map TsPmtStream.streamType)).isSome
  descriptor : ∀ pid, (run TsPmtDescriptor.absent (ts.entry pid).descriptor
    ((ofPid pid ss).map TsPmtStream.descriptor)).isSome

/-- Maps that contradict neither the stream nor each other. -/
structure Consistent (ms : List TsPmt) (ts : TsStream) : Prop where
  clock : (run noPid ts.pcrPid (ms.map fun m => (m.pcrPid.toNat : Int))).isSome
  streams : ConsistentStreams (ms.flatMap TsPmt.streams) ts

/-- Why a unit of the program is refused, with `m` decoded from it and `n` the result, and
what that leaves of the stream `ts` it comes to. -/
inductive Refusal (n : Int) (m : TsPmt) (ts : TsStream) : TsStream → Prop where
  | undecodable (refused : n = -1) : Refusal n m ts ts
  | clock (decoded : n ≠ -1) (known : ts.pcrPid ≠ 0) (other : ts.pcrPid ≠ m.pcrPid.toNat) : Refusal n m ts ts
  | type (decoded : n ≠ -1) {front rest : List TsPmtStream} {s : TsPmtStream} (place : m.streams = front ++ s :: rest)
      (taken : Consistent [{ m with streams := front }] ts)
      (other : ((ts.putMap { m with streams := front }).entry s.elementaryPid.toNat).OtherType s) :
      Refusal n m ts (ts.putMap { m with streams := front })
  | descriptor (decoded : n ≠ -1) {front rest : List TsPmtStream} {s : TsPmtStream}
      (place : m.streams = front ++ s :: rest) (taken : Consistent [{ m with streams := front }] ts)
      (other : ((ts.putMap { m with streams := front }).entry s.elementaryPid.toNat).OtherDescriptor s) :
      Refusal n m ts ((ts.putMap { m with streams := front }).putType s)

/-- A list of units that is refused at one of them, with what that leaves: the maps in front
of it, and what its refusal leaves. -/
def Interrupted (us : List TsUnit) (ts left : TsStream) : Prop :=
  ∃ front u rest, us = front ++ u :: rest ∧ (u.pid.toNat : Int) = ts.programPid ∧ ts.Decoded front ∧
    Consistent (maps ts.programPid front) ts ∧
    Refusal (TsPmt.construct.unpackBuffer u.data).1 (TsPmt.construct.unpackBuffer u.data).2
      (ts.putMaps (maps ts.programPid front)) left

section Streams

variable {ts ts' left : TsStream} {s : TsPmtStream} {ss : List TsPmtStream}

/-- One register of every entry, with one stream in front of the rest. -/
theorem isSome_run_stream_iff {α : Type} [DecidableEq α] {absent : α → Bool} {field : TsStreamPes → α}
    {value : TsPmtStream → α} (written : ∀ p : TsStreamPes, field (p.written s) = write absent (field p) (value s)) :
    (∀ pid, (run absent (field (ts.entry pid)) ((ofPid pid (s :: ss)).map value)).isSome) ↔
      Agrees absent (field ((ts.entry s.elementaryPid.toNat).written s)) (value s) ∧
        ∀ pid, (run absent (field ((ts.put s).entry pid)) ((ofPid pid ss).map value)).isSome := by
  simp only [Option.isSome_iff_exists, run_stream_iff written, exists_and_left, forall_and]
  exact and_congr_left fun _ => ⟨fun agrees => agrees _ rfl, fun agrees _ _ => agrees⟩

theorem consistentStreams_cons_iff :
    ConsistentStreams (s :: ss) ts ↔
      Agrees TsStreamPes.noType ((ts.entry s.elementaryPid.toNat).written s).type s.streamType ∧
        Agrees TsPmtDescriptor.absent ((ts.entry s.elementaryPid.toNat).written s).descriptor s.descriptor ∧
        ConsistentStreams ss (ts.put s) := by
  constructor
  · rintro ⟨types, descriptors⟩
    obtain ⟨type, types⟩ := (isSome_run_stream_iff fun _ => rfl).1 types
    obtain ⟨descriptor, descriptors⟩ := (isSome_run_stream_iff fun _ => rfl).1 descriptors
    exact ⟨type, descriptor, types, descriptors⟩
  · rintro ⟨type, descriptor, types, descriptors⟩
    constructor
    · apply (isSome_run_stream_iff fun _ => rfl).2
      exact ⟨type, types⟩
    · apply (isSome_run_stream_iff fun _ => rfl).2
      exact ⟨descriptor, descriptors⟩

/-- Consistent streams are all merged. -/
theorem mergeStreams_taken (consistent : ConsistentStreams ss ts) : mergeStreams ss ts = (1, ss.foldl put ts) := by
  induction ss generalizing ts with
  | nil => rfl
  | cons s ss ih =>
    obtain ⟨type, descriptor, rest⟩ := consistentStreams_cons_iff.1 consistent
    have taken := TsStreamPes.merge_taken type descriptor
    have one : ¬ (1 : Int) = -1 := by decide
    have step : ts.merged s = ts.put s := merged_eq (f := fun p => p.written s) (congrArg Prod.snd taken)
    rw [mergeStreams_cons, taken, if_neg one, step, ih rest, List.foldl_cons]

theorem mergeStreams_accepted_iff : mergeStreams ss ts = (1, ts') ↔ ConsistentStreams ss ts ∧ ts' = ss.foldl put ts := by
  constructor
  · intro accepted
    have wrote := mergeStreams_wrote accepted
    have consistent : ConsistentStreams ss ts := by
      constructor
      · exact fun pid => Option.isSome_of_eq_some (wrote.type pid)
      · exact fun pid => Option.isSome_of_eq_some (wrote.descriptor pid)
    rw [mergeStreams_taken consistent] at accepted
    exact ⟨consistent, (Prod.mk.inj accepted).2.symm⟩
  · rintro ⟨consistent, rfl⟩
    exact mergeStreams_taken consistent

/-- Only the table is written. -/
theorem foldl_put_eq (ss : List TsPmtStream) (ts : TsStream) :
    ss.foldl put ts = { ts with streams := (ss.foldl put ts).streams } := by
  induction ss generalizing ts with
  | nil => rfl
  | cons s ss ih => exact ih (ts.put s)

/-- Only the table is read. -/
theorem streams_foldl_put {ss : List TsPmtStream} (same : ts.streams = ts'.streams) :
    (ss.foldl put ts).streams = (ss.foldl put ts').streams := by
  induction ss generalizing ts ts' with
  | nil => exact same
  | cons s ss ih =>
    apply ih
    rw [put, put, same]

theorem ConsistentStreams.congr (consistent : ConsistentStreams ss ts) (same : ts.streams = ts'.streams) :
    ConsistentStreams ss ts' := by
  have entries (pid : Int) : ts'.entry pid = ts.entry pid := by rw [entry, entry, same]
  constructor
  · intro pid
    rw [entries]
    exact consistent.type pid
  · intro pid
    rw [entries]
    exact consistent.descriptor pid

theorem consistentStreams_append_iff {ss' : List TsPmtStream} :
    ConsistentStreams (ss ++ ss') ts ↔ ConsistentStreams ss ts ∧ ConsistentStreams ss' (ss.foldl put ts) := by
  induction ss generalizing ts with
  | nil => exact ⟨fun rest => ⟨⟨fun _ => rfl, fun _ => rfl⟩, rest⟩, fun both => both.2⟩
  | cons s ss ih =>
    rw [List.cons_append, consistentStreams_cons_iff, consistentStreams_cons_iff, ih, List.foldl_cons]
    simp only [and_assoc]

theorem mem_pids_of_known {pid : Int} (known : (ts.entry pid).type ≠ 0 ∨ (ts.entry pid).descriptor.tag ≠ 0) :
    pid ∈ ts.streams.map TsStreamPes.pid := by
  by_contra absent
  rw [entry, FindOrInsert.entry_absent _ _ absent] at known
  obtain set | set := known
  · exact set rfl
  · exact set rfl

/-- What a refused stream leaves of the table. -/
theorem mergeStep_refused_iff :
    mergeStep s ts = (-1, left) ↔
      (ts.entry s.elementaryPid.toNat).OtherType s ∧ left = ts ∨
        (ts.entry s.elementaryPid.toNat).OtherDescriptor s ∧ left = ts.putType s := by
  have type (other : (ts.entry s.elementaryPid.toNat).OtherType s) : mergeStep s ts = (-1, ts) := by
    have refused := TsStreamPes.merge_of_otherType other
    have there := mem_pids_of_known (Or.inl other.1)
    have kept : ts.merged s = ts := by
      rw [merged, FindOrInsert.update_fixed _ _ there (congrArg Prod.snd refused)]
    rw [mergeStep, refused, kept]
  have descriptor (other : (ts.entry s.elementaryPid.toNat).OtherDescriptor s) :
      mergeStep s ts = (-1, ts.putType s) := by
    have refused := TsStreamPes.merge_of_otherDescriptor other
    have step : ts.merged s = ts.putType s :=
      merged_eq (f := fun p => { p with type := s.streamType }) (congrArg Prod.snd refused)
    rw [mergeStep, refused, step]
  constructor
  · intro refused
    have result : ((ts.entry s.elementaryPid.toNat).merge s).1 = -1 := congrArg Prod.fst refused
    obtain ⟨other, -⟩ | ⟨other, -⟩ := TsStreamPes.merge_refused_iff.1 (Prod.ext result rfl)
    · rw [type other] at refused
      exact Or.inl ⟨other, (Prod.mk.inj refused).2.symm⟩
    · rw [descriptor other] at refused
      exact Or.inr ⟨other, (Prod.mk.inj refused).2.symm⟩
  · rintro (⟨other, rfl⟩ | ⟨other, rfl⟩)
    · exact type other
    · exact descriptor other

theorem mergeStreams_refused_iff :
    mergeStreams ss ts = (-1, left) ↔
      ∃ front s rest, ss = front ++ s :: rest ∧ ConsistentStreams front ts ∧
        mergeStep s (front.foldl put ts) = (-1, left) := by
  rw [mergeStreams_eq, EarlyReturn.loop_refused_iff]
  simp only [← mergeStreams_eq, mergeStreams_accepted_iff]
  constructor
  · rintro ⟨front, s, rest, before, place, ⟨consistent, rfl⟩, refused⟩
    exact ⟨front, s, rest, place, consistent, refused⟩
  · rintro ⟨front, s, rest, place, consistent, refused⟩
    exact ⟨front, s, rest, _, place, ⟨consistent, rfl⟩, refused⟩

end Streams

section Maps

variable {ts ts' left : TsStream} {u : TsUnit} {us : List TsUnit} {m : TsPmt} {ms : List TsPmt}

theorem consistent_singleton_iff :
    Consistent [m] ts ↔ Agrees noPid (write noPid ts.pcrPid m.pcrPid.toNat) m.pcrPid.toNat ∧
      ConsistentStreams m.streams ts := by
  have streams : [m].flatMap TsPmt.streams = m.streams := List.flatMap_singleton TsPmt.streams m
  constructor
  · rintro ⟨clock, consistent⟩
    rw [streams] at consistent
    exact ⟨(isSome_run_cons_iff.1 clock).1, consistent⟩
  · rintro ⟨clock, consistent⟩
    rw [← streams] at consistent
    exact ⟨isSome_run_cons_iff.2 ⟨clock, rfl⟩, consistent⟩

theorem consistent_cons_iff : Consistent (m :: ms) ts ↔ Consistent [m] ts ∧ Consistent ms (ts.putMap m) := by
  have clock : (ts.putMap m).pcrPid = write noPid ts.pcrPid m.pcrPid.toNat := by rw [putMap, foldl_put_eq]
  have table : (m.streams.foldl put ts).streams = (ts.putMap m).streams := streams_foldl_put rfl
  rw [consistent_singleton_iff]
  constructor
  · rintro ⟨clocks, streams⟩
    obtain ⟨first, clocks⟩ := isSome_run_cons_iff.1 clocks
    rw [List.flatMap_cons] at streams
    obtain ⟨own, rest⟩ := consistentStreams_append_iff.1 streams
    rw [← clock] at clocks
    exact ⟨⟨first, own⟩, clocks, rest.congr table⟩
  · rintro ⟨⟨first, own⟩, clocks, rest⟩
    rw [clock] at clocks
    refine ⟨isSome_run_cons_iff.2 ⟨first, clocks⟩, ?_⟩
    rw [List.flatMap_cons]
    exact consistentStreams_append_iff.2 ⟨own, rest.congr table.symm⟩

theorem programPid_putMap (ts : TsStream) (m : TsPmt) : (ts.putMap m).programPid = ts.programPid := by
  rw [putMap, foldl_put_eq]

/-- A unit of the program whose map has the clock. -/
theorem pmtStep_own (own : (u.pid.toNat : Int) = ts.programPid) (decoded : (TsPmt.construct.unpackBuffer u.data).1 ≠ -1)
    (clock : Agrees noPid (write noPid ts.pcrPid (TsPmt.construct.unpackBuffer u.data).2.pcrPid.toNat)
      (TsPmt.construct.unpackBuffer u.data).2.pcrPid.toNat) :
    pmtStep u ts = mergeStreams (TsPmt.construct.unpackBuffer u.data).2.streams
      { ts with pcrPid := write noPid ts.pcrPid (TsPmt.construct.unpackBuffer u.data).2.pcrPid.toNat } := by
  have same := not_not_intro (agrees_noPid.1 clock)
  simp only [pmtStep, if_pos own, if_neg decoded, setPcrPid_eq, if_neg same]

theorem pmtStep_other (other : (u.pid.toNat : Int) ≠ ts.programPid) : pmtStep u ts = (1, ts) := by
  rw [pmtStep, if_neg other]

theorem pmtStep_taken (own : (u.pid.toNat : Int) = ts.programPid) (decoded : (TsPmt.construct.unpackBuffer u.data).1 ≠ -1)
    (consistent : Consistent [(TsPmt.construct.unpackBuffer u.data).2] ts) :
    pmtStep u ts = (1, ts.putMap (TsPmt.construct.unpackBuffer u.data).2) := by
  obtain ⟨clock, streams⟩ := consistent_singleton_iff.1 consistent
  rw [pmtStep_own own decoded clock]
  exact mergeStreams_taken (streams.congr rfl)

/-- Consistent maps are all written. -/
theorem unpackPmtLoop_taken (decoded : ts.Decoded us) (consistent : Consistent (maps ts.programPid us) ts) :
    unpackPmtLoop us ts = (1, ts.putMaps (maps ts.programPid us)) := by
  have one : (1 : Int) ≠ -1 := by decide
  induction us generalizing ts with
  | nil => rfl
  | cons u us ih =>
    obtain ⟨first, others⟩ := List.forall_mem_cons.mp decoded
    rw [unpackPmtLoop_eq]
    by_cases own : (u.pid.toNat : Int) = ts.programPid
    · rw [maps_own own] at consistent ⊢
      obtain ⟨here, rest⟩ := consistent_cons_iff.1 consistent
      have taken := pmtStep_taken own (first own) here
      have program := ts.programPid_putMap (TsPmt.construct.unpackBuffer u.data).2
      rw [EarlyReturn.loop_accepted (by rw [taken]; exact one), taken, ← unpackPmtLoop_eq, ← program]
      rw [← program] at rest
      exact ih (fun v member own => others v member (own.trans program)) rest
    · rw [maps_other own] at consistent ⊢
      rw [EarlyReturn.loop_accepted (by rw [pmtStep_other own]; exact one), pmtStep_other own, ← unpackPmtLoop_eq]
      exact ih others consistent

theorem unpackPmtLoop_accepted_iff :
    unpackPmtLoop us ts = (1, ts') ↔
      ts.Decoded us ∧ Consistent (maps ts.programPid us) ts ∧ ts' = ts.putMaps (maps ts.programPid us) := by
  constructor
  · intro accepted
    obtain ⟨decoded, clock, wrote⟩ := unpackPmtLoop_wrote accepted
    have consistent : Consistent (maps ts.programPid us) ts := by
      refine ⟨Option.isSome_of_eq_some clock, ?_, ?_⟩
      · exact fun pid => Option.isSome_of_eq_some (wrote.type pid)
      · exact fun pid => Option.isSome_of_eq_some (wrote.descriptor pid)
    rw [unpackPmtLoop_taken decoded consistent] at accepted
    exact ⟨decoded, consistent, (Prod.mk.inj accepted).2.symm⟩
  · rintro ⟨decoded, consistent, rfl⟩
    exact unpackPmtLoop_taken decoded consistent

/-- A clock that is known and is another. -/
theorem pmtStep_clock (own : (u.pid.toNat : Int) = ts.programPid) (decoded : (TsPmt.construct.unpackBuffer u.data).1 ≠ -1)
    (known : ts.pcrPid ≠ 0) (other : ts.pcrPid ≠ (TsPmt.construct.unpackBuffer u.data).2.pcrPid.toNat) :
    pmtStep u ts = (-1, ts) := by
  have kept : ts.setPcrPid (TsPmt.construct.unpackBuffer u.data).2.pcrPid = ts := if_neg known
  simp only [pmtStep, if_pos own, if_neg decoded, kept, if_pos other]

/-- What a refused unit leaves. -/
theorem pmtStep_refused_iff (own : (u.pid.toNat : Int) = ts.programPid) :
    pmtStep u ts = (-1, left) ↔
      Refusal (TsPmt.construct.unpackBuffer u.data).1 (TsPmt.construct.unpackBuffer u.data).2 ts left := by
  constructor
  · intro refused
    by_cases undecoded : (TsPmt.construct.unpackBuffer u.data).1 = -1
    · simp only [pmtStep, if_pos own, if_pos undecoded] at refused
      rw [← (Prod.mk.inj refused).2]
      exact Refusal.undecodable undecoded
    · by_cases clock : ts.pcrPid ≠ 0 ∧ ts.pcrPid ≠ (TsPmt.construct.unpackBuffer u.data).2.pcrPid.toNat
      · rw [pmtStep_clock own undecoded clock.1 clock.2] at refused
        rw [← (Prod.mk.inj refused).2]
        exact Refusal.clock undecoded clock.1 clock.2
      · have agrees : Agrees noPid (write noPid ts.pcrPid (TsPmt.construct.unpackBuffer u.data).2.pcrPid.toNat)
            (TsPmt.construct.unpackBuffer u.data).2.pcrPid.toNat := by
          rw [agrees_write_iff, noPid, beq_iff_eq]
          by_contra neither
          exact clock (not_or.mp neither)
        rw [pmtStep_own own undecoded agrees] at refused
        obtain ⟨front, s, rest, place, consistent, stream⟩ := mergeStreams_refused_iff.1 refused
        have taken : Consistent [{ (TsPmt.construct.unpackBuffer u.data).2 with streams := front }] ts :=
          consistent_singleton_iff.2 ⟨agrees, consistent.congr rfl⟩
        obtain ⟨other, rfl⟩ | ⟨other, rfl⟩ := mergeStep_refused_iff.1 stream
        · exact Refusal.type undecoded place taken other
        · exact Refusal.descriptor undecoded place taken other
  · intro refusal
    cases refusal with
    | undecodable refused => simp only [pmtStep, if_pos own, if_pos refused]
    | clock decoded known other => exact pmtStep_clock own decoded known other
    | type decoded place taken other =>
      obtain ⟨clock, consistent⟩ := consistent_singleton_iff.1 taken
      rw [pmtStep_own own decoded clock]
      apply mergeStreams_refused_iff.2
      exact ⟨_, _, _, place, consistent.congr rfl, mergeStep_refused_iff.2 (Or.inl ⟨other, rfl⟩)⟩
    | descriptor decoded place taken other =>
      obtain ⟨clock, consistent⟩ := consistent_singleton_iff.1 taken
      rw [pmtStep_own own decoded clock]
      apply mergeStreams_refused_iff.2
      exact ⟨_, _, _, place, consistent.congr rfl, mergeStep_refused_iff.2 (Or.inr ⟨other, rfl⟩)⟩

/-- A pass over the units that is refused. -/
theorem unpackPmtLoop_refused_iff : unpackPmtLoop us ts = (-1, left) ↔ Interrupted us ts left := by
  rw [unpackPmtLoop_eq, EarlyReturn.loop_refused_iff]
  have program (front : List TsUnit) (decoded : ts.Decoded front) (consistent : Consistent (maps ts.programPid front) ts) :
      (ts.putMaps (maps ts.programPid front)).programPid = ts.programPid := by
    have kept := programPid_unpackPmtLoop front ts
    rw [unpackPmtLoop_taken decoded consistent] at kept
    exact kept
  simp only [← unpackPmtLoop_eq, unpackPmtLoop_accepted_iff]
  constructor
  · rintro ⟨front, u, rest, before, place, ⟨decoded, consistent, rfl⟩, refused⟩
    have same := program front decoded consistent
    by_cases own : (u.pid.toNat : Int) = ts.programPid
    · exact ⟨front, u, rest, place, own, decoded, consistent, (pmtStep_refused_iff (own.trans same.symm)).1 refused⟩
    · rw [pmtStep_other (fun own' => own (own'.trans same))] at refused
      cases refused
  · rintro ⟨front, u, rest, place, own, decoded, consistent, refusal⟩
    have same := program front decoded consistent
    exact ⟨front, u, rest, _, place, ⟨decoded, consistent, rfl⟩, (pmtStep_refused_iff (own.trans same.symm)).2 refusal⟩

/-- **Refused maps.** What was known is kept, and the maps are written up to the entry that
is refused. -/
theorem unpackPmt_refused {units : TsUnits} (refused : ts.unpackPmt units = (-1, left)) :
    ts.Extends left ∧ (ts.programPid = 0 ∧ left = ts ∨ ts.programPid ≠ 0 ∧ Interrupted units.list ts left) := by
  constructor
  · have extended := extends_unpackPmt ts units
    rw [refused] at extended
    exact extended
  · by_cases program : ts.programPid = 0
    · rw [unpackPmt, if_pos program] at refused
      exact Or.inl ⟨program, (Prod.mk.inj refused).2.symm⟩
    · rw [unpackPmt, if_neg program] at refused
      exact Or.inr ⟨program, unpackPmtLoop_refused_iff.1 refused⟩

/-- A map of two streams with one PID, of different types. -/
def contraryUnit : TsUnit :=
  { pid := 0x100
    data := [0x00, 0x02, 0xb0, 0x17, 0x00, 0x01, 0xc1, 0x00, 0x00, 0xe1, 0x01, 0xf0, 0x00, 0x1b, 0xe1, 0x01, 0xf0, 0x00,
      0x0f, 0xe1, 0x01, 0xf0, 0x00, 0x00, 0x00, 0x00, 0x00] }

theorem unpackPmt_refused_contrary :
    ({ programPid := 0x100 } : TsStream).Extends (collected {}) ∧
      (({ programPid := 0x100 } : TsStream).programPid = 0 ∧ collected {} = { programPid := 0x100 } ∨
        ({ programPid := 0x100 } : TsStream).programPid ≠ 0 ∧
          Interrupted [contraryUnit] { programPid := 0x100 } (collected {})) := by
  have refused : ({ programPid := 0x100 } : TsStream).unpackPmt { list := [contraryUnit] } = (-1, collected {}) := by
    decide +kernel
  exact unpackPmt_refused refused

/-- A list that is refused leaves the stream as it was. -/
def Untouched (ts : TsStream) (units : TsUnits) : Prop := (ts.unpackPmt units).1 = -1 → (ts.unpackPmt units).2 = ts

/-- The clock and the first stream of the refused map are written. -/
theorem not_untouched_contrary : ¬ ({ programPid := 0x100 } : TsStream).Untouched { list := [contraryUnit] } := by
  have refused : ({ programPid := 0x100 } : TsStream).unpackPmt { list := [contraryUnit] } = (-1, collected {}) := by
    decide +kernel
  rw [Untouched, refused]
  decide

end Maps
end TsStream
end Libts
