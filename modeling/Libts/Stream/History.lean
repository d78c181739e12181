import Libts.Stream.Table

/-!
# Histories of a program stream

The first value that a program, a clock PID, a type or a descriptor gets is the one it
keeps: `unpack` only sets what is not set, on its error returns too (`extends_unpack`). So
a stream that was built by any calls has its table in order (`Reached.inOrder`).
-/

namespace Libts
set_option autoImplicit false

/-- `q` is the entry `p` at a later time: what is set is kept, and packets are added at the end. -/
structure TsStreamPes.Kept (p q : TsStreamPes) : Prop where
  pid : q.pid = p.pid
  type : p.type ≠ 0 → q.type = p.type
  descriptor : p.descriptor.size ≠ 0 → q.descriptor = p.descriptor
  packets : p.packets <+: q.packets

namespace TsStreamPes

theorem Kept.refl (p : TsStreamPes) : p.Kept p := ⟨rfl, fun _ => rfl, fun _ => rfl, List.prefix_refl _⟩

theorem Kept.trans (p q r : TsStreamPes) (first : p.Kept q) (second : q.Kept r) : p.Kept r := by
  refine ⟨second.pid.trans first.pid, ?_, ?_, first.packets.trans second.packets⟩
  · intro set
    have same := first.type set
    rw [← same]
    exact second.type (same ▸ set)
  · intro set
    have same := first.descriptor set
    rw [← same]
    exact second.descriptor (same ▸ set)

theorem kept_setType (p : TsStreamPes) (s : TsPmtStream) : p.Kept (p.setType s) := by
  unfold setType
  split
  · rename_i unset
    exact ⟨rfl, fun set => absurd unset set, fun _ => rfl, List.prefix_refl _⟩
  · exact Kept.refl p

theorem kept_setDescriptor (p : TsStreamPes) (s : TsPmtStream) : p.Kept (p.setDescriptor s) := by
  unfold setDescriptor
  split
  · rename_i unset
    exact ⟨rfl, fun _ => rfl, fun set => absurd unset.1 set, List.prefix_refl _⟩
  · exact Kept.refl p

theorem kept_merge (p : TsStreamPes) (s : TsPmtStream) : p.Kept (p.merge s).2 := by
  have type := p.kept_setType s
  have both := Kept.trans _ _ _ type ((p.setType s).kept_setDescriptor s)
  simp only [merge]
  split
  · exact type
  · split <;> exact both

theorem kept_unpackUnits (us : List TsUnit) (p : TsStreamPes) : p.Kept (unpackUnits us p) := by
  obtain ⟨more, extended⟩ := unpackUnits_eq us p
  rw [extended]
  exact ⟨rfl, fun _ => rfl, fun _ => rfl, List.prefix_append _ _⟩

end TsStreamPes

namespace TsStream

/-- `ts'` is `ts` at a later time: no stream is removed or moved. -/
structure Extends (ts ts' : TsStream) : Prop where
  programPid : ts.programPid ≠ 0 → ts'.programPid = ts.programPid
  pcrPid : ts.pcrPid ≠ 0 → ts'.pcrPid = ts.pcrPid
  streams : FindOrInsert.Grows TsStreamPes.Kept ts.streams ts'.streams

/-- The streams that `construct` and any sequence of calls lead to, whatever the calls return. -/
inductive Reached : TsStream → Prop where
  | construct : Reached construct
  | create {ts : TsStream} (reached : Reached ts) (pid : Int) : Reached (ts.create pid).1
  | delete {ts : TsStream} (reached : Reached ts) (pid : Int) : Reached (ts.delete pid)
  | unpack {ts : TsStream} (reached : Reached ts) (units : TsUnits) : Reached (ts.unpack units).2

/-- The table of a program stream in order, now and after any call of the decoder. -/
structure InOrder (ts : TsStream) : Prop where
  distinct : (ts.streams.map TsStreamPes.pid).Nodup
  create : ∀ pid : Int, ∃ p : TsStreamPes, p.pid = pid ∧ (ts.create pid).1.streams[(ts.create pid).2]? = some p ∧
    (ts.create pid).1.lookup pid = some p
  delete : ∀ pid : Int, ts.delete pid = { ts with streams := ts.streams.filter fun p => p.pid ≠ pid }
  unpack : ∀ units : TsUnits, ts.Extends (ts.unpack units).2

section Extends

variable {ts a b c : TsStream}

theorem Extends.refl (ts : TsStream) : ts.Extends ts :=
  ⟨fun _ => rfl, fun _ => rfl, FindOrInsert.grows_refl TsStreamPes.Kept.refl _⟩

theorem Extends.trans (first : a.Extends b) (second : b.Extends c) : a.Extends c := by
  refine ⟨?_, ?_, first.streams.trans TsStreamPes.Kept.trans second.streams⟩
  · intro set
    have same := first.programPid set
    rw [← same]
    exact second.programPid (same ▸ set)
  · intro set
    have same := first.pcrPid set
    rw [← same]
    exact second.pcrPid (same ▸ set)

theorem extends_setProgramPid (ts : TsStream) (pid : BitVec 13) : ts.Extends (ts.setProgramPid pid) := by
  unfold setProgramPid
  split
  · rename_i unset
    exact ⟨fun set => absurd unset set, fun _ => rfl, (Extends.refl ts).streams⟩
  · exact Extends.refl ts

theorem extends_setPcrPid (ts : TsStream) (pid : BitVec 13) : ts.Extends (ts.setPcrPid pid) := by
  unfold setPcrPid
  split
  · rename_i unset
    exact ⟨fun _ => rfl, fun set => absurd unset set, (Extends.refl ts).streams⟩
  · exact Extends.refl ts

theorem extends_unpackPatLoop (us : List TsUnit) (ts : TsStream) : ts.Extends (unpackPatLoop us ts).2 := by
  apply unpackPatLoop_keeps (P := ts.Extends)
  · intro t pid extended
    exact extended.trans (t.extends_setProgramPid pid)
  · exact Extends.refl ts

theorem extends_merged (ts : TsStream) (s : TsPmtStream) : ts.Extends (ts.merged s) :=
  ⟨fun _ => rfl, fun _ => rfl, FindOrInsert.grows_update TsStreamPes.Kept.refl (fun p => p.kept_merge s) _ ts.streams⟩

theorem extends_mergeStreams (ss : List TsPmtStream) (ts : TsStream) : ts.Extends (mergeStreams ss ts).2 := by
  apply mergeStreams_keeps (P := ts.Extends)
  · intro t s extended
    exact extended.trans (t.extends_merged s)
  · exact Extends.refl ts

theorem extends_unpackPmtLoop (us : List TsUnit) (ts : TsStream) : ts.Extends (unpackPmtLoop us ts).2 := by
  apply unpackPmtLoop_keeps (P := ts.Extends)
  · intro t s extended
    exact extended.trans (t.extends_merged s)
  · intro t pid extended
    exact extended.trans (t.extends_setPcrPid pid)
  · exact Extends.refl ts

theorem extends_unpackPmt (ts : TsStream) (units : TsUnits) : ts.Extends (ts.unpackPmt units).2 := by
  unfold unpackPmt
  split
  · exact Extends.refl ts
  · exact extends_unpackPmtLoop units.list ts

theorem extends_unpackPes (ts : TsStream) (units : TsUnits) : ts.Extends (ts.unpackPes units).2 :=
  ⟨fun _ => rfl, fun _ => rfl, FindOrInsert.grows_map (TsStreamPes.kept_unpackUnits units.list) _⟩

/-- One call of the decoder, however far it gets. -/
theorem extends_unpack (ts : TsStream) (units : TsUnits) : ts.Extends (ts.unpack units).2 := by
  have pat := extends_unpackPatLoop units.list ts
  have pmt := pat.trans (extends_unpackPmt (ts.unpackPat units).2 units)
  have pes := pmt.trans (extends_unpackPes ((ts.unpackPat units).2.unpackPmt units).2 units)
  simp only [unpack]
  split
  · split
    · exact pes
    · exact pmt
  · exact pat

end Extends

section Reached

variable {ts : TsStream}

theorem Reached.distinct (reached : Reached ts) : ts.Distinct := by
  induction reached with
  | construct => exact distinct_construct
  | create _ pid ih => exact distinct_create ih pid
  | delete _ pid ih => exact distinct_delete ih pid
  | unpack _ units ih => exact distinct_unpack ih units

/-- Deleting from distinct PIDs leaves the other streams as they were. -/
theorem delete_eq (distinct : ts.Distinct) (pid : Int) :
    ts.delete pid = { ts with streams := ts.streams.filter fun p => p.pid ≠ pid } := by
  rw [delete, FindOrInsert.eraseP_eq_filter distinct]

/-- What `create` returns is the stream of the PID, and what `lookup` finds from then on. -/
theorem lookup_created (ts : TsStream) (pid : Int) : ∃ p : TsStreamPes, p.pid = pid ∧
    (ts.create pid).1.streams[(ts.create pid).2]? = some p ∧ (ts.create pid).1.lookup pid = some p := by
  have there : (ts.create pid).1.streams[(ts.create pid).2]? =
      some (FindOrInsert.entry TsStreamPes.pid TsStreamPes.fresh pid ts.streams) :=
    FindOrInsert.getElem?_slot _ _ _ _
  refine ⟨_, FindOrInsert.key_entry TsStreamPes.pid_fresh pid ts.streams, there, ?_⟩
  rw [lookup_create, there]

/-- **Histories of a program stream.** In every stream that is reached the table is in order. -/
theorem inOrder (reached : Reached ts) : ts.InOrder :=
  ⟨reached.distinct, ts.lookup_created, delete_eq reached.distinct, ts.extends_unpack⟩

/-- A table of two streams, one of them created twice. -/
theorem inOrder_created : (((construct.create 256).1.create 257).1.create 256).1.InOrder :=
  inOrder (.create (.create (.create .construct 256) 257) 256)

end Reached

end TsStream
end Libts
