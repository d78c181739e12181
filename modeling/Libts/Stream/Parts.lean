import Libts.Stream.Incomplete
import Libts.Stream.PesUnits

/-!
# Units in parts

`ts_stream_unpack` can be called again with a stream it has filled: what the tables said is known to
the second call, and its packets go behind those of the first. But the first call reads packets for
the streams that it knows, so those of a stream that only the second announces are lost
(`unpack_rest_iff`). Behind the tables any number of calls does what one does (`unpackParts_eq`).
-/

namespace Libts
set_option autoImplicit false

namespace TsStreamPes

/-- What units hold for the stream of a PID. -/
def held (us : List TsUnit) (pid : Int) : List TsPes :=
  (us.filter fun u => (u.pid.toNat : Int) = pid).filterMap fun u => TsPes.read u.randomAccessIndicator u.data

theorem unpackUnits_held (us : List TsUnit) (p : TsStreamPes) :
    unpackUnits us p = { p with packets := p.packets ++ held us p.pid } := unpackUnits_filterMap us p

theorem held_append (us vs : List TsUnit) (pid : Int) : held (us ++ vs) pid = held us pid ++ held vs pid := by
  rw [held, List.filter_append, List.filterMap_append]
  rfl

theorem unpackUnits_append (us vs : List TsUnit) (p : TsStreamPes) :
    unpackUnits (us ++ vs) p = unpackUnits vs (unpackUnits us p) := by
  rw [unpackUnits_held, held_append, unpackUnits_held vs, unpackUnits_held us, List.append_assoc]

/-- Units are not missed where they hold nothing for the stream. -/
theorem unpackUnits_rest_iff (us vs : List TsUnit) (p : TsStreamPes) :
    unpackUnits vs p = unpackUnits (us ++ vs) p ↔ held us p.pid = [] := by
  rw [unpackUnits_held, unpackUnits_held, held_append]
  constructor
  · intro same
    have packets := List.append_cancel_left (congrArg TsStreamPes.packets same)
    exact List.append_left_eq_self.mp packets.symm
  · intro none
    rw [none, List.nil_append]

/-- A stream that is known when units are read. -/
def filled (us : List TsUnit) (known : List Int) (p : TsStreamPes) : TsStreamPes :=
  if p.pid ∈ known then unpackUnits us p else p

variable (us : List TsUnit) (known : List Int)

theorem pid_filled (p : TsStreamPes) : (filled us known p).pid = p.pid := by
  rw [filled]
  split
  · exact pid_unpackUnits us p
  · rfl

/-- Merging does not look at the packets. -/
theorem merge_filled (p : TsStreamPes) (s : TsPmtStream) :
    (filled us known p).merge s = ((p.merge s).1, filled us known (p.merge s).2) := by
  have packets (more : List TsPes) : ({ p with packets := p.packets ++ more } : TsStreamPes).merge s =
      ((p.merge s).1, { (p.merge s).2 with packets := (p.merge s).2.packets ++ more }) := by
    simp only [merge, setType, setDescriptor]
    split_ifs <;> rfl
  have same := p.pid_merge s
  rw [filled, filled, same]
  split
  · rw [unpackUnits_held, packets, ← same]
    exact congrArg (Prod.mk _) (unpackUnits_held us (p.merge s).2).symm
  · rfl

end TsStreamPes

namespace TsStream

/-- A stream whose first entries have been read from units. -/
def fill (us : List TsUnit) (known : List Int) (ts : TsStream) : TsStream :=
  { ts with streams := ts.streams.map (TsStreamPes.filled us known) }

/-- Streams of the table. -/
def Lists (known : List Int) (ts : TsStream) : Prop := ∀ pid ∈ known, pid ∈ ts.streams.map TsStreamPes.pid

section Fill

variable {us : List TsUnit} {known : List Int} {ts : TsStream}

theorem lists_merged (s : TsPmtStream) (lists : Lists known ts) : Lists known (ts.merged s) := by
  intro pid member
  have there := lists pid member
  rw [merged, FindOrInsert.map_update TsStreamPes.pid_fresh (fun p => TsStreamPes.pid_merge p s)]
  split
  · exact there
  · exact List.mem_append_left _ there

theorem mergeStep_fill (s : TsPmtStream) (lists : Lists known ts) :
    mergeStep s (fill us known ts) = ((mergeStep s ts).1, fill us known (mergeStep s ts).2) := by
  have new : (s.elementaryPid.toNat : Int) ∉ ts.streams.map TsStreamPes.pid →
      TsStreamPes.filled us known (TsStreamPes.fresh s.elementaryPid.toNat) = TsStreamPes.fresh s.elementaryPid.toNat := by
    intro absent
    exact if_neg fun member => absent (lists _ member)
  have pids := TsStreamPes.pid_filled us known
  rw [mergeStep, mergeStep, entry, entry, merged, merged, fill, fill,
    FindOrInsert.entry_map pids new, TsStreamPes.merge_filled]
  rw [FindOrInsert.update_map pids (fun p => by rw [TsStreamPes.merge_filled]) new]

theorem mergeStreams_fill (ss : List TsPmtStream) (lists : Lists known ts) :
    mergeStreams ss (fill us known ts) = ((mergeStreams ss ts).1, fill us known (mergeStreams ss ts).2) := by
  rw [mergeStreams_eq, mergeStreams_eq]
  exact EarlyReturn.loop_map (P := Lists known) (fun s t listed => lists_merged s listed)
    (fun s t listed => mergeStep_fill s listed) ss lists

theorem setPcrPid_fill (ts : TsStream) (pid : BitVec 13) : (fill us known ts).setPcrPid pid = fill us known (ts.setPcrPid pid) := by
  rw [setPcrPid, setPcrPid, fill]
  split <;> rfl

theorem lists_setPcrPid (pid : BitVec 13) (lists : Lists known ts) : Lists known (ts.setPcrPid pid) := by
  rw [Lists, streams_setPcrPid]
  exact lists

theorem pmtStep_fill (u : TsUnit) (lists : Lists known ts) :
    pmtStep u (fill us known ts) = ((pmtStep u ts).1, fill us known (pmtStep u ts).2) := by
  have clock (pid : BitVec 13) : (fill us known (ts.setPcrPid pid)).pcrPid = (ts.setPcrPid pid).pcrPid := rfl
  simp only [pmtStep, setPcrPid_fill, clock, mergeStreams_fill _ (lists_setPcrPid _ lists),
    show (fill us known ts).programPid = ts.programPid from rfl]
  split
  · split
    · rfl
    · split <;> rfl
  · rfl

theorem lists_pmtStep (u : TsUnit) (lists : Lists known ts) : Lists known (pmtStep u ts).2 := by
  have kept := unpackPmtLoop_keeps (P := Lists known) (fun t s listed => lists_merged s listed)
    (fun t pid listed => lists_setPcrPid pid listed) [u] lists
  rw [unpackPmtLoop_eq, EarlyReturn.loop] at kept
  split at kept
  · exact kept
  · exact kept

/-- Reading the maps does not look at the packets. -/
theorem unpackPmtLoop_fill (vs : List TsUnit) (lists : Lists known ts) :
    unpackPmtLoop vs (fill us known ts) = ((unpackPmtLoop vs ts).1, fill us known (unpackPmtLoop vs ts).2) := by
  rw [unpackPmtLoop_eq, unpackPmtLoop_eq]
  exact EarlyReturn.loop_map (P := Lists known) (fun u t listed => lists_pmtStep u listed)
    (fun u t listed => pmtStep_fill u listed) vs lists

end Fill

section Rest

variable {ts ts' : TsStream} {first rest : TsUnits}

/-- Reading the associations looks at the program alone. -/
theorem patStep_programPid (u : TsUnit) (ts t : TsStream) :
    patStep u { ts with programPid := t.programPid } =
      ((patStep u t).1, { ts with programPid := (patStep u t).2.programPid }) := by
  simp only [patStep, setProgramPid]
  split_ifs <;> rfl

theorem unpackPatLoop_programPid (us : List TsUnit) (ts t : TsStream) :
    (unpackPatLoop us { ts with programPid := t.programPid }).1 = (unpackPatLoop us t).1 := by
  have same := EarlyReturn.loop_map (P := fun _ => True) (f := fun t => { ts with programPid := t.programPid })
    (fun _ _ _ => trivial) (fun u t _ => patStep_programPid u ts t) us (s := t) trivial
  rw [unpackPatLoop_eq, unpackPatLoop_eq, same]

theorem unpackPes_fill (ts : TsStream) (units : TsUnits) :
    (ts.unpackPes units).2 = fill units.list (ts.streams.map TsStreamPes.pid) ts := by
  have entries : ts.streams.map (TsStreamPes.unpackUnits units.list) =
      ts.streams.map (TsStreamPes.filled units.list (ts.streams.map TsStreamPes.pid)) := by
    apply List.map_congr_left
    intro p member
    exact (if_pos (List.mem_map_of_mem member)).symm
  rw [unpackPes, entries]
  rfl

/-- Behind associations and maps that were accepted, the rest is read from what they left. -/
theorem unpack_append_accepted {told described : TsStream} (pat : unpackPatLoop first.list ts = (1, told))
    (pmt : told.unpackPmt first = (1, described)) :
    ts.unpack { list := first.list ++ rest.list } =
      if (unpackPatLoop rest.list told).1 = -1 then (-1, told)
      else if (unpackPmtLoop rest.list described).1 = -1 then unpackPmtLoop rest.list described
      else (unpackPmtLoop rest.list described).2.unpackPes { list := first.list ++ rest.list } := by
  have program : told.programPid ≠ 0 := by
    intro unset
    rw [unpackPmt, if_pos unset] at pmt
    cases pmt
  have associations : unpackPatLoop (first.list ++ rest.list) ts = ((unpackPatLoop rest.list told).1, told) := by
    rw [unpackPatLoop_eq] at pat
    rw [unpackPatLoop_eq, EarlyReturn.loop_append_accepted pat, ← unpackPatLoop_eq]
    exact Prod.ext rfl (unpackPatLoop_known program rest.list)
  have maps : told.unpackPmt { list := first.list ++ rest.list } = unpackPmtLoop rest.list described := by
    rw [unpackPmt, if_neg program, unpackPmtLoop_eq] at pmt
    rw [unpackPmt, if_neg program, unpackPmtLoop_eq, EarlyReturn.loop_append_accepted pmt, ← unpackPmtLoop_eq]
  obtain refused | read := unpackPatLoop_result rest.list told
  · rw [refused] at associations
    rw [unpack_refused associations, if_pos refused]
  · have one : ¬ (unpackPatLoop rest.list told).1 = -1 := by
      rw [read]
      decide
    rw [read] at associations
    rw [unpack_associated associations, maps, if_neg one]
    obtain refused | mapped := unpackPmtLoop_result rest.list described
    · have less : ¬ (unpackPmtLoop rest.list described).1 ≥ 0 := by
        rw [refused]
        decide
      rw [if_neg less, if_pos refused]
    · have more : (unpackPmtLoop rest.list described).1 ≥ 0 := by
        rw [mapped]
        decide
      rw [if_pos more, if_neg (by rw [mapped]; decide)]

/-- A call on a stream with a program. -/
theorem unpack_known (program : ts.programPid ≠ 0) (units : TsUnits) :
    ts.unpack units =
      if (unpackPatLoop units.list ts).1 = -1 then (-1, ts)
      else if (unpackPmtLoop units.list ts).1 = -1 then unpackPmtLoop units.list ts
      else (unpackPmtLoop units.list ts).2.unpackPes units :=
  @unpack_append_accepted ts { list := [] } units ts ts rfl (if_neg program)

/-- The second call. -/
theorem unpack_filled {pids : List Int} {told described : TsStream} (program : told.programPid ≠ 0)
    (kept : described.programPid = told.programPid) (lists : Lists pids described) (us : List TsUnit) (rest : TsUnits) :
    (fill us pids described).unpack rest =
      if (unpackPatLoop rest.list told).1 = -1 then (-1, fill us pids described)
      else if (unpackPmtLoop rest.list described).1 = -1 then
        ((unpackPmtLoop rest.list described).1, fill us pids (unpackPmtLoop rest.list described).2)
      else (fill us pids (unpackPmtLoop rest.list described).2).unpackPes rest := by
  have same : ({ fill us pids described with programPid := told.programPid } : TsStream) = fill us pids described := by
    rw [← kept]
    rfl
  have associations := unpackPatLoop_programPid rest.list (fill us pids described) told
  rw [same] at associations
  have known : (fill us pids described).programPid ≠ 0 := by
    rw [show (fill us pids described).programPid = described.programPid from rfl, kept]
    exact program
  rw [unpack_known known, associations, unpackPmtLoop_fill rest.list lists]

theorem unpackPes_rest_iff (us : List TsUnit) (pids : List Int) (ts : TsStream) (rest : TsUnits) :
    (fill us pids ts).unpackPes rest = ts.unpackPes { list := us ++ rest.list } ↔
      ∀ s ∈ ((fill us pids ts).unpackPes rest).2.streams, s.pid ∉ pids → TsStreamPes.held us s.pid = [] := by
  have each (p : TsStreamPes) : TsStreamPes.unpackUnits rest.list (TsStreamPes.filled us pids p) =
      TsStreamPes.unpackUnits (us ++ rest.list) p ↔ (p.pid ∉ pids → TsStreamPes.held us p.pid = []) := by
    rw [TsStreamPes.filled]
    split
    · rename_i known
      rw [TsStreamPes.unpackUnits_append]
      exact iff_of_true rfl fun unknown => absurd known unknown
    · rename_i unknown
      rw [TsStreamPes.unpackUnits_rest_iff]
      exact ⟨fun none _ => none, fun none => none unknown⟩
  have pids_kept (p : TsStreamPes) : (TsStreamPes.unpackUnits rest.list (TsStreamPes.filled us pids p)).pid = p.pid := by
    rw [TsStreamPes.pid_unpackUnits, TsStreamPes.pid_filled]
  simp only [unpackPes, fill, Prod.mk.injEq, true_and, mk.injEq, List.map_map, List.map_inj_left,
    List.forall_mem_map, Function.comp_apply, pids_kept, each]

/-- A call on the rest is refused where one on all units is, or both end with the packets. -/
theorem unpack_rest (accepted : ts.unpack first = (1, ts')) (rest : TsUnits) :
    (ts'.unpack rest).1 = -1 ∧ (ts.unpack { list := first.list ++ rest.list }).1 = -1 ∨
      ∃ described : TsStream,
        ts'.unpack rest = (fill first.list (ts'.streams.map TsStreamPes.pid) described).unpackPes rest ∧
        ts.unpack { list := first.list ++ rest.list } = described.unpackPes { list := first.list ++ rest.list } := by
  obtain ⟨told, described, pat, pmt, rfl⟩ := unpack_accepted_iff.1 accepted
  have program : told.programPid ≠ 0 := by
    intro unset
    rw [unpackPmt, if_pos unset] at pmt
    cases pmt
  have kept : described.programPid = told.programPid := by
    have same := programPid_unpackPmtLoop first.list told
    rw [unpackPmt, if_neg program] at pmt
    rwa [pmt] at same
  have lists : Lists (described.streams.map TsStreamPes.pid) described := fun pid member => member
  have pids : (described.unpackPes first).2.streams.map TsStreamPes.pid = described.streams.map TsStreamPes.pid := by
    rw [unpackPes, List.map_map]
    exact List.map_congr_left fun p _ => TsStreamPes.pid_unpackUnits first.list p
  rw [pids, unpackPes_fill, unpack_filled program kept lists, unpack_append_accepted pat pmt]
  split
  · exact Or.inl ⟨rfl, rfl⟩
  · split
    · rename_i refused
      exact Or.inl ⟨refused, refused⟩
    · exact Or.inr ⟨_, rfl, rfl⟩

/-- **Units in parts.** A call on the rest is refused where one on all units is. Otherwise both decode to the same
stream exactly when the first part holds no packet of a stream that only the rest announces. -/
theorem unpack_rest_iff (accepted : ts.unpack first = (1, ts')) :
    (ts'.unpack rest).1 = (ts.unpack { list := first.list ++ rest.list }).1 ∧
      ((ts'.unpack rest).1 = 1 → (ts'.unpack rest = ts.unpack { list := first.list ++ rest.list } ↔
        ∀ s ∈ (ts'.unpack rest).2.streams, s.pid ∉ ts'.streams.map TsStreamPes.pid →
          TsStreamPes.held first.list s.pid = [])) := by
  obtain ⟨refused, whole⟩ | ⟨described, second, whole⟩ := unpack_rest accepted rest
  · rw [refused, whole]
    exact ⟨rfl, fun one => by cases one⟩
  · rw [second, whole]
    exact ⟨rfl, fun _ => unpackPes_rest_iff _ _ _ rest⟩

/-- A packet of the video stream, with one byte. -/
def videoUnit : TsUnit := { pid := 0x101, data := [0x00, 0x00, 0x01, 0xe0, 0x00, 0x00, 0x80, 0x00, 0x00, 0x07] }

/-- A packet in front of the map. -/
theorem unpack_rest_iff_early :
    (TsStream.unpack { programPid := 0x100 } { list := [plainUnit] }).1 =
        (construct.unpack { list := [associationUnit, videoUnit, plainUnit] }).1 ∧
      ((TsStream.unpack { programPid := 0x100 } { list := [plainUnit] }).1 = 1 →
        (TsStream.unpack { programPid := 0x100 } { list := [plainUnit] } =
            construct.unpack { list := [associationUnit, videoUnit, plainUnit] } ↔
          ∀ s ∈ (TsStream.unpack { programPid := 0x100 } { list := [plainUnit] }).2.streams, s.pid ∉ ([] : List Int) →
            TsStreamPes.held [associationUnit, videoUnit] s.pid = [])) := by
  have accepted : construct.unpack { list := [associationUnit, videoUnit] } = (1, { programPid := 0x100 }) := by
    decide +kernel
  exact @unpack_rest_iff _ _ _ { list := [plainUnit] } accepted

/-- A program that the tables announce first is the one that is kept. -/
theorem programPid_accepted (accepted : ts.unpack first = (1, ts')) : ts'.programPid ≠ 0 := by
  obtain ⟨told, described, -, pmt, rfl⟩ := unpack_accepted_iff.1 accepted
  have same := programPid_unpackPmtLoop first.list told
  rw [unpackPmt] at pmt
  split at pmt
  · cases pmt
  · rename_i program
    rw [pmt] at same
    exact same ▸ program

/-- More units do not help a call that is refused. -/
theorem unpack_refused_append (program : ts.programPid ≠ 0) (refused : (ts.unpack first).1 = -1) (us : List TsUnit) :
    (ts.unpack { list := first.list ++ us }).1 = -1 := by
  rw [unpack_known program] at refused ⊢
  by_cases pat : (unpackPatLoop first.list ts).1 = -1
  · rw [unpackPatLoop_eq] at pat
    rw [if_pos]
    rw [unpackPatLoop_eq, EarlyReturn.loop_append_refused pat, pat]
  · rw [if_neg pat] at refused
    split
    · rfl
    · by_cases pmt : (unpackPmtLoop first.list ts).1 = -1
      · rw [unpackPmtLoop_eq] at pmt
        rw [unpackPmtLoop_eq, EarlyReturn.loop_append_refused pmt, if_pos pmt, pmt]
      · rw [if_neg pmt] at refused
        cases refused

/-- Units without a map make no streams. -/
theorem pids_unpack_unmapped (program : ts.programPid ≠ 0)
    (unmapped : ∀ u ∈ rest.list, (u.pid.toNat : Int) ≠ ts.programPid) :
    (ts.unpack rest).2.programPid = ts.programPid ∧
      (ts.unpack rest).2.streams.map TsStreamPes.pid = ts.streams.map TsStreamPes.pid := by
  have none : rest.list.filter (fun u => (u.pid.toNat : Int) = ts.programPid) = [] := by
    rw [List.filter_eq_nil_iff]
    intro u member own
    exact unmapped u member (of_decide_eq_true own)
  rw [unpack_known program, unpackPmtLoop_none none]
  split
  · exact ⟨rfl, rfl⟩
  · rw [if_neg (show ¬ (1 : Int) = -1 by decide)]
    refine ⟨rfl, ?_⟩
    rw [unpackPes, List.map_map]
    exact List.map_congr_left fun p _ => TsStreamPes.pid_unpackUnits rest.list p

/-- Calls in a row, up to one that is refused. -/
def unpackParts : List TsUnits → TsStream → Int × TsStream := EarlyReturn.loop fun units ts => ts.unpack units

/-- **Behind the tables**, calls for any parts of the units, in their order, decode to what one call for all of them
does. -/
theorem unpackParts_eq {parts : List TsUnits} (accepted : ts.unpack first = (1, ts'))
    (unmapped : ∀ part ∈ parts, ∀ u ∈ part.list, (u.pid.toNat : Int) ≠ ts'.programPid) :
    (unpackParts parts ts').1 = (ts.unpack { list := first.list ++ parts.flatMap TsUnits.list }).1 ∧
      ((unpackParts parts ts').1 = 1 →
        unpackParts parts ts' = ts.unpack { list := first.list ++ parts.flatMap TsUnits.list }) := by
  induction parts generalizing first ts' with
  | nil =>
    rw [List.flatMap_nil, List.append_nil, accepted]
    exact ⟨rfl, fun _ => rfl⟩
  | cons part parts ih =>
    obtain ⟨here, later⟩ := List.forall_mem_cons.1 unmapped
    have program := programPid_accepted accepted
    obtain ⟨kept, pids⟩ := pids_unpack_unmapped program here
    rw [List.flatMap_cons, ← List.append_assoc]
    obtain ⟨refused, -⟩ | ⟨described, second, whole⟩ := unpack_rest accepted part
    · have stopped : unpackParts (part :: parts) ts' = (-1, (ts'.unpack part).2) :=
        EarlyReturn.loop_refused (Prod.ext refused rfl)
      have refused_all := unpack_refused_append program refused (parts.flatMap TsUnits.list)
      obtain ⟨-, whole⟩ | ⟨described, read, -⟩ := unpack_rest accepted { list := part.list ++ parts.flatMap TsUnits.list }
      · rw [stopped, List.append_assoc, whole]
        exact ⟨rfl, fun one => by cases one⟩
      · rw [read] at refused_all
        cases refused_all
    · have read : (ts'.unpack part).1 = 1 := by rw [second, unpackPes]
      have next : unpackParts (part :: parts) ts' = unpackParts parts (ts'.unpack part).2 :=
        EarlyReturn.loop_accepted (by rw [read]; decide)
      have same : ts'.unpack part = ts.unpack { list := first.list ++ part.list } := by
        rw [second, whole, unpackPes_rest_iff, ← second]
        intro s member unknown
        have known := List.mem_map_of_mem (f := TsStreamPes.pid) member
        rw [pids] at known
        exact absurd known unknown
      have accepted' : ts.unpack { list := first.list ++ part.list } = (1, (ts'.unpack part).2) := by
        rw [← same]
        exact Prod.ext read rfl
      rw [next]
      apply ih accepted'
      rw [kept]
      exact later

/-- Three calls. -/
theorem unpackParts_eq_video :
    (unpackParts [{ list := [videoUnit] }, { list := [associationUnit, videoUnit] }] (collected {})).1 =
        (construct.unpack { list := [associationUnit, plainUnit, videoUnit, associationUnit, videoUnit] }).1 ∧
      ((unpackParts [{ list := [videoUnit] }, { list := [associationUnit, videoUnit] }] (collected {})).1 = 1 →
        unpackParts [{ list := [videoUnit] }, { list := [associationUnit, videoUnit] }] (collected {}) =
          construct.unpack { list := [associationUnit, plainUnit, videoUnit, associationUnit, videoUnit] }) := by
  have accepted : construct.unpack { list := [associationUnit, plainUnit] } = (1, collected {}) := by decide +kernel
  exact @unpackParts_eq _ _ _ [{ list := [videoUnit] }, { list := [associationUnit, videoUnit] }] accepted (by decide)

end Rest

end TsStream
end Libts
