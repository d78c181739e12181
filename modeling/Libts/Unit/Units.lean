import Libts.Base.Demux
import Libts.Unit.Unit

/-!
# Unit lists

`ts_units.c`: `unpack` sorts packets into units. The output holds every unit in the order
of the start indicators; a side list `incomplete` holds the units that still take
payloads, as pointers to entries of the output. At most one unit of a PID is incomplete
(`Open`), so a payload reaches the last unit opened for its PID, and the units are the
segments of the packet list (`unpackLoop_eq`).
-/

namespace Libts
set_option autoImplicit false

structure TsUnits where
  list : List TsUnit := []
deriving Repr, DecidableEq

namespace TsUnits

def construct : TsUnits := {}

/-- The loop of `pack`. -/
def packLoop : List TsUnit → TsPackets → Int → Int × TsPackets
  | [], packets, count => (count, packets)
  | u :: us, packets, count =>
    let (n, packets) := u.pack packets
    if n = -1 then (-1, packets) else packLoop us packets (count + 1)

def pack (units : TsUnits) (packets : TsPackets) : Int × TsPackets := packLoop units.list packets 0

/-- `u_found`: the last entry of `incomplete` for the PID, as its position there and the
position of the unit it points to. -/
def findIncomplete (units : List TsUnit) (pid : BitVec 13) : List Nat → Option (Nat × Nat)
  | [] => none
  | u :: incomplete =>
    match findIncomplete units pid incomplete with
    | some (i, v) => some (i + 1, v)
    | none => if units[u]?.map TsUnit.pid = some pid then some (0, u) else none

/-- The unit a start indicator opens. -/
def opened (p : TsPacket) : TsUnit :=
  let unit := TsUnit.construct p.pid p.adaptationField.randomAccessIndicator
  if p.adaptationField.pcrFlag then { unit with pcrFlag := true, pcr := p.adaptationField.pcr } else unit

/-- The start indicator of the loop body: the unit that was incomplete is dropped from the
side list, and a new one is put on both lists. -/
def openUnit (units : List TsUnit) (incomplete : List Nat) (found : Option (Nat × Nat)) (p : TsPacket) :
    List TsUnit × List Nat :=
  let (units, incomplete) := match found with
    | some (i, u) => (units.modify u TsUnit.compact, incomplete.eraseIdx i)
    | none => (units, incomplete)
  (units ++ [opened p], incomplete ++ [units.length])

/-- The loop body of `unpack`. -/
def unpackStep (units : List TsUnit) (incomplete : List Nat) (p : TsPacket) : List TsUnit × List Nat :=
  let found := findIncomplete units p.pid incomplete
  if p.payloadUnitStartIndicator then
    let (list, incomplete) := openUnit units incomplete found p
    (list.modify units.length fun u => (u.unpack p).2, incomplete)
  else match found with
    | some (_, u) => (units.modify u fun u => (u.unpack p).2, incomplete)
    | none => (units, incomplete)

/-- The loop of `unpack`. -/
def unpackLoop : List TsPacket → List TsUnit → List Nat → Int → Int × List TsUnit
  | [], units, _, count => (count, units)
  | p :: ps, units, incomplete, count =>
    let (units, incomplete) := unpackStep units incomplete p
    unpackLoop ps units incomplete (if p.payloadUnitStartIndicator then count + 1 else count)

def unpack (units : TsUnits) (packets : TsPackets) : Int × TsUnits :=
  let (count, list) := unpackLoop packets.list units.list [] 0
  (count, { list := list })

/-! ## The side list -/

/-- The PID of the unit an entry of the side list points to. -/
def pidOf (units : List TsUnit) (u : Nat) : Option (BitVec 13) := units[u]?.map TsUnit.pid

/-- The side list points to different units of the output, at most one of each PID. -/
structure Open (units : List TsUnit) (incomplete : List Nat) : Prop where
  inside : ∀ u ∈ incomplete, u < units.length
  nodup : incomplete.Nodup
  alone : ∀ u ∈ incomplete, ∀ v ∈ incomplete, pidOf units u = pidOf units v → u = v

section SideList

variable {units : List TsUnit} {incomplete : List Nat} {pid : BitVec 13}

theorem findIncomplete_none (h : findIncomplete units pid incomplete = none) :
    ∀ u ∈ incomplete, pidOf units u ≠ some pid := by
  induction incomplete with
  | nil =>
    intro u member
    cases member
  | cons v incomplete ih =>
    rw [findIncomplete] at h
    split at h
    · cases h
    · rename_i rest
      split at h
      · cases h
      · rename_i other
        intro u member
        rcases List.mem_cons.mp member with rfl | later
        · exact other
        · exact ih rest u later

theorem findIncomplete_some {i u : Nat} (h : findIncomplete units pid incomplete = some (i, u)) :
    incomplete[i]? = some u ∧ pidOf units u = some pid := by
  induction incomplete generalizing i with
  | nil => cases h
  | cons v incomplete ih =>
    rw [findIncomplete] at h
    split at h
    · rename_i rest
      cases h
      exact ih rest
    · split at h
      · rename_i own
        cases h
        exact ⟨rfl, own⟩
      · cases h

/-- What is left of the side list when the entry that was found is erased. -/
theorem Open.mem_eraseIdx (h : Open units incomplete) {i u v : Nat} (there : incomplete[i]? = some u) :
    v ∈ incomplete.eraseIdx i ↔ v ∈ incomplete ∧ v ≠ u := by
  rw [List.mem_eraseIdx_iff_getElem?]
  constructor
  · rintro ⟨j, other, entry⟩
    refine ⟨List.mem_of_getElem? entry, ?_⟩
    rintro rfl
    obtain ⟨inside, rfl⟩ := List.getElem?_eq_some_iff.mp entry
    obtain ⟨before, same⟩ := List.getElem?_eq_some_iff.mp there
    exact other ((h.nodup.getElem_inj_iff.mp same).symm)
  · rintro ⟨member, other⟩
    obtain ⟨j, entry⟩ := List.getElem?_of_mem member
    refine ⟨j, ?_, entry⟩
    rintro rfl
    rw [there] at entry
    cases entry
    exact other rfl

/-- The side list without the unit of a PID. -/
def remaining (units : List TsUnit) (pid : BitVec 13) (incomplete : List Nat) : List Nat :=
  match findIncomplete units pid incomplete with
  | some (i, _) => incomplete.eraseIdx i
  | none => incomplete

theorem Open.mem_remaining (h : Open units incomplete) {v : Nat} :
    v ∈ remaining units pid incomplete ↔ v ∈ incomplete ∧ pidOf units v ≠ some pid := by
  unfold remaining
  split
  · rename_i i u found
    obtain ⟨there, own⟩ := findIncomplete_some found
    rw [h.mem_eraseIdx there]
    constructor
    · rintro ⟨member, other⟩
      refine ⟨member, fun same => other (h.alone v member u (List.mem_of_getElem? there) ?_)⟩
      rw [same, own]
    · rintro ⟨member, other⟩
      refine ⟨member, ?_⟩
      rintro rfl
      exact other own
  · rename_i absent
    constructor
    · intro member
      exact ⟨member, findIncomplete_none absent v member⟩
    · intro both
      exact both.1

theorem Open.nodup_remaining (h : Open units incomplete) : (remaining units pid incomplete).Nodup := by
  unfold remaining
  split
  · exact h.nodup.sublist (List.eraseIdx_sublist _ _)
  · exact h.nodup

theorem pidOf_append (more : List TsUnit) {u : Nat} (inside : u < units.length) :
    pidOf (units ++ more) u = pidOf units u := by
  rw [pidOf, pidOf, List.getElem?_append_left inside]

theorem pidOf_modify {f : TsUnit → TsUnit} (keeps : ∀ u, (f u).pid = u.pid) (k v : Nat) :
    pidOf (units.modify k f) v = pidOf units v := by
  rw [pidOf, pidOf, List.getElem?_modify]
  split
  · cases units[v]? with
    | none => rfl
    | some u => simp [keeps]
  · simp

theorem Open.modify (h : Open units incomplete) {f : TsUnit → TsUnit} (keeps : ∀ u, (f u).pid = u.pid) (k : Nat) :
    Open (units.modify k f) incomplete := by
  refine ⟨?_, h.nodup, ?_⟩
  · intro u member
    rw [List.length_modify]
    exact h.inside u member
  · intro u member v other same
    rw [pidOf_modify keeps, pidOf_modify keeps] at same
    exact h.alone u member v other same

/-- A new unit is the one of its PID. -/
theorem Open.push (h : Open units incomplete) (unit : TsUnit) :
    Open (units ++ [unit]) (remaining units unit.pid incomplete ++ [units.length]) := by
  have old : ∀ v ∈ remaining units unit.pid incomplete, v < units.length ∧ pidOf (units ++ [unit]) v ≠ some unit.pid := by
    intro v member
    obtain ⟨there, other⟩ := h.mem_remaining.mp member
    have inside := h.inside v there
    exact ⟨inside, by rw [pidOf_append _ inside]; exact other⟩
  have last : pidOf (units ++ [unit]) units.length = some unit.pid := by simp [pidOf]
  constructor
  · intro u member
    rw [List.length_append, List.length_singleton]
    rcases List.mem_append.mp member with before | here
    · have := (old u before).1
      omega
    · rw [List.mem_singleton.mp here]
      omega
  · rw [List.nodup_append]
    refine ⟨h.nodup_remaining, List.nodup_singleton _, ?_⟩
    intro v member w here
    rw [List.mem_singleton.mp here]
    have := (old v member).1
    omega
  · intro u member v other same
    rcases List.mem_append.mp member with before | here <;> rcases List.mem_append.mp other with before' | here'
    · have left := (h.mem_remaining.mp before).1
      have right := (h.mem_remaining.mp before').1
      rw [pidOf_append _ (h.inside u left), pidOf_append _ (h.inside v right)] at same
      exact h.alone u left v right same
    · rw [List.mem_singleton.mp here', last] at same
      exact absurd same (old u before).2
    · rw [List.mem_singleton.mp here, last] at same
      exact absurd same.symm (old v before').2
    · rw [List.mem_singleton.mp here, List.mem_singleton.mp here']

end SideList

/-! ## The units of a packet list -/

/-- The packets of one PID up to its next start indicator. -/
abbrev followers (pid : BitVec 13) (ps : List TsPacket) : List TsPacket :=
  Demux.followers TsPacket.pid TsPacket.payloadUnitStartIndicator pid ps

/-- The packets with a start indicator, each with the packets of its unit behind it. -/
abbrev segments (ps : List TsPacket) : List (TsPacket × List TsPacket) :=
  Demux.segments TsPacket.pid TsPacket.payloadUnitStartIndicator ps

/-- A unit with payloads added. -/
def extend (u : TsUnit) (ps : List TsPacket) : TsUnit := { u with data := u.data ++ ps.flatMap TsPacket.payloadData }

/-- The unit of a segment. -/
def ofSegment (g : TsPacket × List TsPacket) : TsUnit := extend (opened g.1) (g.1 :: g.2)

/-- The output with what the side list still takes from `ps`. -/
def completed (incomplete : List Nat) (ps : List TsPacket) (units : List TsUnit) : List TsUnit :=
  units.mapIdx fun i u => if i ∈ incomplete then extend u (followers u.pid ps) else u

theorem opened_eq (p : TsPacket) : opened p =
    { pid := p.pid
      randomAccessIndicator := p.adaptationField.randomAccessIndicator
      pcrFlag := p.adaptationField.pcrFlag
      pcr := if p.adaptationField.pcrFlag then p.adaptationField.pcr else 0 } := by
  unfold opened TsUnit.construct
  cases p.adaptationField.pcrFlag <;> rfl

theorem pid_opened (p : TsPacket) : (opened p).pid = p.pid := by
  rw [opened_eq]

theorem extend_nil (u : TsUnit) : extend u [] = u := by simp [extend]

theorem extend_cons (u : TsUnit) (p : TsPacket) (ps : List TsPacket) : extend u (p :: ps) = extend (u.unpack p).2 ps := by
  simp [extend, TsUnit.unpack_eq, List.append_assoc]

theorem completed_nil (incomplete : List Nat) (units : List TsUnit) : completed incomplete [] units = units := by
  rw [completed, List.mapIdx_eq_iff]
  intro i
  cases units[i]? with
  | none => rfl
  | some u => simp [extend_nil]

section Step

variable {units : List TsUnit} {incomplete : List Nat} {p : TsPacket}

theorem step_start (starts : p.payloadUnitStartIndicator = true) :
    unpackStep units incomplete p =
      (units ++ [((opened p).unpack p).2], remaining units p.pid incomplete ++ [units.length]) := by
  have same : ∀ (k : Nat) (l : List TsUnit), l.modify k TsUnit.compact = l := fun k l => List.modify_id k l
  have last : ∀ (l : List TsUnit) (u : TsUnit) (f : TsUnit → TsUnit), (l ++ [u]).modify l.length f = l ++ [f u] := by
    intro l u f
    induction l with
    | nil => rfl
    | cons v l ih => rw [List.cons_append, List.length_cons, List.modify_succ_cons, ih, List.cons_append]
  simp only [unpackStep, if_pos starts, openUnit, remaining]
  split
  · simp only [same, last]
  · simp only [last]

theorem step_found {i u : Nat} (plain : p.payloadUnitStartIndicator = false)
    (found : findIncomplete units p.pid incomplete = some (i, u)) :
    unpackStep units incomplete p = (units.modify u fun u => (u.unpack p).2, incomplete) := by
  simp only [unpackStep, plain, Bool.false_eq_true, if_false, found]

theorem step_absent (plain : p.payloadUnitStartIndicator = false)
    (absent : findIncomplete units p.pid incomplete = none) : unpackStep units incomplete p = (units, incomplete) := by
  simp only [unpackStep, plain, Bool.false_eq_true, if_false, absent]

theorem pidOf_eq {i : Nat} (inside : i < units.length) : pidOf units i = some units[i].pid := by
  simp [pidOf, inside]

/-- A start indicator closes the unit of its PID and opens another. -/
theorem Open.completed_start (h : Open units incomplete) (starts : p.payloadUnitStartIndicator = true)
    (ps : List TsPacket) :
    completed (remaining units p.pid incomplete ++ [units.length]) ps (units ++ [((opened p).unpack p).2]) =
      completed incomplete (p :: ps) units ++ [ofSegment (p, followers p.pid ps)] := by
  have new : extend ((opened p).unpack p).2 (followers p.pid ps) = ofSegment (p, followers p.pid ps) :=
    (extend_cons _ _ _).symm
  have own : ((opened p).unpack p).2.pid = p.pid := pid_opened p
  unfold completed
  rw [List.mapIdx_concat, own, if_pos (by simp), new]
  congr 1
  rw [List.mapIdx_eq_mapIdx_iff]
  intro i inside
  have old : i ∈ remaining units p.pid incomplete ++ [units.length] ↔ i ∈ incomplete ∧ units[i].pid ≠ p.pid := by
    rw [List.mem_append, h.mem_remaining, List.mem_singleton, pidOf_eq inside]
    constructor
    · rintro (⟨member, other⟩ | last)
      · exact ⟨member, fun same => other (by rw [same])⟩
      · omega
    · rintro ⟨member, other⟩
      exact Or.inl ⟨member, fun same => other (Option.some.inj same)⟩
  by_cases member : i ∈ incomplete
  · obtain same | apart := eq_or_ne units[i].pid p.pid
    · rw [if_neg (fun both => (old.mp both).2 same), if_pos member, same, followers, Demux.followers_start ps starts, extend_nil]
    · rw [if_pos (old.mpr ⟨member, apart⟩), if_pos member, followers, followers,
        Demux.followers_other ps (Ne.symm apart)]
  · rw [if_neg (fun both => member (old.mp both).1), if_neg member]

/-- A payload goes to the unit that is open for its PID. -/
theorem Open.completed_found (h : Open units incomplete) (plain : p.payloadUnitStartIndicator = false) {i u : Nat}
    (found : findIncomplete units p.pid incomplete = some (i, u)) (ps : List TsPacket) :
    completed incomplete ps (units.modify u fun u => (u.unpack p).2) = completed incomplete (p :: ps) units := by
  obtain ⟨there, own⟩ := findIncomplete_some found
  have member := List.mem_of_getElem? there
  apply List.ext_getElem?
  intro k
  simp only [completed, List.getElem?_mapIdx, List.getElem?_modify, Option.map_eq_map]
  cases entry : units[k]? with
  | none => simp
  | some v =>
    have pid : pidOf units k = some v.pid := by rw [pidOf, entry]; rfl
    obtain here | elsewhere := eq_or_ne u k
    · subst here
      have same : v.pid = p.pid := by
        rw [own] at pid
        exact (Option.some.inj pid).symm
      simp only [if_true, Option.map_some, if_pos member]
      have taken : followers p.pid (p :: ps) = p :: followers p.pid ps := Demux.followers_own ps plain
      rw [show (v.unpack p).2.pid = p.pid from same, same, taken, extend_cons]
    · simp only [if_neg elsewhere, Option.map_some]
      by_cases isOpen : k ∈ incomplete
      · have other : p.pid ≠ v.pid := by
          intro same
          apply elsewhere
          apply h.alone u member k isOpen
          rw [own, pid, same]
        simp only [if_pos isOpen, followers, Demux.followers_other ps other]
      · simp only [if_neg isOpen]

/-- Without one it goes nowhere. -/
theorem completed_absent
    (absent : findIncomplete units p.pid incomplete = none) (ps : List TsPacket) :
    completed incomplete ps units = completed incomplete (p :: ps) units := by
  unfold completed
  rw [List.mapIdx_eq_mapIdx_iff]
  intro i inside
  by_cases member : i ∈ incomplete
  · have other := findIncomplete_none absent i member
    rw [pidOf_eq inside] at other
    rw [if_pos member, if_pos member, followers, followers,
      Demux.followers_other ps (fun same => other (congrArg some same.symm))]
  · rw [if_neg member, if_neg member]

/-- **One packet**: what it adds to the output and what it leaves open. -/
theorem Open.step (h : Open units incomplete) (p : TsPacket) (ps : List TsPacket) :
    Open (unpackStep units incomplete p).1 (unpackStep units incomplete p).2 ∧
      completed (unpackStep units incomplete p).2 ps (unpackStep units incomplete p).1 ++ (segments ps).map ofSegment =
        completed incomplete (p :: ps) units ++ (segments (p :: ps)).map ofSegment := by
  have keeps : ∀ u : TsUnit, (u.unpack p).2.pid = u.pid := fun u => rfl
  cases starts : p.payloadUnitStartIndicator with
  | true =>
    have push := h.push ((opened p).unpack p).2
    rw [show ((opened p).unpack p).2.pid = p.pid from pid_opened p] at push
    rw [step_start starts, h.completed_start starts, segments, segments, Demux.segments_start ps starts]
    exact ⟨push, by simp⟩
  | false =>
    rw [segments, segments, Demux.segments_plain ps starts]
    cases found : findIncomplete units p.pid incomplete with
    | some entry =>
      rw [step_found starts found, h.completed_found starts found]
      exact ⟨h.modify keeps _, rfl⟩
    | none =>
      rw [step_absent starts found, completed_absent found ps]
      exact ⟨h, rfl⟩

end Step

/-- **Demultiplexing**: the units are the segments of the packet list. -/
theorem unpackLoop_eq (ps : List TsPacket) {units : List TsUnit} {incomplete : List Nat} (h : Open units incomplete)
    (count : Int) :
    unpackLoop ps units incomplete count =
      (count + ps.countP TsPacket.payloadUnitStartIndicator,
        completed incomplete ps units ++ (segments ps).map ofSegment) := by
  induction ps generalizing units incomplete count with
  | nil => simp [unpackLoop, completed_nil, Demux.segments]
  | cons p ps ih =>
    obtain ⟨next, run⟩ := h.step p ps
    simp only [unpackLoop, ih next, run, List.countP_cons]
    cases p.payloadUnitStartIndicator <;> simp
    omega

/-- The output from an empty one. -/
theorem unpack_eq (packets : TsPackets) :
    construct.unpack packets =
      ((packets.list.countP TsPacket.payloadUnitStartIndicator : Int),
        { list := (segments packets.list).map ofSegment }) := by
  have empty : Open [] [] := by
    constructor
    · intro u member
      cases member
    · exact List.nodup_nil
    · intro u member
      cases member
  rw [unpack, show construct.list = [] from rfl, unpackLoop_eq packets.list empty, Int.zero_add]
  rfl

/-- **The units of a packet list**: one for each start indicator, in their order, with the
payload of its packet and those of the later packets of its PID up to the next start
indicator. -/
theorem unpack_units (packets : TsPackets) :
    ∃ units : TsUnits,
      construct.unpack packets = ((packets.list.countP TsPacket.payloadUnitStartIndicator : Int), units) ∧
      units.list.length = packets.list.countP TsPacket.payloadUnitStartIndicator ∧
      ∀ k p, packets.list[k]? = some p → p.payloadUnitStartIndicator = true →
        units.list[(packets.list.take k).countP TsPacket.payloadUnitStartIndicator]? = some
          { pid := p.pid
            randomAccessIndicator := p.adaptationField.randomAccessIndicator
            pcrFlag := p.adaptationField.pcrFlag
            pcr := if p.adaptationField.pcrFlag then p.adaptationField.pcr else 0
            data := p.payloadData ++
              (((packets.list.drop (k + 1)).filter (·.pid = p.pid)).takeWhile
                (!·.payloadUnitStartIndicator)).flatMap TsPacket.payloadData } := by
  refine ⟨_, unpack_eq packets, ?_, ?_⟩
  · rw [List.length_map, segments, Demux.length_segments]
  · intro k p there starts
    have segment : (segments packets.list)[(packets.list.take k).countP TsPacket.payloadUnitStartIndicator]? =
        some (p, followers p.pid (packets.list.drop (k + 1))) := Demux.getElem?_segments there starts
    rw [List.getElem?_map, segment, Option.map_some, ofSegment, extend, opened_eq]
    rfl

end TsUnits
end Libts
