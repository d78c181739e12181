import Libts.Stream.PesUnits

/-!
# Decoding an encoded stream

The units of a stream that was encoded are decoded to a stream that has of each table and of each
packet what the encoder wrote of it (`Describable.unpack_saved_eq`). It is the stream that was
encoded exactly when the program map says everything about the program, and each packet has a
time stamp and is one of which the encoder writes everything (`comesBack_iff`).
-/

namespace Libts
set_option autoImplicit false

/-- What is left of a front part is the whole exactly when the front part is, item by item. -/
theorem filterMap_takeWhile_eq_iff {α : Type} {p : α → Bool} {f : α → Option α} {l : List α} :
    (l.takeWhile p).filterMap f = l ↔ ∀ a ∈ l, p a = true ∧ f a = some a := by
  induction l with
  | nil => simp
  | cons a l ih =>
    rw [List.forall_mem_cons, ← ih]
    by_cases first : p a = true
    · rw [List.takeWhile_cons_of_pos first]
      cases value : f a with
      | none =>
        rw [List.filterMap_cons_none value]
        constructor
        · intro whole
          have few := List.length_filterMap_le f (l.takeWhile p)
          have front := (List.takeWhile_prefix p (l := l)).length_le
          rw [whole, List.length_cons] at few
          omega
        · rintro ⟨⟨-, same⟩, -⟩
          cases same
      | some b =>
        rw [List.filterMap_cons_some value, List.cons_eq_cons, Option.some.injEq]
        tauto
    · rw [List.takeWhile_cons_of_neg first]
      constructor
      · intro none
        cases none
      · rintro ⟨⟨same, -⟩, -⟩
        exact absurd same first

namespace TsStreamPes

/-- The entry with the packets that come back. -/
def reread (p : TsStreamPes) : TsStreamPes :=
  { p with packets := (p.packets.takeWhile TsPes.ptsIndicator).filterMap TsPes.reread }

end TsStreamPes

namespace TsStream

/-- What becomes of a stream that is encoded and decoded. -/
def reread (ts : TsStream) : TsStream :=
  { programPid := ts.programPid, pcrPid := ts.wirePcrPid, streams := ts.streams.map TsStreamPes.reread }

variable {ts : TsStream} {units : TsUnits}

theorem Describable.carried (h : ts.Describable) : ts.Carried := by
  intro s there _
  obtain ⟨low, high, -⟩ := h.pids s there
  exact ⟨by omega, by omega⟩

/-- The packets of a successful run, with the units that are saved of it. -/
theorem Describable.saved_run (h : ts.Describable) (ok : (ts.pack units).map Prod.fst = some 1) :
    ∃ chosen, ts.saved units = ts.patUnit :: ts.pmtUnit :: ts.emitted false chosen ∧
      Selection.LeastRun TsPes.ptsIndicator clock (ts.streams.map TsStreamPes.packets)
        (chosen.map fun c => (c.i, c.pes)) ∧
      (∀ c ∈ chosen, ts.streams[c.i]? = some c.pesStream) ∧ ∀ c ∈ chosen, (c.pes.packBuffer []).1 = 1 := by
  have given : ts.programPid ≠ 0 := by
    have low := h.programPid.1
    omega
  have packed := pack_eq given units
  split at packed
  · rw [packed] at ok
    cases ok
  · rw [packed] at ok
    have written := Option.some.inj ok
    obtain ⟨chosen, result, run, table⟩ := packPes_leastRun written
    refine ⟨chosen, ?_, run, table, fun c member => ?_⟩
    · rw [saved, packed, Option.elim_some, result, List.append_assoc, List.drop_left]
      rfl
    · exact packPes_accepted written run (c.i, c.pes) (List.mem_map.mpr ⟨c, member, rfl⟩)

/-- The packets in front of the first without time stamp were encoded. -/
theorem Describable.packed_front (h : ts.Describable) (ok : (ts.pack units).map Prod.fst = some 1) {s : TsStreamPes}
    (there : s ∈ ts.streams) : ∀ pes ∈ s.packets.takeWhile TsPes.ptsIndicator, (pes.packBuffer []).1 = 1 := by
  obtain ⟨chosen, -, run, table, packed⟩ := h.saved_run ok
  intro pes member
  rw [← filter_chosen run.run table h.distinct h.carried there] at member
  obtain ⟨c, inside, rfl⟩ := List.mem_map.mp member
  exact packed c (List.mem_filter.mp inside).1

/-- **An encoded stream is decoded** to the stream as far as it was written. -/
theorem Describable.unpack_saved_eq (h : ts.Describable) (ok : (ts.pack units).map Prod.fst = some 1) :
    construct.unpack { list := ts.saved units } = (1, ts.reread) := by
  obtain ⟨chosen, written, run, table, -⟩ := h.saved_run ok
  have given := h.programPid.1
  have entries : ts.described.streams.map (TsStreamPes.unpackUnits (ts.saved units)) = ts.reread.streams := by
    rw [described, reread, List.map_map]
    apply List.map_congr_left
    intro s there
    obtain ⟨low, high, apart⟩ := h.pids s there
    have patOther : ¬ ((ts.patUnit.pid.toNat : Int) = s.pid) := by
      have zero : (ts.patUnit.pid.toNat : Int) = 0 := rfl
      omega
    have pmtOther : ¬ ((ts.pmtUnit.pid.toNat : Int) = s.pid) := by
      have number : (ts.pmtUnit.pid.toNat : Int) = ts.programPid :=
        toNat_ofInt_pid (by omega) (by have := h.programPid.2; omega)
      omega
    have own : (ts.saved units).filter (fun u => (u.pid.toNat : Int) = s.pid) =
        (ts.emitted false chosen).filter fun u => (u.pid.toNat : Int) = s.pid := by
      rw [written, List.filter_cons_of_neg (by simpa using patOther), List.filter_cons_of_neg (by simpa using pmtOther)]
    have read := readUnits_emitted run.run table h.distinct h.carried there
    rw [← own] at read
    rw [Function.comp_apply, TsStreamPes.unpackUnits_filterMap]
    exact congrArg (fun packets => ({ s with packets := packets } : TsStreamPes)) read
  rw [h.unpack_saved ok, entries]
  rfl

/-! ## What comes back as it was -/

/-- The stream comes back as it was. -/
def ComesBack (ts : TsStream) (units : TsUnits) : Prop := construct.unpack { list := ts.saved units } = (1, ts)

instance (ts : TsStream) (units : TsUnits) : Decidable (ts.ComesBack units) := inferInstanceAs (Decidable (_ = _))

theorem reread_eq_iff (plain : ts.descriptor.Plain) :
    ts.reread = ts ↔ ts.descriptor.tag = 0 ∧ ts.pcrPid ≠ 0 ∧
      ∀ s ∈ ts.streams, ∀ pes ∈ s.packets, pes.ptsIndicator = true ∧ pes.reread = some pes := by
  have entry : ∀ s : TsStreamPes, s.reread = s ↔ ∀ pes ∈ s.packets, pes.ptsIndicator = true ∧ pes.reread = some pes := by
    intro s
    rw [← filterMap_takeWhile_eq_iff]
    constructor
    · exact fun same => congrArg TsStreamPes.packets same
    · intro same
      rw [TsStreamPes.reread, same]
  constructor
  · intro same
    refine ⟨congrArg (fun t => t.descriptor.tag) same.symm, ?_, ?_⟩
    · intro unset
      have read : ts.wirePcrPid = ts.pcrPid := congrArg TsStream.pcrPid same
      rw [wirePcrPid, if_neg (not_not.mpr unset), unset] at read
      cases read
    · intro s there
      have list : ts.streams.map TsStreamPes.reread = ts.streams.map id := by
        rw [List.map_id]
        exact congrArg TsStream.streams same
      exact (entry s).1 (List.map_inj_left.mp list s there)
  · rintro ⟨absent, set, kept⟩
    have list : ts.streams.map TsStreamPes.reread = ts.streams := by
      conv_rhs => rw [← List.map_id ts.streams]
      exact List.map_congr_left fun s there => (entry s).2 (kept s there)
    rw [reread, list, wirePcrPid, if_pos set]
    cases ts
    have none := plain.eq_default absent
    simp only [mk.injEq, true_and, and_true] at none ⊢
    exact none.symm

/-- **A stream comes back** exactly when the program has no descriptor and has a PCR PID, and every packet has a
time stamp and nothing that the encoder does not write. -/
theorem comesBack_iff (h : ts.Describable) (ok : (ts.pack units).map Prod.fst = some 1)
    (small : ∀ s ∈ ts.streams, ∀ pes ∈ s.packets, pes.data.length < 2 ^ 31 - 13) :
    ts.ComesBack units ↔ ts.descriptor.tag = 0 ∧ ts.pcrPid ≠ 0 ∧
      ∀ s ∈ ts.streams, ∀ pes ∈ s.packets, pes.ptsIndicator = true ∧ pes.Encodable ∧ pes.Bare := by
  have same : ts.ComesBack units ↔ ts.reread = ts := by
    rw [ComesBack, h.unpack_saved_eq ok]
    constructor
    · exact fun both => congrArg Prod.snd both
    · exact fun back => congrArg (Prod.mk 1) back
  rw [same, reread_eq_iff h.descriptor]
  -- when every packet has a time stamp, each was taken and so encoded
  have encoded : (∀ s ∈ ts.streams, ∀ pes ∈ s.packets, pes.ptsIndicator = true) →
      ∀ s ∈ ts.streams, ∀ pes ∈ s.packets, (pes.packBuffer []).1 = 1 := by
    intro stamped s there pes member
    apply h.packed_front ok there
    rw [List.takeWhile_eq_self_iff.mpr (stamped s there)]
    exact member
  constructor
  · rintro ⟨absent, set, kept⟩
    refine ⟨absent, set, fun s there pes member => ?_⟩
    obtain ⟨stamped, back⟩ := kept s there pes member
    have written := encoded (fun s there pes member => (kept s there pes member).1) s there pes member
    exact ⟨stamped, (TsPes.reread_eq_iff stamped (small s there pes member) written).1 back⟩
  · rintro ⟨absent, set, kept⟩
    refine ⟨absent, set, fun s there pes member => ?_⟩
    obtain ⟨stamped, whole⟩ := kept s there pes member
    have written := encoded (fun s there pes member => (kept s there pes member).1) s there pes member
    exact ⟨stamped, (TsPes.reread_eq_iff stamped (small s there pes member) written).2 whole⟩

/-- Two streams with a packet each. -/
def twoPackets : TsStream :=
  { programPid := 4096, pcrPid := 256, streams := [
      { pid := 256, type := 27, packets := [{ streamId := 0xe0, ptsIndicator := true, pts := 20, data := [1] }] },
      { pid := 257, type := 15, packets := [{ streamId := 0xc0, ptsIndicator := true, pts := 10, data := [2] }] }] }

theorem describable_twoPackets : twoPackets.Describable :=
  ⟨by decide, by decide, fun _ => rfl, by decide, by decide, by decide⟩

theorem pack_twoPackets (units : TsUnits) : (twoPackets.pack units).map Prod.fst = some 1 := by
  apply pack_ok (by decide) (by decide)
  apply packPesLoop_ok
  intro it member pes inside _
  obtain ⟨s, there, rfl⟩ := List.mem_map.mp member
  have short : ∀ s ∈ twoPackets.streams, ∀ pes ∈ s.packets, pes.isVideo = true ∨ pes.countedSize < 65536 := by decide
  exact short s there pes inside

theorem comesBack_iff_two :
    twoPackets.ComesBack {} ↔ twoPackets.descriptor.tag = 0 ∧ twoPackets.pcrPid ≠ 0 ∧
      ∀ s ∈ twoPackets.streams, ∀ pes ∈ s.packets, pes.ptsIndicator = true ∧ pes.Encodable ∧ pes.Bare :=
  comesBack_iff describable_twoPackets (pack_twoPackets {}) (by decide)

end TsStream
end Libts
