import Libts.Stream.StreamRoundTrip

/-!
# Encoding a stream again

A stream that was encoded and decoded is encoded to the units it was decoded from
(`Describable.saved_reread`): the packets that were left out the first time are gone, those that
were written are written again, and the selection takes them in the order it took them.
-/

namespace Libts
set_option autoImplicit false

open CArith

namespace TsPes

/-- The packet as it is read back. -/
def kept (p : TsPes) : TsPes := { p.carried with randomAccessIndicator := p.randomAccessIndicator }

/-- What is read back is written as it was. -/
theorem packBuffer_kept (p : TsPes) (b : Buffer) : p.kept.packBuffer b = p.packBuffer b := rfl

/-- A packet of a size that is an `int`, and that was not refused, is within the limit. -/
theorem packable_of_packed {p : TsPes} (small : p.data.length < 2 ^ 31 - 13) (packed : (p.packBuffer []).1 = 1) :
    p.Packable := by
  obtain ⟨fits, -⟩ := packBuffer_eq packed
  rw [settledLength_ge_iff] at fits
  cases video : p.isVideo with
  | true => exact Or.inl video
  | false =>
    right
    have size : p.countedSize = p.headerSize + p.data.length := rfl
    have header : p.headerSize ≤ 13 := by
      unfold headerSize
      split <;> split <;> omega
    by_contra long
    refine fits ⟨video, ?_⟩
    unfold Wide
    omega

end TsPes

namespace TsStream

variable {ts : TsStream} {units out : TsUnits}

theorem toNat_wirePcrPid (ts : TsStream) : (if ts.reread.pcrPid ≠ 0 then BitVec.ofInt 13 ts.reread.pcrPid else 0x1fff) =
    if ts.pcrPid ≠ 0 then BitVec.ofInt 13 ts.pcrPid else (0x1fff : BitVec 13) := by
  by_cases set : ts.pcrPid ≠ 0
  · have same : ts.reread.pcrPid = ts.pcrPid := if_pos set
    rw [same]
  · have same : ts.reread.pcrPid = 0x1fff := if_neg set
    rw [same, if_neg set]
    rfl

/-- The map says the same about the stream that was read back, except for a descriptor of the program. -/
theorem pmt_reread (plain : ts.descriptor.Plain) (absent : ts.descriptor.tag = 0) : ts.reread.pmt = ts.pmt := by
  have none := plain.eq_default absent
  have streams : ts.reread.streams.map pmtStream = ts.streams.map pmtStream := by
    rw [reread, List.map_map]
    rfl
  simp only [pmt, toNat_wirePcrPid, streams, none]
  rfl

/-- The units of packets that are read back, under the same PIDs, are the same. -/
theorem emitted_map {ts ts' : TsStream} {g : Selected → Selected} (pcrRecorded : Bool) {cs : List Selected}
    (same : ∀ c ∈ cs, (g c).pesStream.pid = c.pesStream.pid ∧ (g c).pes = c.pes.kept ∧
      (ts'.pcrPid = c.pesStream.pid ↔ ts.pcrPid = c.pesStream.pid)) :
    ts'.emitted pcrRecorded (cs.map g) = ts.emitted pcrRecorded cs := by
  induction cs generalizing pcrRecorded with
  | nil => rfl
  | cons c cs ih =>
    obtain ⟨⟨pid, pes, clock⟩, later⟩ := List.forall_mem_cons.mp same
    have unit : ts'.pesUnit pcrRecorded (g c) = ts.pesUnit pcrRecorded c := by
      simp only [pesUnit, pid, pes, clock]
      rfl
    rw [List.map_cons, emitted, emitted, unit, ih _ later, pes, TsPes.packBuffer_kept]

/-- Lists that agree in a part that settles their items. -/
theorem eq_map_of_map_eq {α β : Type} {φ ψ : α → β} {g : α → α} {as bs : List α}
    (same : as.map φ = bs.map ψ) (settles : ∀ a ∈ as, ∀ b ∈ bs, φ a = ψ b → a = g b) : as = bs.map g := by
  induction as generalizing bs with
  | nil =>
    cases bs with
    | nil => rfl
    | cons b bs => cases same
  | cons a as ih =>
    cases bs with
    | nil => cases same
    | cons b bs =>
      rw [List.map_cons, List.map_cons, List.cons_eq_cons] at same
      rw [List.map_cons, settles a List.mem_cons_self b List.mem_cons_self same.1,
        ih same.2 fun a left b right => settles a (List.mem_cons_of_mem _ left) b (List.mem_cons_of_mem _ right)]

theorem Describable.reread (h : ts.Describable) : ts.reread.Describable := by
  have pids : ts.reread.streams.map TsStreamPes.pid = ts.streams.map TsStreamPes.pid := by
    rw [TsStream.reread, List.map_map]
    rfl
  refine ⟨h.programPid, ?_, fun _ => rfl, ?_, ?_, ?_⟩
  · by_cases set : ts.pcrPid ≠ 0
    · have same : ts.reread.pcrPid = ts.pcrPid := if_pos set
      rw [same]
      exact h.pcrPid
    · have same : ts.reread.pcrPid = 0x1fff := if_neg set
      rw [same]
      decide
  · rw [Distinct, pids]
    exact h.distinct
  · exact List.forall_mem_map.mpr h.pids
  · exact List.forall_mem_map.mpr h.descriptors

/-- What comes back of packets that the decoder restores. -/
theorem Describable.packets_reread (h : ts.Describable) (ok : (ts.pack units).map Prod.fst = some 1) {s : TsStreamPes}
    (there : s ∈ ts.streams)
    (written : ∀ pes ∈ s.packets.takeWhile TsPes.ptsIndicator, pes.Encodable ∧ pes.data.length < 2 ^ 31 - 13) :
    s.reread.packets = (s.packets.takeWhile TsPes.ptsIndicator).map TsPes.kept := by
  rw [TsStreamPes.reread, ← List.filterMap_eq_map]
  apply List.filterMap_congr
  intro pes member
  obtain ⟨encodable, small⟩ := written pes member
  exact encodable.reread small (h.packed_front ok there pes member)

/-- **Encoding again what was decoded gives the same units.** The program has no descriptor, no stream has the PID
that stands for no clock, and the packets that have their turn can be encoded. -/
theorem Describable.saved_reread (h : ts.Describable) (ok : (ts.pack units).map Prod.fst = some 1)
    (absent : ts.descriptor.tag = 0) (clock : ts.pcrPid ≠ 0 ∨ ∀ s ∈ ts.streams, s.pid ≠ 0x1fff)
    (written : ∀ s ∈ ts.streams, ∀ pes ∈ s.packets.takeWhile TsPes.ptsIndicator,
      pes.Encodable ∧ pes.data.length < 2 ^ 31 - 13) :
    (ts.reread.pack out).map Prod.fst = some 1 ∧ ts.reread.saved out = ts.saved units := by
  obtain ⟨chosen, saved, run, table, -⟩ := h.saved_run ok
  have pmt := pmt_reread h.descriptor absent
  -- what becomes of the packets that were taken
  have packets : ∀ s ∈ ts.streams, s.reread.packets = (s.packets.takeWhile TsPes.ptsIndicator).map TsPes.kept :=
    fun s there => h.packets_reread ok there (written s there)
  have queues : ts.reread.streams.map TsStreamPes.packets =
      ((ts.streams.map TsStreamPes.packets).map (List.takeWhile TsPes.ptsIndicator)).map (List.map TsPes.kept) := by
    rw [TsStream.reread, List.map_map, List.map_map, List.map_map]
    exact List.map_congr_left packets
  have fits := (h.saved_eq ok).1
  have ok' : (ts.reread.pack out).map Prod.fst = some 1 := by
    apply pack_ok (by have low := h.reread.programPid.1; omega) (by rw [pmt]; exact fits)
    apply packPesLoop_ok
    intro it member pes inside _
    obtain ⟨s', there', rfl⟩ := List.mem_map.mp member
    obtain ⟨s, there, rfl⟩ := List.mem_map.mp there'
    obtain ⟨p, front, rfl⟩ := List.mem_map.mp (packets s there ▸ inside)
    obtain ⟨-, small⟩ := written s there p front
    exact TsPes.packable_of_packed small (h.packed_front ok there p front)
  refine ⟨ok', ?_⟩
  obtain ⟨chosen', saved', run', table', -⟩ := h.reread.saved_run ok'
  have mapped : Selection.LeastRun TsPes.ptsIndicator TsStream.clock
      (((ts.streams.map TsStreamPes.packets).map (List.takeWhile TsPes.ptsIndicator)).map (List.map TsPes.kept))
      ((chosen.map fun c => (c.i, c.pes)).map fun t => (t.1, t.2.kept)) :=
    Selection.LeastRun.map (f := TsPes.kept) run.takeWhile
  rw [queues] at run'
  have same : (chosen'.map fun c => (c.i, c.pes)) = chosen.map fun c => (c.i, c.pes.kept) := by
    rw [run'.unique mapped, List.map_map]
    rfl
  have selected : chosen' = chosen.map fun c => ⟨c.i, c.pesStream.reread, c.pes.kept⟩ := by
    apply eq_map_of_map_eq same
    rintro ⟨i, pesStream, pes⟩ member' c member both
    obtain ⟨rfl, rfl⟩ := Prod.mk.inj both
    have there : ts.reread.streams[c.i]? = some pesStream := table' _ member'
    rw [TsStream.reread, List.getElem?_map, table c member] at there
    cases there
    rfl
  have units : ts.reread.emitted false chosen' = ts.emitted false chosen := by
    rw [selected]
    apply emitted_map
    intro c member
    obtain ⟨low, -, -⟩ := h.pids _ (List.mem_of_getElem? (table c member))
    refine ⟨rfl, rfl, ?_⟩
    by_cases set : ts.pcrPid ≠ 0
    · have same : ts.reread.pcrPid = ts.pcrPid := if_pos set
      rw [same]
    · have same : ts.reread.pcrPid = 0x1fff := if_neg set
      have apart := (clock.resolve_left set) _ (List.mem_of_getElem? (table c member))
      rw [same, not_not.mp set]
      constructor
      · exact fun here => absurd here.symm apart
      · intro here
        omega
  rw [saved', saved, units, pmtUnit, pmtUnit, pmt]
  rfl

end TsStream
end Libts
