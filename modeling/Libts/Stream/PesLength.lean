import Libts.Stream.PesRoundTrip

/-!
# The length field of a PES

`ts_pes_pack_stream` computes the length in an `int` from the header size and the payload,
before it decides whether a header is written at all. So a PES without header carries a
length that is too large, and a payload of 2 GiB and more can pass for a short one. The
length is right in all other cases (`lengthHonest_iff`).
-/

namespace Libts
set_option autoImplicit false

open CArith

namespace TsPes

/-- An encoding with the length field `len`. -/
def encoding (p : TsPes) (len : Nat) : List UInt8 :=
  BigEndian.bytes 4 p.startWord ++ BigEndian.bytes 2 len ++ p.body

/-- The length field of what `packStream` appends to a buffer is the number of bytes behind
it; when that does not fit, a video stream leaves it open and others are refused. What is
not refused passes the decoder's check. -/
structure LengthHonest (p : TsPes) : Prop where
  short : p.body.length < 65536 → ∀ s : Bytestream, s.attached = true →
    (p.packStream s).1 = 1 ∧ (p.packStream s).2.store = s.store ++ p.encoding p.body.length
  video : 65536 ≤ p.body.length → p.isVideo = true → ∀ s : Bytestream, s.attached = true →
    (p.packStream s).1 = 1 ∧ (p.packStream s).2.store = s.store ++ p.encoding 0
  long : 65536 ≤ p.body.length → p.isVideo = false → ∀ s : Bytestream, s.attached = true →
    (p.packStream s).1 = -1
  readable : 1 ≤ p.body.length → ∀ s : Bytestream, s.attached = true → (p.packStream s).1 = 1 →
    ∃ encoded, (p.packStream s).2.store = s.store ++ encoded ∧
      ∀ t : Bytestream, t.Holds encoded → ¬ LengthRefused t

/-- The size that the length is computed from: header and payload, whether or not a header
is written. -/
def countedSize (p : TsPes) : Nat := p.headerSize + p.data.length

/-- A size that is at least 65536 as an `int`. -/
def Wide (size : Nat) : Prop := 65536 ≤ size % 2 ^ 32 ∧ size % 2 ^ 32 < 2 ^ 31

instance (size : Nat) : Decidable (Wide size) := inferInstanceAs (Decidable (_ ∧ _))

/-- The PES whose length is right. -/
def LengthFits (p : TsPes) : Prop :=
  p.hasHeader = true ∧ (p.countedSize < 65536 ∨ p.isVideo = true ∧ p.countedSize % 65536 = 0) ∨
    65536 ≤ p.body.length ∧ Wide p.countedSize

instance (p : TsPes) : Decidable p.LengthFits := inferInstanceAs (Decidable ((_ ∧ (_ ∨ _ ∧ _)) ∨ (_ ∧ _)))

section Outcome

variable {p : TsPes}

theorem wide_iff : intOfSize (p.headerSize + p.data.length) ≥ 65536 ↔ Wide p.countedSize :=
  intOfSize_ge_iff (m := 65536) (by decide) (by decide)

theorem settledLength_ge_iff : p.settledLength ≥ 65536 ↔ p.isVideo = false ∧ Wide p.countedSize := by
  unfold settledLength
  rw [← wide_iff]
  by_cases long : intOfSize (p.headerSize + p.data.length) ≥ 65536
  · cases video : p.isVideo <;> simp [long]
  · simp [long]

/-- The length field as it is written. -/
theorem settledLength_field :
    uint64OfInt p.settledLength % 2 ^ 16 = if p.isVideo ∧ Wide p.countedSize then 0 else p.countedSize % 2 ^ 16 := by
  unfold settledLength
  by_cases opened : p.isVideo ∧ Wide p.countedSize
  · rw [if_pos ⟨opened.1, wide_iff.2 opened.2⟩, if_pos opened]
    rfl
  · rw [if_neg (fun both => opened ⟨both.1, wide_iff.1 both.2⟩), if_neg opened]
    exact uint64OfInt_intOfSize_mod _

theorem three_le_headerSize (p : TsPes) : 3 ≤ p.headerSize := by
  unfold headerSize
  omega

theorem headerSize_le (p : TsPes) : p.headerSize ≤ 13 := by
  unfold headerSize
  split <;> split <;> omega

theorem length_body_eq : p.body.length = if p.hasHeader then p.countedSize else p.data.length := by
  rw [length_body]
  unfold countedSize
  split
  · rfl
  · omega

theorem isVideo_of_not_hasHeader (none : p.hasHeader = false) : p.isVideo = false := by
  simp only [hasHeader, Bool.and_eq_false_iff, bne_eq_false_iff_eq] at none
  rcases none with padding | private2
  · simp [isVideo, padding]
  · simp [isVideo, private2]

/-- What the encoder does, by the size it counts. -/
theorem packStream_cases (p : TsPes) {s : Bytestream} (attached : s.attached = true) :
    (p.isVideo = false ∧ Wide p.countedSize ∧ (p.packStream s).1 = -1) ∨
      ¬ (p.isVideo = false ∧ Wide p.countedSize) ∧ (p.packStream s).1 = 1 ∧
        (p.packStream s).2.store = s.store ++
          p.encoding (if p.isVideo ∧ Wide p.countedSize then 0 else p.countedSize) := by
  by_cases refused : p.settledLength ≥ 65536
  · left
    rw [packStream_eq attached, if_pos refused]
    have := settledLength_ge_iff.1 refused
    exact ⟨this.1, this.2, rfl⟩
  · right
    rw [packStream_eq attached, if_neg refused]
    refine ⟨fun both => refused (settledLength_ge_iff.2 both), rfl, ?_⟩
    have field : BigEndian.bytes 2 (uint64OfInt p.settledLength) =
        BigEndian.bytes 2 (if p.isVideo ∧ Wide p.countedSize then 0 else p.countedSize) := by
      rw [BigEndian.bytes_eq_iff, show 256 ^ 2 = 2 ^ 16 from rfl, settledLength_field]
      split
      · rfl
      · rfl
    rw [Bytestream.store_write attached, bytes, field]
    rfl

theorem encoding_eq_iff {k m : Nat} : p.encoding k = p.encoding m ↔ k % 65536 = m % 65536 := by
  unfold encoding
  rw [List.append_left_inj, List.append_right_inj]
  exact BigEndian.bytes_eq_iff

theorem not_wide_of_lt (short : p.countedSize < 65536) : ¬ Wide p.countedSize := by
  rintro ⟨wide, -⟩
  omega

end Outcome

/-- What was encoded with the length of its body, or as a video stream with an open length,
passes the decoder's check. -/
theorem not_lengthRefused {p : TsPes} {t : Bytestream} {len : Nat} (small : len < 65536) (h : t.Holds (p.encoding len))
    (honest : ¬ LengthWrong p.streamId len p.body.length) : ¬ LengthRefused t := by
  unfold encoding at h
  rw [List.append_assoc] at h
  exact (lengthRefused_start h small).not.2 honest

section Honest

variable {p : TsPes} (honest : p.LengthHonest)
include honest

/-- A long body that is not video is refused for the size that is counted. -/
theorem LengthHonest.wide (long : ¬ p.body.length < 65536) (notVideo : p.isVideo = false) : Wide p.countedSize := by
  have refused := honest.long (by omega) notVideo (Bytestream.constructBuffer []) rfl
  rcases packStream_cases p (s := Bytestream.constructBuffer []) rfl with ⟨-, wide, -⟩ | ⟨-, accepted, -⟩
  · exact wide
  · rw [refused] at accepted
    contradiction

/-- A length that is honest is that of a body that fits. -/
theorem LengthHonest.fits : p.LengthFits := by
  have header := three_le_headerSize p
  have most := headerSize_le p
  have length := length_body_eq (p := p)
  have written := packStream_cases p (s := Bytestream.constructBuffer []) rfl
  cases has : p.hasHeader
  · have notVideo := isVideo_of_not_hasHeader has
    rw [has, if_neg Bool.false_ne_true] at length
    by_cases short : p.body.length < 65536
    · -- the header is counted and not written
      exfalso
      obtain ⟨accepted, stored⟩ := honest.short short (Bytestream.constructBuffer []) rfl
      rcases written with ⟨-, -, refused⟩ | ⟨-, -, other⟩
      · rw [refused] at accepted
        contradiction
      · rw [other, notVideo, if_neg (by simp)] at stored
        have field := encoding_eq_iff.1 (List.append_cancel_left stored)
        unfold countedSize at field
        omega
    · right
      exact ⟨by omega, honest.wide short notVideo⟩
  · rw [has, if_pos rfl] at length
    by_cases short : p.body.length < 65536
    · exact Or.inl ⟨has, Or.inl (by omega)⟩
    · cases video : p.isVideo
      · right
        exact ⟨by omega, honest.wide short video⟩
      · by_cases wide : Wide p.countedSize
        · exact Or.inr ⟨by omega, wide⟩
        · obtain ⟨accepted, stored⟩ := honest.video (by omega) video (Bytestream.constructBuffer []) rfl
          rcases written with ⟨other, -, -⟩ | ⟨-, -, other⟩
          · rw [video] at other
            contradiction
          · rw [other, if_neg (fun both => wide both.2)] at stored
            exact Or.inl ⟨has, Or.inr ⟨video, encoding_eq_iff.1 (List.append_cancel_left stored)⟩⟩

end Honest

namespace LengthFits

variable {p : TsPes} (fits : p.LengthFits) {s : Bytestream} (attached : s.attached = true)
include fits attached

theorem short (short : p.body.length < 65536) :
    (p.packStream s).1 = 1 ∧ (p.packStream s).2.store = s.store ++ p.encoding p.body.length := by
  have counted : p.body.length = p.countedSize := by
    rcases fits with ⟨has, -⟩ | ⟨long, -⟩
    · rw [length_body_eq, if_pos has]
    · omega
  have narrow := not_wide_of_lt (counted ▸ short)
  rcases packStream_cases p attached with ⟨-, wide, -⟩ | ⟨-, accepted, stored⟩
  · exact absurd wide narrow
  · rw [if_neg (fun both => narrow both.2), ← counted] at stored
    exact ⟨accepted, stored⟩

theorem video (long : 65536 ≤ p.body.length) (video : p.isVideo = true) :
    (p.packStream s).1 = 1 ∧ (p.packStream s).2.store = s.store ++ p.encoding 0 := by
  rcases packStream_cases p attached with ⟨other, -⟩ | ⟨-, accepted, stored⟩
  · rw [video] at other
    contradiction
  · refine ⟨accepted, ?_⟩
    rw [stored, List.append_right_inj, encoding_eq_iff]
    split
    · rfl
    · rename_i narrow
      rcases fits with ⟨has, few | ⟨-, multiple⟩⟩ | ⟨-, wide⟩
      · rw [length_body_eq, if_pos has] at long
        omega
      · exact multiple
      · exact absurd ⟨video, wide⟩ narrow

theorem long (long : 65536 ≤ p.body.length) (notVideo : p.isVideo = false) : (p.packStream s).1 = -1 := by
  have wide : Wide p.countedSize := by
    rcases fits with ⟨has, few | ⟨video, -⟩⟩ | ⟨-, wide⟩
    · rw [length_body_eq, if_pos has] at long
      omega
    · rw [notVideo] at video
      contradiction
    · exact wide
  rcases packStream_cases p attached with ⟨-, -, refused⟩ | ⟨narrow, -⟩
  · exact refused
  · exact absurd ⟨notVideo, wide⟩ narrow

theorem readable (filled : 1 ≤ p.body.length) (accepted : (p.packStream s).1 = 1) :
    ∃ encoded, (p.packStream s).2.store = s.store ++ encoded ∧
      ∀ t : Bytestream, t.Holds encoded → ¬ LengthRefused t := by
  by_cases few : p.body.length < 65536
  · refine ⟨_, (fits.short attached few).2, fun t h => not_lengthRefused few h ?_⟩
    rintro (⟨-, zero⟩ | ⟨-, other⟩)
    · omega
    · exact other rfl
  · cases isVideo : p.isVideo
    · rw [fits.long attached (by omega) isVideo] at accepted
      contradiction
    · refine ⟨_, (fits.video attached (by omega) isVideo).2, fun t h => not_lengthRefused (by decide) h ?_⟩
      rintro (⟨other, -⟩ | ⟨other, -⟩)
      · rw [show ({ streamId := p.streamId } : TsPes).isVideo = p.isVideo from rfl, isVideo] at other
        contradiction
      · exact other rfl

end LengthFits

/-- **The length field is honest** exactly where the counted size is the size of the body and
fits, or is recognised as too long. -/
theorem lengthHonest_iff (p : TsPes) : p.LengthHonest ↔ p.LengthFits :=
  ⟨LengthHonest.fits, fun fits => ⟨fun few _ attached => fits.short attached few,
    fun long video _ attached => fits.video attached long video,
    fun long notVideo _ attached => fits.long attached long notVideo,
    fun filled _ attached accepted => fits.readable attached filled accepted⟩⟩

/-- Padding with one byte gets the length of a header that is not written. -/
theorem not_lengthHonest_padding : ¬ ({ streamId := 0xbe, data := [0] } : TsPes).LengthHonest := by
  intro honest
  have fits := honest.fits
  revert fits
  decide +kernel

end TsPes
end Libts
