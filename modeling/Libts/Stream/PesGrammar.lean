import Libts.Stream.PesRoundTrip

/-!
# Which units are a PES

The conditions on a unit are spread over the decoder, which leaves the shortage of bytes to
the stream it reads. Collected, they are `Framed`: lengths and a few bytes at fixed places. A
unit that meets them says `wire`, whose payload is a suffix of the unit, and a unit that
does not is refused at some point (`unpackStream_iff`).
-/

namespace Libts
set_option autoImplicit false

open CArith

namespace TsPes

/-! ## Units -/

/-- Byte `k` of a unit, 0 behind its end. -/
def octet (u : List UInt8) (k : Nat) : Nat := (u.getD k 0).toNat

/-- The 16 bits behind the start code and the stream identifier. -/
def lengthField (u : List UInt8) : Nat := octet u 4 * 256 + octet u 5

/-- Padding and private stream 2 have no header. -/
def Headed (u : List UInt8) : Prop := octet u 3 ≠ 0xbe ∧ octet u 3 ≠ 0xbf

instance (u : List UInt8) : Decidable (Headed u) := inferInstanceAs (Decidable (_ ∧ _))

/-- The indicator of the presentation time. -/
def ptsBit (u : List UInt8) : Bool := (octet u 7).testBit 7

/-- The indicator of the decoding time. -/
def dtsBit (u : List UInt8) : Bool := (octet u 7).testBit 6

/-- The length of the header behind byte 8. -/
def headerDataLength (u : List UInt8) : Nat := octet u 8

/-- The 33 bits in the five bytes of a time stamp, three and twice fifteen of them in front of a
marker bit. -/
def clock (u : List UInt8) (k : Nat) : Nat :=
  (octet u k / 2 % 8 * 2 ^ 15 + (octet u (k + 1) * 256 + octet u (k + 2)) / 2) * 2 ^ 15 +
    (octet u (k + 3) * 256 + octet u (k + 4)) / 2

/-- The header of a PES is marked, is in the unit and has room for the time stamps it announces. -/
structure Filled (u : List UInt8) : Prop where
  fixed : 9 ≤ u.length
  marker : octet u 6 / 64 = 2
  stamps : 5 * ((ptsBit u).toNat + (dtsBit u).toNat) ≤ headerDataLength u
  header : 9 + headerDataLength u ≤ u.length

/-- The units that are a PES. -/
structure Framed (u : List UInt8) : Prop where
  prefixed : 6 ≤ u.length
  start : u.take 3 = [0, 0, 1]
  length : lengthField u = 0 ∧ 0xe0 ≤ octet u 3 ∧ octet u 3 < 0xf0 ∨
    lengthField u = u.length - 6 ∧ lengthField u ≠ 0
  filled : Headed u → Filled u

/-- Where the payload of a unit starts. -/
def payloadStart (u : List UInt8) : Nat := if Headed u then 9 + headerDataLength u else 6

/-- What a unit says. -/
def wire (u : List UInt8) : TsPes :=
  if Headed u then
    { streamId := u.getD 3 0
      scramblingControl := BitVec.ofNat 2 (octet u 6 / 16)
      priority := (octet u 6).testBit 3
      dataAlignmentIndicator := (octet u 6).testBit 2
      copyright := (octet u 6).testBit 1
      originalOrCopy := (octet u 6).testBit 0
      ptsIndicator := ptsBit u
      dtsIndicator := dtsBit u
      pts := if ptsBit u then BitVec.ofNat 64 (clock u 9) else 0
      dts := if dtsBit u then BitVec.ofNat 64 (clock u (9 + 5 * (ptsBit u).toNat)) else 0
      data := u.drop (9 + headerDataLength u) }
  else { streamId := u.getD 3 0, data := u.drop 6 }

theorem octet_lt (u : List UInt8) (k : Nat) : octet u k < 256 := (u.getD k 0).toNat_lt

theorem octet_drop (u : List UInt8) (n k : Nat) : octet (u.drop n) k = octet u (n + k) := by
  simp only [octet, List.getD_eq_getElem?_getD, List.getElem?_drop]

theorem clock_drop (u : List UInt8) (n k : Nat) : clock (u.drop n) k = clock u (n + k) := by
  simp only [clock, octet_drop, Nat.add_assoc]

theorem clock_lt (u : List UInt8) (k : Nat) : clock u k < 2 ^ 33 := by
  have b := octet_lt u (k + 1)
  have c := octet_lt u (k + 2)
  have d := octet_lt u (k + 3)
  have e := octet_lt u (k + 4)
  unfold clock
  omega

/-! ## Time stamps -/

theorem exists_five {l : List UInt8} (enough : 5 ≤ l.length) :
    ∃ a b c d e rest, l = a :: b :: c :: d :: e :: rest := by
  rcases l with _ | ⟨a, _ | ⟨b, _ | ⟨c, _ | ⟨d, _ | ⟨e, rest⟩⟩⟩⟩⟩
  case cons.cons.cons.cons.cons => exact ⟨a, b, c, d, e, rest, rfl⟩
  all_goals simp at enough

section Header

variable {s : Bytestream} {l : List UInt8}

/-- Three pieces of 3, 15 and 15 bits in a row. -/
theorem pieces_add (x y z : Nat) :
    ((BitVec.ofNat 64 x <<< 15) + BitVec.ofNat 64 y) <<< 15 + BitVec.ofNat 64 z =
      BitVec.ofNat 64 ((x * 2 ^ 15 + y) * 2 ^ 15 + z) := by
  apply BitVec.eq_of_toNat_eq
  simp only [BitVec.toNat_add, BitVec.toNat_shiftLeft, BitVec.toNat_ofNat, Nat.shiftLeft_eq]
  omega

/-- Five bytes that are there are a time stamp. -/
theorem tsUnpack_clock (h : s.Holds l) (enough : 5 ≤ l.length) :
    tsUnpack s = (1, BitVec.ofNat 64 (clock l 0), s.skip 5) := by
  obtain ⟨a, b, c, d, e, rest, rfl⟩ := exists_five enough
  have h1 := h.skip_cons
  have h3 := h1.skip_append (a := [b, c]) (n := 2) rfl
  have h5 := h3.skip_append (a := [d, e]) (n := 2) rfl
  rw [Bytestream.skip_skip] at h3 h5
  rw [Bytestream.skip_skip] at h5
  have head : readBits a.toNat 8 4 3 = a.toNat / 2 % 8 := readBits_div (by decide)
  have word : ∀ v w : UInt8, readBits (v.toNat * 256 + w.toNat) 16 0 15 = (v.toNat * 256 + w.toNat) / 2 := by
    intro v w
    have high := v.toNat_lt
    have low := w.toNat_lt
    rw [readBits_div (by decide)]
    omega
  simp only [tsUnpack, h.read8, h1.read16, Bytestream.skip_skip, h3.read16, h5.result, head, word, pieces_add]
  rfl

/-- A time stamp that is asked for takes five bytes, and five of the header length. -/
theorem unpackTimestamp_fits {wanted : Bool} {len : Nat} (old : BitVec 64) (h : s.Holds l)
    (room : 5 * wanted.toNat ≤ len) (enough : 5 * wanted.toNat ≤ l.length) :
    unpackTimestamp wanted old len s =
      (1, if wanted then BitVec.ofNat 64 (clock l 0) else old, len - 5 * wanted.toNat, s.skip (5 * wanted.toNat)) := by
  cases wanted
  · simp [unpackTimestamp, h.skip_zero]
  · have valid := (h.skip enough).isValid
    have long : ¬ len < 5 := Nat.not_lt.mpr room
    rw [Bool.toNat_true, Nat.mul_one] at enough valid
    simp [unpackTimestamp, tsUnpack_clock h enough, valid, long]

/-- A time stamp is read only where it fits. -/
theorem fits_of_unpackTimestamp {wanted : Bool} {old : BitVec 64} {len : Nat} (h : s.Holds l)
    (read : ¬ (unpackTimestamp wanted old len s).1 = -1) :
    5 * wanted.toNat ≤ len ∧ 5 * wanted.toNat ≤ l.length := by
  cases wanted
  · exact ⟨Nat.zero_le _, Nat.zero_le _⟩
  · have later : (tsUnpack s).2.2 = s.skip 5 := by
      simp only [tsUnpack, Bytestream.read8, Bytestream.read16, Bytestream.skip_skip]
    simp only [unpackTimestamp, if_pos] at read
    split at read
    · exact absurd rfl read
    · rename_i fine
      simp only [later, not_or, Bool.not_eq_true, Bool.not_eq_false', Bytestream.valid_skip] at fine
      obtain ⟨-, room, enough, -⟩ := fine
      rw [h.sizeEq] at enough
      exact ⟨by simpa using room, by simpa using enough⟩

/-! ## The header -/

theorem flag_readBits (v size offset : Nat) :
    flag (readBits v size offset 1) = v.testBit (size - offset - 1) := by
  rw [readBits_div (by decide), flag, Nat.testBit_eq_decide_div_mod_eq, Nat.mod_mod_of_dvd _ (by decide)]
  rfl

/-- The fields of a header in its first two bytes. -/
theorem setFlags_octets (p : TsPes) (a : Nat) {b : Nat} (low : b < 256) : p.setFlags (a * 256 + b) =
    { p with
      scramblingControl := BitVec.ofNat 2 (a / 16)
      priority := a.testBit 3
      dataAlignmentIndicator := a.testBit 2
      copyright := a.testBit 1
      originalOrCopy := a.testBit 0
      ptsIndicator := b.testBit 7
      dtsIndicator := b.testBit 6 } := by
  have scrambling : readBits (a * 256 + b) 16 2 2 = a / 16 % 4 := by
    rw [readBits_div (by decide)]
    omega
  have bit : ∀ k, flag (readBits (a * 256 + b) 16 k 1) =
      if 16 - k - 1 < 8 then b.testBit (16 - k - 1) else a.testBit (16 - k - 1 - 8) := by
    intro k
    rw [flag_readBits, Nat.mul_comm, Nat.testBit_two_pow_mul_add (i := 8) _ low]
  have two : BitVec.ofNat 2 (a / 16 % 4) = BitVec.ofNat 2 (a / 16) := by
    apply BitVec.eq_of_toNat_eq
    simp
  unfold setFlags
  simp only [scrambling, bit, two]
  rfl

theorem unpackTimestamp_later {t : Bytestream} {n : Nat} (far : s.Later n t) (wanted : Bool) (time : BitVec 64)
    (len : Nat) : s.Later n (unpackTimestamp wanted time len t).2.2.2 := by
  unfold unpackTimestamp
  split
  · have read : s.Later n (tsUnpack t).2.2 := ((far.skip 1).skip 2).skip 2
    simp only
    split <;> exact read
  · exact far

/-- A header takes at least its fixed part. -/
theorem unpackHeader_later (p : TsPes) (s : Bytestream) (read : ¬ (p.unpackHeader s).1 = -1) :
    s.Later 3 (p.unpackHeader s).2.2 := by
  simp only [unpackHeader] at read ⊢
  split at read
  · exact absurd rfl read
  · rename_i marker
    rw [if_neg marker]
    split at read
    · exact absurd rfl read
    · rename_i pts
      rw [if_neg pts]
      split at read
      · exact absurd rfl read
      · rename_i dts
        rw [if_neg dts]
        have start := (s.later_skip 2).step 1
        exact (unpackTimestamp_later (unpackTimestamp_later start _ _ _) _ _ _).skip _

theorem read16_octets (h : s.Holds l) (enough : 2 ≤ l.length) :
    s.read16 = (octet l 0 * 256 + octet l 1, s.skip 2) := by
  obtain ⟨a, b, rest, rfl⟩ : ∃ a b rest, l = a :: b :: rest := by
    rcases l with _ | ⟨a, _ | ⟨b, rest⟩⟩
    case cons.cons => exact ⟨a, b, rest, rfl⟩
    all_goals simp at enough
  exact h.read16

theorem marker_octets (u : List UInt8) : readBits (octet u 6 * 256 + octet u 7) 16 0 2 = octet u 6 / 64 := by
  have high := octet_lt u 6
  have low := octet_lt u 7
  rw [readBits_div (by decide)]
  omega

/-- The flags of a unit. -/
theorem setFlags_wire {u : List UInt8} (headed : Headed u) :
    ({ streamId := u.getD 3 0 } : TsPes).setFlags (octet u 6 * 256 + octet u 7) =
      { wire u with pts := 0, dts := 0, data := [] } := by
  rw [setFlags_octets _ _ (octet_lt u 7), wire, if_pos headed]
  rfl

theorem wire_streamId (u : List UInt8) : (wire u).streamId = u.getD 3 0 := by
  unfold wire
  split <;> rfl

theorem wire_ptsIndicator {u : List UInt8} (headed : Headed u) : (wire u).ptsIndicator = ptsBit u := by
  rw [wire, if_pos headed]

theorem wire_dtsIndicator {u : List UInt8} (headed : Headed u) : (wire u).dtsIndicator = dtsBit u := by
  rw [wire, if_pos headed]

variable {u : List UInt8} (h : s.Holds (u.drop 6))
include h

/-- The length of the header, as the decoder reads it. -/
theorem read8_headerDataLength : (s.skip 2).read8 = (headerDataLength u, s.skip 3) := by
  rw [h.read8_getD]
  exact congrArg (·, s.skip 3) (octet_drop u 6 2)

variable (fixed : 9 ≤ u.length)
include fixed

/-- The flags, as the decoder reads them. -/
theorem read16_flags : s.read16 = (octet u 6 * 256 + octet u 7, s.skip 2) := by
  have enough : 2 ≤ (u.drop 6).length := by
    rw [List.length_drop]
    omega
  rw [read16_octets h enough, octet_drop, octet_drop]

/-- Behind the fixed part of the header. -/
theorem holds_stamps : (s.skip 3).Holds (u.drop 9) := by
  have enough : 3 ≤ (u.drop 6).length := by
    rw [List.length_drop]
    omega
  have behind := h.skip enough
  rwa [List.drop_drop] at behind

/-- A header whose time stamps are there and inside its length. -/
theorem unpackHeader_fits (headed : Headed u) (marker : octet u 6 / 64 = 2)
    (room : 5 * ((ptsBit u).toNat + (dtsBit u).toNat) ≤ headerDataLength u)
    (enough : 9 + 5 * ((ptsBit u).toNat + (dtsBit u).toNat) ≤ u.length) :
    ({ streamId := u.getD 3 0 } : TsPes).unpackHeader s =
      (1, { wire u with data := [] }, s.skip (3 + headerDataLength u)) := by
  have behind := holds_stamps h fixed
  have first : 5 * (ptsBit u).toNat ≤ (u.drop 9).length := by
    rw [List.length_drop]
    omega
  have next := behind.skip first
  rw [List.drop_drop, Bytestream.skip_skip] at next
  have second : 5 * (dtsBit u).toNat ≤ (u.drop (9 + 5 * (ptsBit u).toNat)).length := by
    rw [List.length_drop]
    omega
  have pts : unpackTimestamp (ptsBit u) 0 (headerDataLength u) (s.skip 3) = _ :=
    unpackTimestamp_fits 0 behind (by omega) first
  have dts : unpackTimestamp (dtsBit u) 0 (headerDataLength u - 5 * (ptsBit u).toNat)
      (s.skip (3 + 5 * (ptsBit u).toNat)) = _ := unpackTimestamp_fits 0 next (by omega) second
  have good : ¬ octet u 6 / 64 ≠ 2 := not_not_intro marker
  have accepted : ¬ (1 : Int) = -1 := by decide
  have whole : 3 + 5 * (ptsBit u).toNat + 5 * (dtsBit u).toNat +
      (headerDataLength u - 5 * (ptsBit u).toNat - 5 * (dtsBit u).toNat) = 3 + headerDataLength u := by omega
  rw [clock_drop, Nat.add_zero] at pts dts
  simp only [unpackHeader, read16_flags h fixed, marker_octets, if_neg good, setFlags_wire headed,
    read8_headerDataLength h, wire_ptsIndicator headed, wire_dtsIndicator headed, pts, dts, if_neg accepted,
    Bytestream.skip_skip, whole]
  rw [wire, if_pos headed]

/-- A header is read only when it is marked, and its time stamps are inside its length and inside
the unit. -/
theorem fits_of_unpackHeader (headed : Headed u)
    (read : ¬ (({ streamId := u.getD 3 0 } : TsPes).unpackHeader s).1 = -1) :
    octet u 6 / 64 = 2 ∧ 5 * ((ptsBit u).toNat + (dtsBit u).toNat) ≤ headerDataLength u ∧
      9 + 5 * ((ptsBit u).toNat + (dtsBit u).toNat) ≤ u.length := by
  have behind := holds_stamps h fixed
  simp only [unpackHeader, read16_flags h fixed, marker_octets, setFlags_wire headed, read8_headerDataLength h,
    wire_ptsIndicator headed, wire_dtsIndicator headed] at read
  split at read
  · exact absurd rfl read
  · rename_i marker
    split at read
    · exact absurd rfl read
    · rename_i ptsRead
      obtain ⟨room, inside⟩ := fits_of_unpackTimestamp behind ptsRead
      simp only [unpackTimestamp_fits _ behind room inside] at read
      by_cases dtsRead : (unpackTimestamp (dtsBit u) 0 (headerDataLength u - 5 * (ptsBit u).toNat)
          ((s.skip 3).skip (5 * (ptsBit u).toNat))).1 = -1
      · rw [if_pos dtsRead] at read
        exact absurd rfl read
      · obtain ⟨room', inside'⟩ := fits_of_unpackTimestamp (behind.skip inside) dtsRead
        simp only [List.length_drop] at inside inside'
        exact ⟨not_not.mp marker, by omega, by omega⟩

end Header

/-! ## The unit -/

section Unit

variable {s : Bytestream} {u : List UInt8}

theorem hasHeader_iff : ({ streamId := u.getD 3 0 } : TsPes).hasHeader = true ↔ Headed u := by
  simp [hasHeader, Headed, octet, ← UInt8.toNat_inj]

theorem isVideo_iff : ({ streamId := u.getD 3 0 } : TsPes).isVideo = true ↔ 0xe0 ≤ octet u 3 ∧ octet u 3 < 0xf0 := by
  simp [isVideo, octet, UInt8.le_iff_toNat_le, UInt8.lt_iff_toNat_lt]

/-- The decoder does not find out on an empty stream that it is a header. -/
theorem unpackBody_invalid {q : TsPes} (invalid : s.valid = false) : (q.unpackBody s).1 = -1 := by
  have short : s.short 2 = true := Bytestream.short_iff.2 (Or.inr invalid)
  have zero : s.read16.1 = 0 := by rw [Bytestream.read16, Bytestream.peek, if_pos short, BigEndian.value_replicate_zero]
  have unmarked : readBits 0 16 0 2 ≠ 0x02 := by decide
  have unread : (q.unpackHeader s).1 = -1 := by
    simp only [unpackHeader, zero, if_pos unmarked]
  by_cases header : q.hasHeader = true
  · simp only [unpackBody, if_pos header, unread, true_or, if_true]
  · simp [unpackBody, header, invalid]

variable (h : s.Holds (u.drop 6)) (prefixed : 6 ≤ u.length)
include h prefixed

theorem filled_of_unpackHeader (headed : Headed u)
    (accepted : ¬ (({ streamId := u.getD 3 0 } : TsPes).unpackHeader s).1 = -1)
    (valid : (({ streamId := u.getD 3 0 } : TsPes).unpackHeader s).2.2.valid = true) : Filled u := by
  have fixed : 9 ≤ u.length := by
    obtain ⟨k, far, moved⟩ := unpackHeader_later _ s accepted
    rw [moved, Bytestream.valid_skip, h.sizeEq, List.length_drop] at valid
    omega
  obtain ⟨marker, room, enough⟩ := fits_of_unpackHeader h fixed headed accepted
  rw [unpackHeader_fits h fixed headed marker room enough, Bytestream.valid_skip, h.sizeEq, List.length_drop] at valid
  exact ⟨fixed, marker, room, by omega⟩

/-- What is accepted behind the length field. -/
theorem unpackBody_iff {t : Bytestream} {p : TsPes} :
    ({ streamId := u.getD 3 0 } : TsPes).unpackBody s = (1, p, t) ↔
      (Headed u → Filled u) ∧ p = wire u ∧ t = s.skip (payloadStart u - 6) := by
  by_cases headed : Headed u
  · have start : payloadStart u - 6 = 3 + headerDataLength u := by
      rw [payloadStart, if_pos headed]
      omega
    have filled : ¬ ((({ streamId := u.getD 3 0 } : TsPes).unpackHeader s).1 = -1 ∨
        (!(({ streamId := u.getD 3 0 } : TsPes).unpackHeader s).2.2.valid) = true) → Filled u := by
      intro fine
      obtain ⟨accepted, valid⟩ := not_or.mp fine
      rw [Bool.not_eq_true, Bool.not_eq_false'] at valid
      exact filled_of_unpackHeader h prefixed headed accepted valid
    have decoded : Filled u → ({ streamId := u.getD 3 0 } : TsPes).unpackBody s =
        (1, wire u, s.skip (3 + headerDataLength u)) := by
      rintro ⟨fixed, marker, room, header⟩
      have inside : 3 + headerDataLength u ≤ (u.drop 6).length := by
        rw [List.length_drop]
        omega
      have behind := h.skip inside
      rw [List.drop_drop, ← Nat.add_assoc] at behind
      have valid : ¬ ((1 : Int) = -1 ∨ (!(s.skip (3 + headerDataLength u)).valid) = true) := by
        rw [behind.isValid]
        decide
      simp only [unpackBody, if_pos (hasHeader_iff.2 headed), unpackHeader_fits h fixed headed marker room (by omega),
        if_neg valid, behind.rest, wire, if_pos headed]
    rw [start]
    constructor
    · intro accepted
      have there : Filled u := by
        apply filled
        intro refused
        simp only [unpackBody, if_pos (hasHeader_iff.2 headed), if_pos refused] at accepted
        cases accepted
      rw [decoded there] at accepted
      cases accepted
      exact ⟨fun _ => there, rfl, rfl⟩
    · rintro ⟨there, rfl, rfl⟩
      exact decoded (there headed)
  · have start : payloadStart u = 6 := if_neg headed
    have plain : ¬ ({ streamId := u.getD 3 0 } : TsPes).hasHeader = true := hasHeader_iff.not.2 headed
    have valid : ¬ ((1 : Int) = -1 ∨ (!s.valid) = true) := by
      rw [h.isValid]
      decide
    have decoded : ({ streamId := u.getD 3 0 } : TsPes).unpackBody s = (1, wire u, s) := by
      simp only [unpackBody, if_neg plain, if_neg valid, h.rest, wire, if_neg headed]
    rw [start, Nat.sub_self, h.skip_zero, decoded]
    constructor
    · intro accepted
      cases accepted
      exact ⟨fun there => absurd there headed, rfl, rfl⟩
    · rintro ⟨-, rfl, rfl⟩
      rfl

end Unit

section Start

variable {s : Bytestream} {u : List UInt8} (h : s.Holds u)
include h

/-- The start code and the stream identifier, as the decoder reads them. -/
theorem start_octets (enough : 4 ≤ u.length) :
    (readBits (uint64OfInt (intOfSize s.read32.1)) 32 0 24 = 1 ↔ u.take 3 = [0, 0, 1]) ∧
      readStreamId s = u.getD 3 0 := by
  obtain ⟨a, b, c, d, rest, rfl⟩ : ∃ a b c d rest, u = a :: b :: c :: d :: rest := by
    rcases u with _ | ⟨a, _ | ⟨b, _ | ⟨c, _ | ⟨d, rest⟩⟩⟩⟩
    case cons.cons.cons.cons => exact ⟨a, b, c, d, rest, rfl⟩
    all_goals simp at enough
  have ha := a.toNat_lt
  have hb := b.toNat_lt
  have hc := c.toNat_lt
  have hd := d.toNat_lt
  have word : s.read32.1 = ((a.toNat * 256 + b.toNat) * 256 + c.toNat) * 256 + d.toNat := by
    have bytes : s.peek 4 = [a, b, c, d] := Bytestream.Holds.peek_append (a := [a, b, c, d]) h rfl
    rw [Bytestream.read32, bytes]
    simp only [BigEndian.value, List.length_cons, List.length_nil]
    omega
  have small : s.read32.1 < 2 ^ 32 := by
    rw [word]
    omega
  constructor
  · rw [readBits_int small (by decide) (by decide), readBits_div (by decide), word]
    simp only [List.take_succ_cons, List.take_zero, List.cons.injEq, ← UInt8.toNat_inj, and_true]
    have zero : (0 : UInt8).toNat = 0 := rfl
    have one : (1 : UInt8).toNat = 1 := rfl
    rw [zero, one]
    omega
  · rw [readStreamId, readBits_int small (by decide) (by decide), readBits_div (by decide), word]
    apply UInt8.toNat_inj.mp
    simp

variable (prefixed : 6 ≤ u.length)
include prefixed

theorem lengthRefused_iff : ¬ LengthRefused s ↔ lengthField u = 0 ∧ 0xe0 ≤ octet u 3 ∧ octet u 3 < 0xf0 ∨
    lengthField u = u.length - 6 ∧ lengthField u ≠ 0 := by
  have behind : (s.skip 4).Holds (u.drop 4) := h.skip (by omega)
  have two : 2 ≤ (u.drop 4).length := by
    rw [List.length_drop]
    omega
  have field : (s.skip 4).read16.1 = lengthField u := by
    rw [read16_octets behind two, octet_drop, octet_drop]
    rfl
  rw [LengthRefused, LengthWrong, field, (start_octets h (by omega)).2, h.size_skip, ← isVideo_iff]
  cases ({ streamId := u.getD 3 0 } : TsPes).isVideo <;> simp <;> omega

end Start

/-- A unit is accepted exactly when it is a PES. -/
theorem unpackStream_iff {s t : Bytestream} {u : List UInt8} {p : TsPes} (h : s.Holds u) :
    construct.unpackStream s = (1, p, t) ↔ Framed u ∧ p = wire u ∧ t = s.skip (payloadStart u) := by
  rw [unpackStream_eq]
  by_cases prefixed : 6 ≤ u.length
  · obtain ⟨start, streamId⟩ := start_octets h (by omega)
    have length := lengthRefused_iff h prefixed
    have body := unpackBody_iff (t := t) (p := p) (h.skip prefixed) prefixed
    have place : 6 + (payloadStart u - 6) = payloadStart u := by
      unfold payloadStart
      split <;> omega
    rw [Bytestream.skip_skip, place] at body
    by_cases started : u.take 3 = [0, 0, 1]
    · rw [if_neg (not_not_intro (start.2 started)), streamId]
      by_cases refused : LengthRefused s
      · rw [if_pos refused]
        constructor
        · intro accepted
          cases accepted
        · rintro ⟨framed, -⟩
          exact absurd refused (length.2 framed.length)
      · rw [if_neg refused]
        have same : ({ construct with streamId := u.getD 3 0 } : TsPes) = { streamId := u.getD 3 0 } := rfl
        rw [same, body]
        constructor
        · rintro ⟨filled, rest⟩
          exact ⟨⟨prefixed, started, length.1 refused, filled⟩, rest⟩
        · rintro ⟨framed, rest⟩
          exact ⟨framed.filled, rest⟩
    · rw [if_pos (start.not.2 started)]
      constructor
      · intro accepted
        cases accepted
      · rintro ⟨framed, -⟩
        exact absurd framed.start started
  · have invalid : (s.skip 6).valid = false := by
      rw [h.skip_short (by omega)]
      rfl
    constructor
    · intro accepted
      split at accepted
      · cases accepted
      · split at accepted
        · cases accepted
        · have refused := unpackBody_invalid (q := { construct with streamId := readStreamId s }) invalid
          rw [accepted] at refused
          contradiction
    · rintro ⟨framed, -⟩
      exact absurd framed.prefixed prefixed

/-- A buffer that is accepted is a PES. -/
theorem unpackBuffer_framed {u : Buffer} {p : TsPes} :
    construct.unpackBuffer u = (1, p) ↔ Framed u ∧ p = wire u := by
  obtain rfl | nonempty := eq_or_ne u []
  · constructor
    · intro accepted
      cases accepted
    · rintro ⟨framed, -⟩
      exact absurd framed.prefixed (by decide)
  · have decoded := fun t => unpackStream_iff (t := t) (p := p) (Bytestream.holds_constructBuffer nonempty)
    constructor
    · intro accepted
      have result : (construct.unpackStream (Bytestream.constructBuffer u)).1 = 1 := by
        rw [show (1 : Int) = (construct.unpackBuffer u).1 by rw [accepted]]
        rfl
      have read : (construct.unpackStream (Bytestream.constructBuffer u)).2.1 = p := by
        rw [show p = (construct.unpackBuffer u).2 by rw [accepted]]
        rfl
      obtain ⟨framed, value, -⟩ := (decoded _).1 (Prod.ext result (Prod.ext read rfl))
      exact ⟨framed, value⟩
    · rintro ⟨framed, value⟩
      have accepted := (decoded _).2 ⟨framed, value, rfl⟩
      rw [unpackBuffer, accepted]

/-- **The units that are accepted are the PES**, and what they are decoded to is what their bytes
say: the payload is the suffix behind the header, and a time stamp its 33 bits. -/
theorem unpackBuffer_eq_one_iff (u : Buffer) (p : TsPes) :
    construct.unpackBuffer u = (1, p) ↔ Framed u ∧ p = wire u ∧ p.data = u.drop (payloadStart u) := by
  rw [unpackBuffer_framed]
  constructor
  · rintro ⟨framed, rfl⟩
    refine ⟨framed, rfl, ?_⟩
    unfold wire payloadStart
    split <;> rfl
  · rintro ⟨framed, value, -⟩
    exact ⟨framed, value⟩

end TsPes
end Libts
