import Mathlib.Algebra.Order.Floor.Div
import Mathlib.Order.Bounds.Defs
import ShortMessage.Proofs.Segment.Room

/-!
# Parts on the wire

The capacity of a part counts units, and what limits a part are octets.  On the wire septets are
packed, and they start at the first septet boundary behind the header.

* `wireOctets`: the octets that a header takes with units behind it;
* `wireOctets_le_iff`: the units that fit behind a header are those within the capacity;
* `FitsWire`: a part that fits with its header;
* `fitsWire_of_text`, `fitsWire_of_data`: the parts of a message fit;
* `capacity_exact`: capacity is the greatest number of units that fit.
-/

namespace ShortMessage

/-- **The octets on the wire** of a header and the units behind it.  Seven bits for each septet, the
header being filled up to whole septets, and eight for each octet. -/
def wireOctets (e : Encoding) (header units : Nat) : Nat :=
  match e with
  | .gsm7 => (7 * (8 * header ⌈/⌉ 7 + units)) ⌈/⌉ 8
  | .ucs2 => header + 2 * units
  | .binary => header + units

/-- The octets that a payload keeps for each of its units; septets are not packed there. -/
def octetsPerUnit : Encoding → Nat
  | .gsm7 | .binary => 1
  | .ucs2 => 2

theorem header_le_wireOctets (e : Encoding) (header units : Nat) :
    header ≤ wireOctets e header units := by
  cases e with
  | gsm7 =>
    have hseptets : 8 * header ≤ 7 * (8 * header ⌈/⌉ 7) :=
      (ceilDiv_le_iff_le_mul (by decide)).1 (Nat.le_refl _)
    have hoctets : 7 * (8 * header ⌈/⌉ 7 + units) ≤ 8 * wireOctets .gsm7 header units :=
      (ceilDiv_le_iff_le_mul (by decide)).1 (Nat.le_refl _)
    omega
  | ucs2 => exact Nat.le_add_right header _
  | binary => exact Nat.le_add_right header _

theorem unitLength_pos (e : Encoding) (c : Char) : 0 < unitLength e c := by
  rcases unitLength_cases e c with ⟨hlen, -⟩ | ⟨hlen, -⟩ <;> omega

theorem textLength_pos {text : List Char} (e : Encoding) (hne : text ≠ []) :
    0 < textLength e text := by
  cases text with
  | nil => exact absurd rfl hne
  | cons c cs => exact Nat.add_pos_left (unitLength_pos e c) _

theorem length_encodeText {e : Encoding} {text : List Char} (he : e ≠ .binary)
    (h : Spells e text) : (encodeText e text).length = octetsPerUnit e * textLength e text := by
  rw [textLength_eq]
  cases e with
  | gsm7 =>
    rw [octetsPerUnit, Nat.one_mul]
    exact (encodeText_spells h).2
  | ucs2 => exact Utf16.length_encode text
  | binary => exact absurd rfl he

theorem spells_of_mem_flatten {text piece : List Char} {texts : List (List Char)}
    (hflat : texts.flatten = text) (hpiece : piece ∈ texts) :
    Spells (detectEncoding text) piece := by
  intro he c hc
  refine (detectEncoding_eq_gsm7_iff text).1 he c ?_
  rw [← hflat]
  exact List.mem_flatten_of_mem hpiece hc

namespace SegmentLimits

variable {l : SegmentLimits}

/-! ### Capacity -/

/-- The header that stands before the units of a part.  Data has the one that addresses a port. -/
def header (l : SegmentLimits) (e : Encoding) (multipart : Bool) : Nat :=
  match e with
  | .gsm7 | .ucs2 => if multipart then l.concatHeader else 0
  | .binary => l.portHeader

/-- The septets of a part are those of the whole user data less those of the header. -/
theorem capacity_gsm7_eq (l : SegmentLimits) (multipart : Bool) :
    l.capacity .gsm7 multipart =
      8 * l.userData / 7 - 8 * l.header .gsm7 multipart ⌈/⌉ 7 := by
  rw [Nat.ceilDiv_eq_add_pred_div, Nat.mul_comm 8, Nat.mul_comm 8]
  rfl

theorem wireOctets_gsm7_le_iff {header units room : Nat} :
    wireOctets .gsm7 header units ≤ room ↔ 8 * header ⌈/⌉ 7 + units ≤ 8 * room / 7 := by
  calc wireOctets .gsm7 header units ≤ room
      ↔ 7 * (8 * header ⌈/⌉ 7 + units) ≤ 8 * room := ceilDiv_le_iff_le_mul (by decide)
    _ ↔ 8 * header ⌈/⌉ 7 + units ≤ 8 * room / 7 := by
      rw [Nat.le_div_iff_mul_le (by decide), Nat.mul_comm 7]

/-- **Units fit behind a header** exactly if the header fits and they are within the capacity. -/
theorem wireOctets_le_iff {e : Encoding} {multipart : Bool} {units : Nat} :
    wireOctets e (l.header e multipart) units ≤ l.userData ↔
      wireOctets e (l.header e multipart) 0 ≤ l.userData ∧ units ≤ l.capacity e multipart := by
  cases e with
  | gsm7 =>
    rw [wireOctets_gsm7_le_iff, wireOctets_gsm7_le_iff, capacity_gsm7_eq]
    omega
  | ucs2 =>
    show l.header .ucs2 multipart + 2 * units ≤ l.userData ↔
      l.header .ucs2 multipart + 2 * 0 ≤ l.userData ∧
        units ≤ (l.userData - l.header .ucs2 multipart) / 2
    omega
  | binary =>
    show l.portHeader + units ≤ l.userData ↔
      l.portHeader + 0 ≤ l.userData ∧ units ≤ l.userData - l.portHeader
    omega

theorem capacity_eq_zero {e : Encoding} {multipart : Bool}
    (h : l.userData < wireOctets e (l.header e multipart) 0) : l.capacity e multipart = 0 := by
  cases e with
  | gsm7 =>
    have hno := mt wireOctets_gsm7_le_iff.2 (Nat.not_le_of_lt h)
    rw [capacity_gsm7_eq]
    omega
  | ucs2 =>
    have hno : l.userData < l.header .ucs2 multipart := h
    show (l.userData - l.header .ucs2 multipart) / 2 = 0
    omega
  | binary =>
    have hno : l.userData < l.portHeader := h
    show l.userData - l.portHeader = 0
    omega

/-- Where there is room for a unit, there is room for the header. -/
theorem wireOctets_le_of_le_capacity {e : Encoding} {multipart : Bool} {units : Nat}
    (hpos : 0 < units) (h : units ≤ l.capacity e multipart) :
    wireOctets e (l.header e multipart) units ≤ l.userData := by
  refine wireOctets_le_iff.2 ⟨Nat.le_of_not_lt fun hno => ?_, h⟩
  have hzero := capacity_eq_zero hno
  omega

/-! ### Parts -/

/-- The header that a part goes out with: that of its port if it has one, that of a longer message
if it belongs to one, and none otherwise. -/
def headerOf (l : SegmentLimits) (p : Part) : Nat :=
  if p.port.isSome then l.portHeader else if p.isMultipart then l.concatHeader else 0

/-- **A part fits on the wire**: its payload is a number of whole units, and they fit into the user
data behind its header. -/
def FitsWire (l : SegmentLimits) (p : Part) : Prop :=
  ∃ units, p.payload.length = octetsPerUnit p.encoding * units ∧
    wireOctets p.encoding (l.headerOf p) units ≤ l.userData

theorem fitsWire_of_text {text : String} {parts : List Part} (h : l.segmentText text = .ok parts)
    {p : Part} (hp : p ∈ parts) : l.FitsWire p := by
  obtain ⟨hne, texts, hcut, rfl⟩ := pieces_of_segmentText h
  obtain ⟨hflat, hpieces⟩ := cutText_pieces hne hcut
  obtain ⟨piece, hpiece, -, hencoding, -, hpayload⟩ := exists_piece_of_mem_partsOfPieces hp
  obtain ⟨hnonempty, hfits⟩ := hpieces piece hpiece
  rw [← textLength_eq, ← isMultipart_of_mem_partsOfPieces hp] at hfits
  have hbinary : detectEncoding text.toList ≠ .binary := by
    rcases detectEncoding_cases text.toList with he | he <;> rw [he] <;> decide
  have hheader : l.headerOf p = l.header (detectEncoding text.toList) p.isMultipart := by
    unfold headerOf header
    rw [port_of_mem_partsOfPieces hp]
    rcases detectEncoding_cases text.toList with he | he <;> rw [he] <;> rfl
  refine ⟨textLength (detectEncoding text.toList) piece, ?_, ?_⟩
  · rw [hpayload, hencoding]
    exact length_encodeText hbinary (spells_of_mem_flatten hflat hpiece)
  · rw [hencoding, hheader]
    exact wireOctets_le_of_le_capacity (textLength_pos _ hnonempty) hfits

theorem fitsWire_of_data {octets : Octets} {port : Option UInt16} {parts : List Part}
    (h : l.segmentData octets port = .ok parts) {p : Part} (hp : p ∈ parts) : l.FitsWire p := by
  obtain ⟨hne, hlimit, rfl⟩ := part_of_segmentData h
  obtain rfl := List.mem_singleton.1 hp
  refine ⟨octets.length, (Nat.one_mul _).symm, ?_⟩
  cases port with
  | none =>
    show 0 + octets.length ≤ l.userData
    rw [Nat.zero_add]
    exact hlimit
  | some n =>
    have hfits : octets.length ≤ l.capacity .binary false := hlimit
    exact wireOctets_le_of_le_capacity (List.length_pos_iff.2 hne) hfits

/-- **Capacity is exact on the wire.**  It is the greatest number of units that fit into the user
data behind the header, and nothing if not even the header fits.  So every part of a message fits
with the header that it goes out with. -/
theorem capacity_exact (l : SegmentLimits) :
    (∀ e multipart,
      (wireOctets e (l.header e multipart) 0 ≤ l.userData →
        IsGreatest {n | wireOctets e (l.header e multipart) n ≤ l.userData}
          (l.capacity e multipart)) ∧
      (l.userData < wireOctets e (l.header e multipart) 0 → l.capacity e multipart = 0) ∧
      (l.userData < l.header e multipart → l.capacity e multipart = 0)) ∧
    ∀ payload parts, l.segment payload = .ok parts → ∀ p ∈ parts, l.FitsWire p := by
  refine ⟨fun e multipart =>
      ⟨fun hheader => ⟨?_, fun n hn => ?_⟩, capacity_eq_zero, fun hlong => ?_⟩,
    fun payload parts h p hp => ?_⟩
  · exact wireOctets_le_iff.2 ⟨hheader, Nat.le_refl _⟩
  · exact (wireOctets_le_iff.1 hn).2
  · exact capacity_eq_zero (Nat.lt_of_lt_of_le hlong (header_le_wireOctets e _ 0))
  · cases payload with
    | text body => exact fitsWire_of_text h hp
    | data octets port => exact fitsWire_of_data h hp

/-- The septets of the standard: seven for the header and 153 behind it fill the user data. -/
example : wireOctets .gsm7 6 153 = 140 ∧ wireOctets .gsm7 6 154 = 141 := by decide

end SegmentLimits

end ShortMessage
