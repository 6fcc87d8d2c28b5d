import Mathlib.Algebra.Order.Floor.Div
import ShortMessage.Proofs.Segment.Count
import ShortMessage.Proofs.Segment.Room

/-!
# Room for plain texts

The check asks for two octets beside the header of a longer message, and for one beside that of a
port.  That is just what it takes to have a unit in every part: two octets are a wide unit, and they
hold a septet wherever the septet boundaries fall.  So an octet of data always has its part, and a
text whose characters take one unit each is always cut, into as many parts as its units need.

* `fill_eq_take_drop`, `length_pieces_of_eq_one`: the greedy cut of characters of one unit;
* `Plain`: a text of such characters;
* `check_iff_one_le_capacity`: limits that pass their check;
* `segmentData_singleton`: the part of one octet of data;
* `partsOfUnits`, `length_of_plain`: how many parts a plain text has;
* `checked_limits_serve`: what checked limits have room for.
-/

namespace ShortMessage

/-! ### The greedy cut of characters of one unit -/

section pieces

variable {width : Char → Nat}

theorem fill_eq_take_drop {room : Nat} {cs : List Char} (h : ∀ c ∈ cs, width c = 1) :
    fill width room cs = (cs.take room, cs.drop room) := by
  induction cs generalizing room with
  | nil => simp [fill]
  | cons c cs ih =>
    have hc : width c = 1 := h c List.mem_cons_self
    have hcs : ∀ d ∈ cs, width d = 1 := fun d hd => h d (List.mem_cons_of_mem c hd)
    cases room with
    | zero => simp [fill, hc]
    | succ room => simp [fill, hc, ih hcs]

theorem ceilDiv_succ {capacity : Nat} (hpos : 0 < capacity) (n : Nat) :
    (n - (capacity - 1)) ⌈/⌉ capacity + 1 = (n + 1) ⌈/⌉ capacity := by
  have hright : n + 1 + capacity - 1 = n + capacity := by omega
  rw [Nat.ceilDiv_eq_add_pred_div, Nat.ceilDiv_eq_add_pred_div, hright, Nat.add_div_right n hpos]
  rcases Nat.lt_or_ge n capacity with hlast | hmore
  · have hleft : n - (capacity - 1) + capacity - 1 < capacity := by omega
    rw [Nat.div_eq_of_lt hleft, Nat.div_eq_of_lt hlast]
  · have hleft : n - (capacity - 1) + capacity - 1 = n := by omega
    rw [hleft]

/-- **Characters of one unit are cut after every `capacity` of them.** -/
theorem length_pieces_of_eq_one {capacity : Nat} (hpos : 0 < capacity) {text : List Char}
    (h : ∀ c ∈ text, width c = 1) :
    (pieces width capacity text).length = text.length ⌈/⌉ capacity := by
  induction text using pieces.induct width capacity with
  | case1 => simp [pieces]
  | case2 c cs ih =>
    have hc : width c = 1 := h c List.mem_cons_self
    have hcs : ∀ d ∈ cs, width d = 1 := fun d hd => h d (List.mem_cons_of_mem c hd)
    have hfill : (fill width (capacity - width c) cs).2 = cs.drop (capacity - 1) := by
      rw [hc, fill_eq_take_drop hcs]
    rw [hfill] at ih
    rw [pieces, hfill, List.length_cons, ih fun d hd => hcs d (List.mem_of_mem_drop hd),
      List.length_drop, List.length_cons, ceilDiv_succ hpos]

end pieces

/-- **A plain text**: in the encoding of the text, each of its characters takes one unit. -/
def Plain (text : List Char) : Prop :=
  ∀ c ∈ text, unitLength (detectEncoding text) c = 1

instance (text : List Char) : Decidable (Plain text) :=
  List.decidableBAll (fun c => unitLength (detectEncoding text) c = 1) text

theorem textLength_of_plain {text : List Char} (h : Plain text) :
    textLength (detectEncoding text) text = text.length := by
  have hunits : text.map (unitLength (detectEncoding text)) = List.replicate text.length 1 :=
    List.map_eq_replicate_iff.2 h
  rw [textLength_eq, hunits, List.sum_replicate_nat, Nat.mul_one]

namespace SegmentLimits

variable {l : SegmentLimits}

/-! ### The check -/

/-- **Limits pass their check exactly if every part has room for a unit**, whatever its encoding. -/
theorem check_iff_one_le_capacity :
    l.check = .ok () ↔ ∀ e multipart, 1 ≤ l.capacity e multipart := by
  constructor
  · intro h e multipart
    have htext : ∀ e, e = .gsm7 ∨ e = .ucs2 → 1 ≤ l.capacity e multipart := by
      intro e he
      have hmulti := one_le_capacity h he
      cases multipart with
      | true => exact hmulti
      | false => exact Nat.le_trans hmulti (capacity_multipart_le l e)
    cases e with
    | gsm7 => exact htext .gsm7 (Or.inl rfl)
    | ucs2 => exact htext .ucs2 (Or.inr rfl)
    | binary => exact Nat.sub_pos_of_lt (check_eq_ok_iff.1 h).2
  · intro h
    have hwide : 1 ≤ (l.userData - l.concatHeader) / 2 := h .ucs2 true
    have hdata : 1 ≤ l.userData - l.portHeader := h .binary false
    rw [check_eq_ok_iff]
    omega

/-! ### One octet of data -/

theorem one_le_dataLimit (h : l.check = .ok ()) (port : Option UInt16) : 1 ≤ l.dataLimit port := by
  cases port with
  | none =>
    have hheader := (check_eq_ok_iff.1 h).1
    show 1 ≤ l.userData
    omega
  | some n => exact check_iff_one_le_capacity.1 h .binary false

/-- **One octet of data has a part**, with a port or without. -/
theorem segmentData_singleton (h : l.check = .ok ()) (octet : UInt8) (port : Option UInt16) :
    l.segmentData [octet] port = .ok [⟨0, 1, .binary, none, [octet], port⟩] := by
  cases hresult : l.segmentData [octet] port with
  | ok parts =>
    obtain ⟨-, -, rfl⟩ := part_of_segmentData hresult
    rfl
  | error f =>
    rcases segmentData_eq_error_iff.1 hresult with _ | _ | _ | ⟨hlong⟩
    exact absurd hlong (Nat.not_lt_of_le (one_le_dataLimit h port))

/-! ### Plain texts -/

theorem not_cramped_of_plain {text : List Char} (h : Plain text) : ¬ l.Cramped text := by
  intro hcramped
  obtain ⟨c, hmem, hwide⟩ := hcramped.wide
  have hone := h c hmem
  rcases unitLength_cases (detectEncoding text) c with ⟨-, hnot⟩ | ⟨htwo, -⟩
  · exact hnot hwide
  · omega

/-- How many parts there are of `n` units that may be cut anywhere. -/
def partsOfUnits (l : SegmentLimits) (e : Encoding) (n : Nat) : Nat :=
  if n ≤ l.capacity e false then 1 else n ⌈/⌉ l.capacity e true

/-- **A plain text has no more parts than its units need.** -/
theorem length_of_plain (h : l.check = .ok ()) {text : String} (hplain : Plain text.toList)
    {parts : List Part} (hparts : l.segmentText text = .ok parts) :
    parts.length = l.partsOfUnits (detectEncoding text.toList) text.length := by
  have hpos := check_iff_one_le_capacity.1 h (detectEncoding text.toList) true
  have hfits : l.FitsOne text.toList ↔
      text.length ≤ l.capacity (detectEncoding text.toList) false := by
    rw [FitsOne, textLength_of_plain hplain, String.length_toList]
  unfold partsOfUnits
  rcases segmentText_cases hparts with ⟨hone, rfl⟩ | ⟨hlong, -, -, rfl⟩
  · rw [if_pos (hfits.1 hone), length_partsOfPieces, List.length_singleton]
  · rw [if_neg (mt hfits.2 hlong), length_partsOfPieces, greedyCut,
      length_pieces_of_eq_one hpos hplain,
      String.length_toList]

/-- The septets of the standard: 160 in one part, and 153 in each of several. -/
example : (standard.partsOfUnits .gsm7 160, standard.partsOfUnits .gsm7 161,
    standard.partsOfUnits .gsm7 306, standard.partsOfUnits .gsm7 307) = (1, 2, 2, 3) := by decide

/-- **What checked limits have room for.**  Limits pass their check exactly if every part has room
for a unit, and a part of a longer message never has more room than a part of its own.  So under
checked limits an octet of data has its part, and a plain text that is not empty has as many parts
as its units need. -/
theorem checked_limits_serve (l : SegmentLimits) :
    (l.check = .ok () ↔ ∀ e multipart, 1 ≤ l.capacity e multipart) ∧
    (∀ e, l.capacity e true ≤ l.capacity e false) ∧
    (l.check = .ok () →
      (∀ octet port,
        l.segmentData [octet] port = .ok [⟨0, 1, .binary, none, [octet], port⟩]) ∧
      ∀ text : String, Plain text.toList → text ≠ "" → ∃ parts,
        l.segmentText text = .ok parts ∧
          parts.length = l.partsOfUnits (detectEncoding text.toList) text.length) := by
  refine ⟨check_iff_one_le_capacity, capacity_multipart_le l, fun h =>
    ⟨segmentData_singleton h, fun text hplain hne => ?_⟩⟩
  obtain ⟨parts, hparts⟩ := segmentText_of_not_cramped h hne (not_cramped_of_plain hplain)
  exact ⟨parts, hparts, length_of_plain h hplain hparts⟩

/-- Limits with nothing to spare: every part of a longer message holds a single unit, and so does
one with a port.  Twelve letters are one more than a part of its own holds, and have twelve
parts. -/
theorem checked_limits_serve_tight :
    SegmentLimits.check ⟨10, 8, 9⟩ = .ok () ∧ (∀ e, capacity ⟨10, 8, 9⟩ e true = 1) ∧
      segmentData ⟨10, 8, 9⟩ [7] (some 2948) = .ok [⟨0, 1, .binary, none, [7], some 2948⟩] ∧
      Plain "abcdefghijkl".toList ∧
      ∃ parts, segmentText ⟨10, 8, 9⟩ "abcdefghijkl" = .ok parts ∧ parts.length = 12 := by
  have hplain : Plain "abcdefghijkl".toList := by decide
  obtain ⟨-, -, hserves⟩ := checked_limits_serve ⟨10, 8, 9⟩
  obtain ⟨hdata, htext⟩ := hserves rfl
  refine ⟨rfl, fun e => by cases e <;> rfl, hdata 7 (some 2948), hplain, ?_⟩
  obtain ⟨parts, hparts, hcount⟩ := htext "abcdefghijkl" hplain (by decide)
  exact ⟨parts, hparts, hcount⟩

/-- The empty text is plain, and is refused all the same: there is nothing in it. -/
theorem checked_limits_refuse_empty :
    SegmentLimits.standard.check = .ok () ∧ Plain "".toList ∧
      ¬ ∃ parts, SegmentLimits.standard.segmentText "" = .ok parts := by
  refine ⟨rfl, by decide, ?_⟩
  rintro ⟨parts, hparts⟩
  exact (pieces_of_segmentText hparts).1 rfl

end SegmentLimits

end ShortMessage
