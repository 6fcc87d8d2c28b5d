import Mathlib.Order.Bounds.Defs
import ShortMessage.Proofs.Segment

/-!
# How many parts a text has

A text is one part exactly if it fits into one.  Otherwise the greedy cut stays ahead of every other
cut: after as many pieces it has no more text left.  So no cut at character boundaries has fewer
pieces.

* `fill_snd_suffix_of_le`, `rest_suffix_of_suffix`: one piece of the greedy cut reaches as far as a
  piece of any other cut;
* `length_pieces_le`: the greedy cut has the fewest pieces;
* `FitsOne`, `TooWide`: what one part holds, and what no part of a longer message holds;
* `segmentText_cases`, `length_eq_one_iff`: the texts of one part, and of several;
* `refused_or_counted`: when a text is refused, and which capacity its parts were cut by;
* `fewest_parts`: a text has as few parts as it can have.
-/

namespace ShortMessage

/-! ### The greedy cut stays ahead -/

section pieces

variable {width : Char → Nat} {capacity : Nat}

theorem fill_snd_suffix (room : Nat) (cs : List Char) : (fill width room cs).2 <:+ cs :=
  ⟨_, fill_append width room cs⟩

theorem fill_snd_suffix_of_le {room : Nat} {front back : List Char}
    (h : (front.map width).sum ≤ room) : (fill width room (front ++ back)).2 <:+ back := by
  induction front generalizing room with
  | nil => exact fill_snd_suffix room back
  | cons c front ih =>
    rw [List.map_cons, List.sum_cons] at h
    have hc : width c ≤ room := by omega
    simp only [List.cons_append, fill, if_pos hc]
    exact ih (by omega)

/-- What is left after one more piece of the greedy cut is left after one more piece of any other
cut that had as little left before. -/
theorem rest_suffix_of_suffix {c : Char} {cs piece later : List Char}
    (hfits : (piece.map width).sum ≤ capacity) (h : c :: cs <:+ piece ++ later) :
    (fill width (capacity - width c) cs).2 <:+ later := by
  have hrest : (fill width (capacity - width c) cs).2 <:+ c :: cs :=
    (fill_snd_suffix _ cs).trans (List.suffix_cons c cs)
  obtain ⟨before, hbefore⟩ := h
  rcases List.append_eq_append_iff.1 hbefore with ⟨taken, rfl, htaken⟩ | ⟨between, -, rfl⟩
  · -- the piece starts before the text that is left, and takes some of it
    cases taken with
    | nil =>
      rw [List.nil_append] at htaken
      rwa [htaken] at hrest
    | cons d taken =>
      obtain ⟨rfl, rfl⟩ := List.cons.inj htaken
      rw [List.map_append, List.sum_append, List.map_cons, List.sum_cons] at hfits
      exact fill_snd_suffix_of_le (by omega)
  · exact hrest.trans (List.suffix_append between _)

/-- **The greedy cut has the fewest pieces.**  It is compared with a cut of a text that ends in the
given one, so that the greedy cut may be ahead. -/
theorem length_pieces_le {cut : List (List Char)} {text : List Char}
    (hfits : ∀ piece ∈ cut, (piece.map width).sum ≤ capacity) (h : text <:+ cut.flatten) :
    (pieces width capacity text).length ≤ cut.length := by
  induction cut generalizing text with
  | nil =>
    obtain rfl := List.suffix_nil.1 h
    simp [pieces]
  | cons piece cut ih =>
    cases text with
    | nil =>
      rw [pieces]
      exact Nat.zero_le _
    | cons c cs =>
      rw [List.flatten_cons] at h
      have hrest := rest_suffix_of_suffix (hfits piece List.mem_cons_self) h
      have hle := ih (fun q hq => hfits q (List.mem_cons_of_mem _ hq)) hrest
      rw [pieces, List.length_cons, List.length_cons]
      exact Nat.succ_le_succ hle

theorem width_flatten_le {cut : List (List Char)}
    (hfits : ∀ piece ∈ cut, (piece.map width).sum ≤ capacity) :
    (cut.flatten.map width).sum ≤ cut.length * capacity := by
  induction cut with
  | nil => exact Nat.zero_le _
  | cons piece cut ih =>
    have hpiece := hfits piece List.mem_cons_self
    have hrest := ih fun q hq => hfits q (List.mem_cons_of_mem _ hq)
    rw [List.flatten_cons, List.map_append, List.sum_append, List.length_cons, Nat.succ_mul]
    omega

theorem one_lt_length_pieces {text : List Char} (hchar : ∀ c ∈ text, width c ≤ capacity)
    (hlong : capacity < (text.map width).sum) : 1 < (pieces width capacity text).length := by
  have hle := width_flatten_le fun piece hpiece => width_le_of_mem_pieces width hchar hpiece
  rw [flatten_pieces] at hle
  refine Nat.lt_of_not_le fun hone => ?_
  have hmul := Nat.mul_le_mul_right capacity hone
  omega

end pieces

namespace SegmentLimits

variable {l : SegmentLimits}

/-! ### One part or several -/

/-- One part holds the whole text. -/
def FitsOne (l : SegmentLimits) (text : List Char) : Prop :=
  textLength (detectEncoding text) text ≤ l.capacity (detectEncoding text) false

instance (l : SegmentLimits) (text : List Char) : Decidable (l.FitsOne text) :=
  inferInstanceAs (Decidable (_ ≤ _))

/-- A character that no part of a longer message holds, in the encoding of its text. -/
def TooWide (l : SegmentLimits) (text : List Char) (c : Char) : Prop :=
  l.capacity (detectEncoding text) true < unitLength (detectEncoding text) c

/-- The pieces that a text is cut into if one part does not hold it. -/
def greedyCut (l : SegmentLimits) (text : List Char) : List (List Char) :=
  pieces (unitLength (detectEncoding text)) (l.capacity (detectEncoding text) true) text

theorem one_lt_length_greedyCut {text : List Char} (hlong : ¬ l.FitsOne text)
    (hchar : ∀ c ∈ text, ¬ l.TooWide text c) : 1 < (l.greedyCut text).length := by
  refine one_lt_length_pieces (fun c hc => Nat.le_of_not_lt (hchar c hc)) ?_
  rw [← textLength_eq]
  -- a part of a longer message holds no more than a part of its own
  exact Nat.lt_of_le_of_lt (capacity_multipart_le l _) (Nat.lt_of_not_le hlong)

/-- **The parts of a text** are the text as it is, or at least two pieces of the greedy cut. -/
theorem segmentText_cases {text : String} {parts : List Part}
    (h : l.segmentText text = .ok parts) :
    (l.FitsOne text.toList ∧ parts = partsOfPieces (detectEncoding text.toList) [text.toList]) ∨
    (¬ l.FitsOne text.toList ∧ (∀ c ∈ text.toList, ¬ l.TooWide text.toList c) ∧
      1 < (l.greedyCut text.toList).length ∧
      parts = partsOfPieces (detectEncoding text.toList) (l.greedyCut text.toList)) := by
  obtain ⟨-, texts, hcut, rfl⟩ := pieces_of_segmentText h
  rcases cutText_cases hcut with ⟨hfits, rfl⟩ | ⟨hlong, hchar, rfl⟩
  · exact Or.inl ⟨hfits, rfl⟩
  · have hnot : ¬ l.FitsOne text.toList := Nat.not_le_of_lt hlong
    have hnarrow : ∀ c ∈ text.toList, ¬ l.TooWide text.toList c :=
      fun c hc => Nat.not_lt_of_le (hchar c hc)
    exact Or.inr ⟨hnot, hnarrow, one_lt_length_greedyCut hnot hnarrow, rfl⟩

theorem length_eq_one_iff {text : String} {parts : List Part}
    (h : l.segmentText text = .ok parts) : parts.length = 1 ↔ l.FitsOne text.toList := by
  rcases segmentText_cases h with ⟨hfits, rfl⟩ | ⟨hlong, -, hmany, rfl⟩
  · rw [length_partsOfPieces]
    exact iff_of_true rfl hfits
  · rw [length_partsOfPieces]
    exact iff_of_false (by omega) hlong

theorem Uncuttable.not_fitsOne {text : List Char} {c : Char}
    (h : l.Uncuttable (detectEncoding text) text c) : ¬ l.FitsOne text :=
  Nat.not_le_of_lt h.long

theorem Uncuttable.mem {e : Encoding} {text : List Char} {c : Char} (h : l.Uncuttable e text c) :
    c ∈ text := by
  obtain ⟨before, after, htext, -⟩ := h.first
  simp [htext]

theorem rejects_text_iff {text : String} {f : Failure} :
    l.Rejects (.text text) f ↔
      (text = "" ∧ f = .invalidArgument .noText) ∨
      ∃ c, l.Uncuttable (detectEncoding text.toList) text.toList c ∧
        f = .invalidArgument (.charTooWide (l.capacity (detectEncoding text.toList) true) c) := by
  constructor
  · rintro (_ | h)
    · exact Or.inl ⟨rfl, rfl⟩
    · exact Or.inr ⟨_, h, rfl⟩
  · rintro (⟨rfl, rfl⟩ | ⟨c, h, rfl⟩)
    · exact .noText
    · exact .uncuttable h

theorem exists_rejects_iff {text : String} :
    (∃ cause, l.Rejects (.text text) (.invalidArgument cause)) ↔
      text = "" ∨ (¬ l.FitsOne text.toList ∧ ∃ c ∈ text.toList, l.TooWide text.toList c) := by
  constructor
  · rintro ⟨cause, h⟩
    rcases rejects_text_iff.1 h with ⟨hempty, -⟩ | ⟨c, hc, -⟩
    · exact Or.inl hempty
    · exact Or.inr ⟨hc.not_fitsOne, c, hc.mem, hc.wide⟩
  · intro hbad
    cases h : l.segmentText text with
    | error f =>
      have hrejects := segmentText_eq_error_iff.1 h
      rcases rejects_text_iff.1 hrejects with ⟨-, rfl⟩ | ⟨c, -, rfl⟩ <;> exact ⟨_, hrejects⟩
    | ok parts =>
      -- a text that has parts is neither empty nor too wide
      rcases hbad with rfl | ⟨hlong, c, hc, hwide⟩
      · cases h
      · rcases segmentText_cases h with ⟨hfits, -⟩ | ⟨-, hchar, -⟩
        · exact absurd hfits hlong
        · exact absurd hwide (hchar c hc)

/-- **When a text is refused, and by which capacity it is cut.**  It is refused exactly if there is
nothing in it, or if one part does not hold it and some character is too wide for the parts of a
longer message; the failure names the first of these.  Otherwise there are parts, and it is one
exactly if one part holds the text, which then is left whole; a part is marked as one of several
exactly if the text was cut by the capacity of the parts of a longer message, and its units fit into
the capacity that goes with its mark. -/
theorem refused_or_counted (l : SegmentLimits) (text : String) :
    ((∃ cause, l.segmentText text = .error (.invalidArgument cause)) ↔
      text = "" ∨ (¬ l.FitsOne text.toList ∧ ∃ c ∈ text.toList, l.TooWide text.toList c)) ∧
    (∀ f, l.segmentText text = .error f ↔
      (text = "" ∧ f = .invalidArgument .noText) ∨
      ∃ c, l.Uncuttable (detectEncoding text.toList) text.toList c ∧
        f = .invalidArgument (.charTooWide (l.capacity (detectEncoding text.toList) true) c)) ∧
    ∀ parts, l.segmentText text = .ok parts → parts ≠ [] ∧
      (parts.length = 1 ↔ l.FitsOne text.toList) ∧
      ∀ p ∈ parts, (p.isMultipart = true ↔ ¬ l.FitsOne text.toList) ∧
        payloadUnits (detectEncoding text.toList) p.payload ≤
          l.capacity (detectEncoding text.toList) p.isMultipart ∧
        parts = partsOfPieces (detectEncoding text.toList)
          (if p.isMultipart then l.greedyCut text.toList else [text.toList]) := by
  simp only [segmentText_eq_error_iff]
  refine ⟨exists_rejects_iff, fun f => rejects_text_iff, fun parts h =>
    ⟨(nonempty_of_segment (p := .text text) h).2, length_eq_one_iff h, fun p hp => ?_⟩⟩
  obtain ⟨piece, hcarries⟩ := exists_carries h hp
  have hunits := hcarries.fits
  rw [← hcarries.isMultipart_eq] at hunits
  rcases segmentText_cases h with ⟨hfits, rfl⟩ | ⟨hlong, -, hmany, rfl⟩
  · have hsingle : p.isMultipart = false := isMultipart_of_mem_partsOfPieces hp
    rw [hsingle] at hunits ⊢
    exact ⟨iff_of_false Bool.false_ne_true (not_not_intro hfits), hunits, rfl⟩
  · have hmulti : p.isMultipart = true := by
      rw [isMultipart_of_mem_partsOfPieces hp]
      exact decide_eq_true hmany
    rw [hmulti] at hunits ⊢
    exact ⟨iff_of_true rfl hlong, hunits, rfl⟩

/-! ### As few parts as there can be -/

/-- **A cut of a text** at character boundaries, in consecutive pieces that the parts of a longer
message hold. -/
structure Cuts (l : SegmentLimits) (text : List Char) (cut : List (List Char)) : Prop where
  flatten_eq : cut.flatten = text
  fits : ∀ piece ∈ cut,
    textLength (detectEncoding text) piece ≤ l.capacity (detectEncoding text) true

theorem cuts_greedyCut {text : List Char} (hchar : ∀ c ∈ text, ¬ l.TooWide text c) :
    l.Cuts text (l.greedyCut text) where
  flatten_eq := flatten_pieces _ _ text
  fits piece hpiece := by
    rw [textLength_eq]
    exact width_le_of_mem_pieces _ (fun c hc => Nat.le_of_not_lt (hchar c hc)) hpiece

theorem length_greedyCut_le {text : List Char} {cut : List (List Char)} (h : l.Cuts text cut) :
    (l.greedyCut text).length ≤ cut.length := by
  refine length_pieces_le (fun piece hpiece => ?_) ?_
  · rw [← textLength_eq]
    exact h.fits piece hpiece
  · exact h.flatten_eq.symm ▸ List.suffix_rfl

/-- **A text has as few parts as it can have**: one if one part holds it, and otherwise as many as
the shortest cut has pieces. -/
theorem fewest_parts {text : String} {parts : List Part} (h : l.segmentText text = .ok parts) :
    (l.FitsOne text.toList → parts.length = 1) ∧
    (¬ l.FitsOne text.toList →
      IsLeast {n | ∃ cut, l.Cuts text.toList cut ∧ cut.length = n} parts.length) := by
  refine ⟨(length_eq_one_iff h).2, fun hlong => ?_⟩
  rcases segmentText_cases h with ⟨hfits, -⟩ | ⟨-, hchar, -, rfl⟩
  · exact absurd hfits hlong
  · rw [length_partsOfPieces]
    refine ⟨⟨_, cuts_greedyCut hchar, rfl⟩, ?_⟩
    rintro n ⟨cut, hcut, rfl⟩
    exact length_greedyCut_le hcut

/-- Three characters of two septets each, in parts of three septets: each part wastes one, and there
have to be three parts. -/
theorem fewest_parts_wasteful :
    ∃ parts, SegmentLimits.segmentText ⟨3, 0, 0⟩ "€€€" = .ok parts ∧ parts.length = 3 ∧
      IsLeast {n | ∃ cut, Cuts ⟨3, 0, 0⟩ "€€€".toList cut ∧ cut.length = n} parts.length := by
  have h : SegmentLimits.segmentText ⟨3, 0, 0⟩ "€€€" =
      .ok (partsOfPieces .gsm7 (pieces (unitLength .gsm7) 3 ['€', '€', '€'])) := rfl
  have hwidth : unitLength .gsm7 '€' = 2 := by decide
  have hpieces : pieces (unitLength .gsm7) 3 ['€', '€', '€'] = [['€'], ['€'], ['€']] := by
    simp [pieces, fill, hwidth]
  have hlong : ¬ FitsOne ⟨3, 0, 0⟩ "€€€".toList := by decide
  exact ⟨_, h, by rw [hpieces]; rfl, (fewest_parts h).2 hlong⟩

end SegmentLimits

end ShortMessage
