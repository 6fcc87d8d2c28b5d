import ShortMessage.Proofs.Segment
import ShortMessage.Settings

/-!
# Room for every character

Limits that pass their check leave room for one unit in every part of a longer message, of either
encoding.  A character takes one unit or two, so a text is refused only if parts of one unit would
have to carry a character of two.

* `Wide`, `unitLength_cases`: the characters of two units;
* `check_eq_ok_iff`, `one_le_capacity`: what limits that pass their check have room for;
* `Narrow`, `capacity_eq_one_iff`: the limits whose parts hold one unit;
* `Cramped`: a text that there is no room for;
* `segmentText_of_cramped`, `segmentText_of_not_cramped`: what becomes of a text;
* `segmentText_of_check`: which texts are refused, and which limits refuse none.
-/

namespace ShortMessage

/-! ### Characters of two units -/

/-- A character of two units: one of the extension table, or one that takes a surrogate pair. -/
def Wide (e : Encoding) (c : Char) : Prop :=
  match e with
  | .gsm7 => Alphabet.septetLength? c = some 2
  | .ucs2 | .binary => 0x10000 ≤ c.toNat

theorem Alphabet.septetLength?_cases (c : Char) :
    septetLength? c = none ∨ septetLength? c = some 1 ∨ septetLength? c = some 2 := by
  unfold septetLength?
  split
  · exact Or.inr (Or.inl rfl)
  · split
    · exact Or.inr (Or.inr rfl)
    · exact Or.inl rfl

/-- **A character takes one unit or two.** -/
theorem unitLength_cases (e : Encoding) (c : Char) :
    (unitLength e c = 1 ∧ ¬ Wide e c) ∨ (unitLength e c = 2 ∧ Wide e c) := by
  have hunits : (Utf16.unitCount c = 1 ∧ ¬ 0x10000 ≤ c.toNat) ∨
      (Utf16.unitCount c = 2 ∧ 0x10000 ≤ c.toNat) := by
    unfold Utf16.unitCount
    split
    · exact Or.inl ⟨rfl, by omega⟩
    · exact Or.inr ⟨rfl, by omega⟩
  cases e with
  | gsm7 =>
    rcases Alphabet.septetLength?_cases c with h | h | h
    · exact Or.inl ⟨by simp only [unitLength, h, Option.getD_none], by simp [Wide, h]⟩
    · exact Or.inl ⟨by simp only [unitLength, h, Option.getD_some], by simp [Wide, h]⟩
    · exact Or.inr ⟨by simp only [unitLength, h, Option.getD_some], h⟩
  | ucs2 => exact hunits
  | binary => exact hunits

/-- A part of at least one unit is too small for the wide characters alone, and only if it holds
one unit. -/
theorem lt_unitLength_iff {room : Nat} (hroom : 1 ≤ room) (e : Encoding) (c : Char) :
    room < unitLength e c ↔ room = 1 ∧ Wide e c := by
  rcases unitLength_cases e c with ⟨hlen, hnot⟩ | ⟨hlen, hwide⟩
  · simp only [hlen, hnot, and_false, iff_false]
    omega
  · simp only [hlen, hwide, and_true]
    omega

namespace SegmentLimits

variable {l : SegmentLimits}

/-! ### Parts of one unit -/

/-- **Narrow limits**: beside the header of a longer message there is a single unit.  For septets
that depends on where the septet boundaries fall. -/
def Narrow (l : SegmentLimits) (e : Encoding) : Prop :=
  (e = .gsm7 ∧ l.userData = l.concatHeader + 2 ∧ 3 ≤ l.userData % 7) ∨
    (e = .ucs2 ∧ l.userData < l.concatHeader + 4)

theorem check_eq_ok_iff :
    l.check = .ok () ↔ l.concatHeader + 2 ≤ l.userData ∧ l.portHeader < l.userData := by
  unfold check
  split
  · simp only [reduceCtorEq, false_iff]
    omega
  · split
    · simp only [reduceCtorEq, false_iff]
      omega
    · split
      · simp only [reduceCtorEq, false_iff]
        omega
      · simp only [true_iff]
        omega

/-- An eighth septet for every seven octets, and an eighth of the header for every seven of its
octets, whole or not. -/
theorem capacity_gsm7 (l : SegmentLimits) :
    l.capacity .gsm7 true =
      (l.userData + l.userData / 7) - (l.concatHeader + (l.concatHeader + 6) / 7) := by
  have hroom : l.userData * 8 / 7 = l.userData + l.userData / 7 := by omega
  have hheader : (l.concatHeader * 8 + 6) / 7 = l.concatHeader + (l.concatHeader + 6) / 7 := by
    omega
  rw [← hroom, ← hheader]
  rfl

/-- **Checked limits leave room for a unit** of text in every part. -/
theorem one_le_capacity (h : l.check = .ok ()) {e : Encoding} (he : e = .gsm7 ∨ e = .ucs2) :
    1 ≤ l.capacity e true := by
  have hheader := (check_eq_ok_iff.1 h).1
  rcases he with rfl | rfl
  · rw [capacity_gsm7]
    omega
  · show 1 ≤ (l.userData - l.concatHeader) / 2
    omega

/-- **Narrow limits are those whose parts hold one unit.** -/
theorem capacity_eq_one_iff (h : l.check = .ok ()) {e : Encoding} (he : e = .gsm7 ∨ e = .ucs2) :
    l.capacity e true = 1 ↔ l.Narrow e := by
  have hheader := (check_eq_ok_iff.1 h).1
  rcases he with rfl | rfl
  · simp only [Narrow, true_and, reduceCtorEq, false_and, or_false, capacity_gsm7]
    omega
  · simp only [Narrow, true_and, reduceCtorEq, false_and, false_or]
    show (l.userData - l.concatHeader) / 2 = 1 ↔ _
    omega

/-! ### Texts that there is no room for -/

/-- **A text that there is no room for**: it does not fit into one part, the parts of a longer
message hold one unit, and one of its characters takes two. -/
structure Cramped (l : SegmentLimits) (text : List Char) : Prop where
  long : l.capacity (detectEncoding text) false < textLength (detectEncoding text) text
  narrow : l.Narrow (detectEncoding text)
  wide : ∃ c ∈ text, Wide (detectEncoding text) c

theorem segmentText_of_cramped (h : l.check = .ok ()) {text : String} (hc : l.Cramped text.toList) :
    ∃ c ∈ text.toList, Wide (detectEncoding text.toList) c ∧
      l.segmentText text = .error (.invalidArgument (.charTooWide 1 c)) := by
  have hroom := (capacity_eq_one_iff h (detectEncoding_cases text.toList)).2 hc.narrow
  have hlong : ¬ textLength (detectEncoding text.toList) text.toList ≤
      l.capacity (detectEncoding text.toList) false := Nat.not_le.2 hc.long
  have hiff := lt_unitLength_iff (Nat.le_refl 1) (detectEncoding text.toList)
  cases hfind : text.toList.find? (1 < unitLength (detectEncoding text.toList) ·) with
  | none =>
    obtain ⟨c, hmem, hwide⟩ := hc.wide
    have hfits := List.find?_eq_none.1 hfind c hmem
    simp only [decide_eq_true_eq, hiff, true_and] at hfits
    exact absurd hwide hfits
  | some c =>
    have hwide := List.find?_some hfind
    simp only [decide_eq_true_eq, hiff, true_and] at hwide
    refine ⟨c, List.mem_of_find?_eq_some hfind, hwide, ?_⟩
    cases hlist : text.toList with
    | nil =>
      rw [hlist] at hfind
      cases hfind
    | cons a as =>
      rw [hlist] at hroom hlong hfind
      simp only [segmentText, hlist, cutText, if_neg hlong, hroom, hfind]
      rfl

theorem segmentText_of_not_cramped (h : l.check = .ok ()) {text : String} (hne : text ≠ "")
    (hc : ¬ l.Cramped text.toList) : ∃ parts, l.segmentText text = .ok parts := by
  cases hlist : text.toList with
  | nil => exact absurd (String.toList_eq_nil_iff.1 hlist) hne
  | cons a as =>
    rw [hlist] at hc
    simp only [segmentText, hlist, cutText]
    split
    · exact ⟨_, rfl⟩
    · next hlong =>
      split
      · next c hfind =>
        -- a character that is wider than a part would make the text cramped
        have hpos := one_le_capacity h (detectEncoding_cases (a :: as))
        have hwide := List.find?_some hfind
        simp only [decide_eq_true_eq, lt_unitLength_iff hpos] at hwide
        exact absurd ⟨Nat.not_le.1 hlong,
          (capacity_eq_one_iff h (detectEncoding_cases _)).1 hwide.1,
          c, List.mem_of_find?_eq_some hfind, hwide.2⟩ hc
      · exact ⟨_, rfl⟩

theorem segmentText_eq_ok_iff (h : l.check = .ok ()) {text : String} (hne : text ≠ "") :
    (∃ parts, l.segmentText text = .ok parts) ↔ ¬ l.Cramped text.toList := by
  refine ⟨fun ⟨parts, hok⟩ hc => ?_, segmentText_of_not_cramped h hne⟩
  obtain ⟨c, -, -, herror⟩ := segmentText_of_cramped h hc
  rw [hok] at herror
  cases herror

/-! ### Limits that refuse nothing -/

theorem not_narrow_iff : (∀ e, ¬ l.Narrow e) ↔ l.concatHeader + 4 ≤ l.userData := by
  refine ⟨fun hno => ?_, fun hroom e hnarrow => ?_⟩
  · have hwide := hno .ucs2
    simp only [Narrow, reduceCtorEq, false_and, true_and, false_or] at hwide
    omega
  · rcases hnarrow with ⟨-, hnarrow, -⟩ | ⟨-, hnarrow⟩ <;> omega

/-- A text of nothing but surrogate pairs. -/
def surrogatePairs (n : Nat) : List Char :=
  List.replicate n '😀'

theorem textLength_surrogatePairs (n : Nat) : textLength .ucs2 (surrogatePairs n) = 2 * n := by
  have hunits : unitLength .ucs2 '😀' = 2 := by decide
  rw [textLength_eq, surrogatePairs, List.map_replicate, List.sum_replicate_nat, hunits]
  exact Nat.mul_comm n 2

theorem detectEncoding_surrogatePairs {n : Nat} (hn : 0 < n) :
    detectEncoding (surrogatePairs n) = .ucs2 := by
  have hnone : Alphabet.septetLength? '😀' = none := by decide
  refine (detectEncoding_cases _).resolve_left fun hgsm7 => ?_
  have hsome := (detectEncoding_eq_gsm7_iff _).1 hgsm7 '😀'
    (List.mem_replicate.2 ⟨by omega, rfl⟩)
  rw [hnone] at hsome
  cases hsome

theorem cramped_surrogatePairs (hroom : l.userData < l.concatHeader + 4) :
    l.Cramped (surrogatePairs (l.userData + 1)) := by
  have hwide := detectEncoding_surrogatePairs (Nat.succ_pos l.userData)
  refine ⟨?_, ?_, '😀', List.mem_replicate.2 ⟨by omega, rfl⟩, ?_⟩
  · rw [hwide, textLength_surrogatePairs]
    show (l.userData - 0) / 2 < _
    omega
  · rw [hwide]
    exact Or.inr ⟨rfl, hroom⟩
  · rw [hwide]
    show 0x10000 ≤ '😀'.toNat
    decide

/-- **Which texts checked limits refuse**: a text that is not empty is cut unless it is cramped, and
limits cut all of them exactly if they leave four octets beside the header of a longer message. -/
theorem segmentText_of_check (h : l.check = .ok ()) :
    (∀ text : String, text ≠ "" →
      ((∃ parts, l.segmentText text = .ok parts) ↔ ¬ l.Cramped text.toList)) ∧
    ((∀ text : String, text ≠ "" → ∃ parts, l.segmentText text = .ok parts) ↔
      l.concatHeader + 4 ≤ l.userData) := by
  refine ⟨fun text hne => segmentText_eq_ok_iff h hne, fun hall => ?_, fun hroom text hne => ?_⟩
  · refine Nat.le_of_not_lt fun hsmall => ?_
    have hcramped := cramped_surrogatePairs hsmall
    have hne : String.ofList (surrogatePairs (l.userData + 1)) ≠ "" := by
      intro hempty
      have hnil := String.toList_eq_nil_iff.2 hempty
      rw [String.toList_ofList] at hnil
      cases hnil
    refine (segmentText_eq_ok_iff h hne).1 (hall _ hne) ?_
    rw [String.toList_ofList]
    exact hcramped
  · refine segmentText_of_not_cramped h hne fun hc => ?_
    exact not_narrow_iff.2 hroom _ hc.narrow

/-- The standard limits refuse no text, and limits with a single unit beside the header refuse
some. -/
theorem segmentText_of_check_standard :
    (SegmentLimits.standard.check = .ok () ∧
      ∀ text : String, text ≠ "" → ∃ parts, SegmentLimits.standard.segmentText text = .ok parts) ∧
    (SegmentLimits.check ⟨8, 6, 6⟩ = .ok () ∧
      ¬ ∀ text : String, text ≠ "" →
        ∃ parts, SegmentLimits.segmentText ⟨8, 6, 6⟩ text = .ok parts) := by
  refine ⟨⟨rfl, (segmentText_of_check rfl).2.2 (by decide)⟩, rfl, fun hall => ?_⟩
  have hroom := (segmentText_of_check (l := ⟨8, 6, 6⟩) rfl).2.1 hall
  exact absurd hroom (by decide)

/-- Checked limits that refuse three surrogate pairs, and others that refuse six characters of the
extension table. -/
theorem segmentText_refuses_wide :
    (SegmentLimits.check ⟨8, 6, 6⟩ = .ok () ∧
      SegmentLimits.segmentText ⟨8, 6, 6⟩ "😀😀😀" =
        .error (.invalidArgument (.charTooWide 1 '😀'))) ∧
    (SegmentLimits.check ⟨10, 8, 6⟩ = .ok () ∧
      SegmentLimits.segmentText ⟨10, 8, 6⟩ "€€€€€€" =
        .error (.invalidArgument (.charTooWide 1 '€'))) := by
  refine ⟨⟨rfl, ?_⟩, rfl, ?_⟩ <;> rfl

end SegmentLimits

end ShortMessage
