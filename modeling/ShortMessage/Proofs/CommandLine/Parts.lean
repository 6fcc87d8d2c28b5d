import ShortMessage.CommandLine.Run
import ShortMessage.Proofs.Segment.Wire

/-!
# Parts as they are shown

A text that is cut is shown part by part, and each line gives a length, said to be in units.  It is
the length of the payload in octets.  A septet takes one octet there, so a text of septets is shown
with the units that were counted when it was cut; a wide unit takes two, so every part of a wide
text is shown with twice its units.

* `countedUnits`: the units that were counted for a part;
* `shownLength_eq`: what is shown for it;
* `shown_iff_septets`: the texts whose parts are shown with their units.
-/

namespace ShortMessage.CommandLine

open SegmentLimits

/-- The units that the characters of a part take in its encoding. -/
def countedUnits (p : Part) : Nat :=
  textLength p.encoding (p.text.getD "").toList

/-- **A part of a text is shown with the octets of its payload**, and its units fit into a part. -/
theorem shownLength_eq {l : SegmentLimits} {text : String} {parts : List Part}
    (h : l.segment (.text text) = .ok parts) {p : Part} (hp : p ∈ parts) :
    p.encoding = detectEncoding text.toList ∧ 0 < countedUnits p ∧
      shownLength p = octetsPerUnit p.encoding * countedUnits p ∧
      countedUnits p ≤ l.capacity p.encoding p.isMultipart := by
  obtain ⟨hne, texts, hcut, rfl⟩ := pieces_of_segmentText h
  obtain ⟨hflat, hpieces⟩ := cutText_pieces hne hcut
  have hmultipart := isMultipart_of_mem_partsOfPieces hp
  obtain ⟨piece, hpiece, -, hencoding, htext, hpayload⟩ := exists_piece_of_mem_partsOfPieces hp
  obtain ⟨hnonempty, hfits⟩ := hpieces piece hpiece
  have hbinary : detectEncoding text.toList ≠ .binary := by
    rcases detectEncoding_cases text.toList with he | he <;> rw [he] <;> decide
  have hcounted : countedUnits p = textLength (detectEncoding text.toList) piece := by
    unfold countedUnits
    rw [hencoding, htext, Option.getD_some, String.toList_ofList]
  rw [hencoding, hcounted, hmultipart]
  refine ⟨rfl, textLength_pos _ hnonempty, ?_, ?_⟩
  · unfold shownLength
    rw [hpayload]
    exact length_encodeText hbinary (spells_of_mem_flatten hflat hpiece)
  · rw [textLength_eq]
    exact hfits

/-- **The parts of a text are shown with the units that were counted for them**, exactly if the text
is one of septets.  Otherwise each is shown with twice its units, which may be more than a part has
room for. -/
theorem shown_iff_septets (settings : Settings) {text : String} {parts : List Part}
    (h : settings.limits.segment (.text text) = .ok parts) :
    (∃ heading, segment settings text = .ok (heading :: parts.map partLine)) ∧
    (∀ p ∈ parts, partLine p =
      s!"[{p.index + 1}/{p.total}] {octetsPerUnit p.encoding * countedUnits p} 单元: " ++
        Text.quoteText (p.text.getD "")) ∧
    (∀ p ∈ parts, countedUnits p ≤ settings.limits.capacity p.encoding p.isMultipart) ∧
    (∀ p ∈ parts, shownLength p = countedUnits p ↔ detectEncoding text.toList = .gsm7) ∧
    (∀ p ∈ parts, shownLength p ≤ settings.limits.capacity p.encoding p.isMultipart ↔
      detectEncoding text.toList = .gsm7 ∨
        2 * countedUnits p ≤ settings.limits.capacity p.encoding p.isMultipart) := by
  refine ⟨?_, fun p hp => ?_, fun p hp => (shownLength_eq h hp).2.2.2, fun p hp => ?_,
    fun p hp => ?_⟩
  · unfold segment
    rw [h]
    exact ⟨_, rfl⟩
  · rw [← (shownLength_eq h hp).2.2.1]
    rfl
  · obtain ⟨hencoding, hpos, hshown, -⟩ := shownLength_eq h hp
    rw [hshown, hencoding]
    rcases detectEncoding_cases text.toList with he | he <;> rw [he]
    · simp [octetsPerUnit]
    · simp only [octetsPerUnit, reduceCtorEq, iff_false]
      omega
  · obtain ⟨hencoding, -, hshown, hfits⟩ := shownLength_eq h hp
    rw [hshown]
    rw [hencoding] at hfits ⊢
    rcases detectEncoding_cases text.toList with he | he <;> rw [he] at hfits ⊢
    · simpa [octetsPerUnit] using hfits
    · simp [octetsPerUnit]

/-- A wide character is one unit, and is shown as two. -/
theorem shown_iff_septets_wide :
    ∃ parts, Settings.standard.limits.segment (.text "中") = .ok parts ∧
      segment .standard "中" = .ok ["编码: Ucs2，分段数: 1", "[1/1] 2 单元: \"中\""] ∧
      ∀ p ∈ parts, shownLength p = countedUnits p ↔ detectEncoding "中".toList = .gsm7 := by
  have h : Settings.standard.limits.segment (.text "中") =
      .ok [⟨0, 1, .ucs2, some "中", [0x4E, 0x2D], none⟩] := by rfl
  exact ⟨_, h, by decide +kernel, (shown_iff_septets .standard h).2.2.2.1⟩

/-- A wide character is shown with more units than were counted for it. -/
theorem shown_units_doubled :
    ¬ ∀ (settings : Settings) (text : String) (parts : List Part),
      settings.limits.segment (.text text) = .ok parts →
        ∀ p ∈ parts, shownLength p = countedUnits p := by
  intro hall
  have h : Settings.standard.limits.segment (.text "中") =
      .ok [⟨0, 1, .ucs2, some "中", [0x4E, 0x2D], none⟩] := by rfl
  have hdouble : 2 = 1 := hall .standard "中" _ h _ List.mem_cons_self
  cases hdouble

end ShortMessage.CommandLine
