import Mathlib.Algebra.GroupWithZero.Nat
import ShortMessage.Proofs.Alphabet
import ShortMessage.Proofs.Utf16
import ShortMessage.Segment

/-!
# The parts of a text

The greedy cut loses nothing: its pieces are not empty, each fits, and together they are the text.
A piece is cut between characters, so its payload reads back without the others.

* `flatten_pieces`, `ne_nil_of_mem_pieces`, `width_le_of_mem_pieces`: the greedy cut;
* `capacity_multipart_le`: a part of a longer message holds no more than a part of its own;
* `cutText_cases`, `cutText_pieces`: the pieces of a text, cut or not;
* `Rejects`, `segment_eq_error_iff`: the payloads that have no parts;
* `decodeText?`, `payloadUnits`: what a payload spells, and in how many units;
* `map_index_segment`: the parts of a message are numbered from 0 on;
* `segmentText_parts`: the parts of a text.
-/

namespace ShortMessage

/-! ### The greedy cut -/

section pieces

variable (width : Char → Nat)

theorem fill_append (room : Nat) (cs : List Char) :
    (fill width room cs).1 ++ (fill width room cs).2 = cs := by
  induction cs generalizing room with
  | nil => rfl
  | cons c cs ih =>
    simp only [fill]
    split
    · rw [List.cons_append, ih]
    · rfl

theorem width_fill_le (room : Nat) (cs : List Char) :
    ((fill width room cs).1.map width).sum ≤ room := by
  induction cs generalizing room with
  | nil => exact Nat.zero_le room
  | cons c cs ih =>
    simp only [fill]
    split
    · next hc =>
      have hrest := ih (room - width c)
      rw [List.map_cons, List.sum_cons]
      omega
    · exact Nat.zero_le room

/-- **The pieces are the text.** -/
theorem flatten_pieces (capacity : Nat) (text : List Char) :
    (pieces width capacity text).flatten = text := by
  induction text using pieces.induct width capacity with
  | case1 => rw [pieces]; rfl
  | case2 c cs ih =>
    rw [pieces, List.flatten_cons, ih, List.cons_append, fill_append]

theorem ne_nil_of_mem_pieces {capacity : Nat} {text piece : List Char}
    (h : piece ∈ pieces width capacity text) : piece ≠ [] := by
  induction text using pieces.induct width capacity with
  | case1 => rw [pieces] at h; cases h
  | case2 c cs ih =>
    rw [pieces] at h
    rcases List.mem_cons.1 h with rfl | h
    · exact List.cons_ne_nil _ _
    · exact ih h

/-- **Every piece fits**, if every character does. -/
theorem width_le_of_mem_pieces {capacity : Nat} {text piece : List Char}
    (hfit : ∀ c ∈ text, width c ≤ capacity) (h : piece ∈ pieces width capacity text) :
    (piece.map width).sum ≤ capacity := by
  induction text using pieces.induct width capacity with
  | case1 => rw [pieces] at h; cases h
  | case2 c cs ih =>
    have hc : width c ≤ capacity := hfit c List.mem_cons_self
    rw [pieces] at h
    rcases List.mem_cons.1 h with rfl | h
    · have hfill := width_fill_le width (capacity - width c) cs
      rw [List.map_cons, List.sum_cons]
      omega
    · refine ih (fun d hd => hfit d (List.mem_cons_of_mem _ ?_)) h
      rw [← fill_append width (capacity - width c) cs]
      exact List.mem_append_right _ hd

end pieces

theorem textLength_eq (e : Encoding) (text : List Char) :
    textLength e text = (text.map (unitLength e)).sum := by
  induction text with
  | nil => rfl
  | cons c cs ih => rw [textLength, ih, List.map_cons, List.sum_cons]

/-! ### Payloads -/

/-- The text that a payload spells by itself. -/
def decodeText? (e : Encoding) (payload : Octets) : Option (List Char) :=
  match e with
  | .gsm7 => Alphabet.decode? payload
  | .ucs2 | .binary => Utf16.decode? payload

/-- The units of a payload: a septet takes an octet, a wide unit takes two. -/
def payloadUnits (e : Encoding) (payload : Octets) : Nat :=
  match e with
  | .gsm7 => payload.length
  | .ucs2 | .binary => payload.length / 2

/-- An encoding in which every character of a text has its spelling. -/
def Spells (e : Encoding) (text : List Char) : Prop :=
  e = .gsm7 → ∀ c ∈ text, (Alphabet.septetLength? c).isSome = true

/-- **A payload reads back as its text**, and has the units that the characters take. -/
theorem encodeText_spells {e : Encoding} {text : List Char} (h : Spells e text) :
    decodeText? e (encodeText e text) = some text ∧
      payloadUnits e (encodeText e text) = (text.map (unitLength e)).sum := by
  have hwide : (Utf16.encode text).length / 2 = (text.map Utf16.unitCount).sum := by
    rw [Utf16.length_encode]
    omega
  cases e with
  | gsm7 =>
    obtain ⟨codes, hcodes⟩ := Alphabet.encode?_of_isEncodable (h rfl)
    have hencode : encodeText .gsm7 text = codes := by
      unfold encodeText
      rw [hcodes]
      rfl
    rw [hencode]
    exact ⟨Alphabet.decode?_of_encode? hcodes, Alphabet.length_of_encode? hcodes⟩
  | ucs2 => exact ⟨Utf16.decode?_encode text, hwide⟩
  | binary => exact ⟨Utf16.decode?_encode text, hwide⟩

theorem detectEncoding_cases (text : List Char) :
    detectEncoding text = .gsm7 ∨ detectEncoding text = .ucs2 := by
  unfold detectEncoding
  split
  · exact Or.inl rfl
  · exact Or.inr rfl

theorem detectEncoding_eq_gsm7_iff (text : List Char) :
    detectEncoding text = .gsm7 ↔ ∀ c ∈ text, (Alphabet.septetLength? c).isSome = true := by
  rw [← List.all_eq_true (p := fun c => (Alphabet.septetLength? c).isSome)]
  unfold detectEncoding Alphabet.isEncodable
  split
  · next h => simp only [h]
  · next h => simp only [h, reduceCtorEq]

namespace SegmentLimits

variable {l : SegmentLimits}

/-! ### Cutting -/

theorem capacity_multipart_le (l : SegmentLimits) (e : Encoding) :
    l.capacity e true ≤ l.capacity e false := by
  cases e with
  | gsm7 =>
    show l.userData * 8 / 7 - (l.concatHeader * 8 + 6) / 7 ≤ l.userData * 8 / 7 - (0 * 8 + 6) / 7
    omega
  | ucs2 =>
    show (l.userData - l.concatHeader) / 2 ≤ (l.userData - 0) / 2
    omega
  | binary => exact Nat.le_refl _

/-- **A text that is cut** fits into one part, or it does not and all its characters fit into the
parts of a longer message. -/
theorem cutText_cases {e : Encoding} {text : List Char} {texts : List (List Char)}
    (h : l.cutText e text = .ok texts) :
    (textLength e text ≤ l.capacity e false ∧ texts = [text]) ∨
    (l.capacity e false < textLength e text ∧ (∀ c ∈ text, unitLength e c ≤ l.capacity e true) ∧
      texts = pieces (unitLength e) (l.capacity e true) text) := by
  unfold cutText at h
  split at h
  · next hfits => exact Or.inl ⟨hfits, (Except.ok.inj h).symm⟩
  · next hlong =>
    simp only at h
    split at h
    · cases h
    · next hnone =>
      refine Or.inr ⟨Nat.lt_of_not_le hlong, fun c hc => ?_, (Except.ok.inj h).symm⟩
      have hwide := List.find?_eq_none.1 hnone c hc
      simpa using hwide

/-- **The pieces of a text** are the text, none is empty, and each fits into its part. -/
theorem cutText_pieces {e : Encoding} {text : List Char} {texts : List (List Char)}
    (hne : text ≠ []) (h : l.cutText e text = .ok texts) :
    texts.flatten = text ∧ ∀ piece ∈ texts, piece ≠ [] ∧
      (piece.map (unitLength e)).sum ≤ l.capacity e (decide (1 < texts.length)) := by
  rcases cutText_cases h with ⟨hfits, rfl⟩ | ⟨-, hchar, rfl⟩
  · refine ⟨by simp, fun piece hpiece => ?_⟩
    obtain rfl := List.mem_singleton.1 hpiece
    rw [textLength_eq] at hfits
    exact ⟨hne, hfits⟩
  · refine ⟨flatten_pieces _ _ text, fun piece hpiece => ⟨ne_nil_of_mem_pieces _ hpiece, ?_⟩⟩
    have hfits := width_le_of_mem_pieces (unitLength e) hchar hpiece
    -- a single piece has more room, and so fits all the more
    cases decide (1 < (pieces (unitLength e) (l.capacity e true) text).length) with
    | true => exact hfits
    | false => exact Nat.le_trans hfits (capacity_multipart_le l e)

/-- **A text that cannot be cut**: it is longer than one part, and `c` is its first character that
is wider than a part of a longer message. -/
structure Uncuttable (l : SegmentLimits) (e : Encoding) (text : List Char) (c : Char) : Prop where
  long : l.capacity e false < textLength e text
  first : ∃ before after, text = before ++ c :: after ∧
    ∀ b ∈ before, unitLength e b ≤ l.capacity e true
  wide : l.capacity e true < unitLength e c

theorem cutText_eq_error_iff {e : Encoding} {text : List Char} {f : Failure} :
    l.cutText e text = .error f ↔
      ∃ c, l.Uncuttable e text c ∧ f = .invalidArgument (.charTooWide (l.capacity e true) c) := by
  unfold cutText
  split
  · next hfits =>
    constructor
    · intro h
      cases h
    · rintro ⟨c, hc, -⟩
      exact absurd hfits (Nat.not_le_of_lt hc.long)
  · next hlong =>
    have hfind : ∀ c, text.find? (l.capacity e true < unitLength e ·) = some c ↔
        l.Uncuttable e text c := by
      intro c
      simp only [List.find?_eq_some_iff_append, Bool.not_eq_true', decide_eq_true_eq,
        decide_eq_false_iff_not, Nat.not_lt]
      exact ⟨fun ⟨hwide, hfirst⟩ => ⟨Nat.lt_of_not_le hlong, hfirst, hwide⟩,
        fun h => ⟨h.wide, h.first⟩⟩
    simp only
    split
    · next c hc =>
      constructor
      · intro h
        exact ⟨c, (hfind c).1 hc, (Except.error.inj h).symm⟩
      · rintro ⟨c', hc', rfl⟩
        rw [(hfind c').2 hc', Option.some.injEq] at hc
        rw [hc]
    · next hnone =>
      constructor
      · intro h
        cases h
      · rintro ⟨c, hc, -⟩
        rw [(hfind c).2 hc] at hnone
        cases hnone

theorem pieces_of_segmentText {text : String} {parts : List Part}
    (h : l.segmentText text = .ok parts) :
    text.toList ≠ [] ∧ ∃ texts,
      l.cutText (detectEncoding text.toList) text.toList = .ok texts ∧
        parts = partsOfPieces (detectEncoding text.toList) texts := by
  unfold segmentText at h
  split at h
  · cases h
  · next c cs hcs =>
    rw [hcs]
    refine ⟨List.cons_ne_nil c cs, ?_⟩
    cases hcut : l.cutText (detectEncoding (c :: cs)) (c :: cs) with
    | error f =>
      simp only [hcut] at h
      cases h
    | ok texts =>
      simp only [hcut] at h
      exact ⟨texts, rfl, (Except.ok.inj h).symm⟩

theorem part_of_segmentData {octets : Octets} {port : Option UInt16} {parts : List Part}
    (h : l.segmentData octets port = .ok parts) :
    octets ≠ [] ∧ octets.length ≤ l.dataLimit port ∧
      parts = [⟨0, 1, .binary, none, octets, port⟩] := by
  unfold segmentData at h
  split at h
  · cases h
  · next hne =>
    split at h
    · cases h
    · next hfits =>
      exact ⟨fun hnil => hne (List.isEmpty_iff.2 hnil), Nat.le_of_not_lt hfits,
        (Except.ok.inj h).symm⟩

/-- Why a payload is refused: there is nothing in it, a text cannot be cut, or a datum does not fit
whole. -/
inductive Rejects (l : SegmentLimits) : Payload → Failure → Prop
  | noText : Rejects l (.text "") (.invalidArgument .noText)
  | uncuttable {body : String} {c : Char}
      (h : l.Uncuttable (detectEncoding body.toList) body.toList c) :
    Rejects l (.text body)
      (.invalidArgument (.charTooWide (l.capacity (detectEncoding body.toList) true) c))
  | noData (port : Option UInt16) : Rejects l (.data [] port) (.invalidArgument .noData)
  | dataTooLong {octets : Octets} {port : Option UInt16}
      (h : l.dataLimit port < octets.length) :
    Rejects l (.data octets port)
      (.invalidArgument (.dataTooLong octets.length (l.dataLimit port)))

theorem segmentText_eq_error_iff {text : String} {f : Failure} :
    l.segmentText text = .error f ↔ l.Rejects (.text text) f := by
  unfold segmentText
  split
  · next hnil =>
    obtain rfl := String.toList_eq_nil_iff.1 hnil
    constructor
    · intro h
      obtain rfl := Except.error.inj h
      exact .noText
    · rintro (_ | ⟨⟨-, ⟨before, after, htext, -⟩, -⟩⟩)
      · rfl
      · rw [hnil] at htext
        exact absurd htext.symm (List.append_ne_nil_of_right_ne_nil _ (List.cons_ne_nil _ _))
  · next c cs hcons =>
    rw [← hcons]
    constructor
    · intro h
      cases hcut : l.cutText (detectEncoding text.toList) text.toList with
      | ok texts =>
        simp only [hcut] at h
        cases h
      | error f' =>
        simp only [hcut] at h
        obtain rfl := Except.error.inj h
        obtain ⟨c, hc, rfl⟩ := cutText_eq_error_iff.1 hcut
        exact .uncuttable hc
    · rintro (_ | ⟨hc⟩)
      · cases hcons
      · simp only [cutText_eq_error_iff.2 ⟨_, hc, rfl⟩]
        rfl

theorem segmentData_eq_error_iff {octets : Octets} {port : Option UInt16} {f : Failure} :
    l.segmentData octets port = .error f ↔ l.Rejects (.data octets port) f := by
  unfold segmentData
  constructor
  · intro h
    split at h
    · next hnone =>
      obtain rfl := List.isEmpty_iff.1 hnone
      obtain rfl := Except.error.inj h
      exact .noData port
    · split at h
      · next hlong =>
        obtain rfl := Except.error.inj h
        exact .dataTooLong hlong
      · cases h
  · rintro (_ | _ | _ | ⟨hlong⟩)
    · rfl
    · have hsome : octets.isEmpty = false := by
        cases octets with
        | nil => exact absurd hlong (Nat.not_lt_zero _)
        | cons o os => rfl
      rw [hsome, if_neg Bool.false_ne_true, if_pos hlong]

/-- **Why a payload has no parts.** -/
theorem segment_eq_error_iff {p : Payload} {f : Failure} :
    l.segment p = .error f ↔ l.Rejects p f := by
  cases p with
  | text body => exact segmentText_eq_error_iff
  | data octets port => exact segmentData_eq_error_iff

/-! ### Parts -/

theorem length_partsOfPieces (e : Encoding) (texts : List (List Char)) :
    (partsOfPieces e texts).length = texts.length :=
  List.length_mapIdx

theorem map_index_partsOfPieces (e : Encoding) (texts : List (List Char)) :
    (partsOfPieces e texts).map Part.index = List.range texts.length := by
  unfold partsOfPieces
  refine List.ext_getElem (by simp) fun i _ _ => ?_
  simp

theorem map_text_partsOfPieces (e : Encoding) (texts : List (List Char)) :
    (partsOfPieces e texts).map Part.text = texts.map fun piece => some (String.ofList piece) := by
  unfold partsOfPieces
  refine List.ext_getElem (by simp) fun i _ _ => ?_
  simp

/-- **The parts of a message are numbered from 0 on.** -/
theorem map_index_segment {p : Payload} {parts : List Part} (h : l.segment p = .ok parts) :
    parts.map Part.index = List.range parts.length := by
  cases p with
  | text body =>
    obtain ⟨-, texts, -, rfl⟩ := pieces_of_segmentText h
    rw [map_index_partsOfPieces, length_partsOfPieces]
  | data octets port =>
    obtain ⟨-, -, rfl⟩ := part_of_segmentData h
    rfl

/-- **A payload that has parts** is not empty, and neither are its parts. -/
theorem nonempty_of_segment {p : Payload} {parts : List Part} (h : l.segment p = .ok parts) :
    p.isEmpty = false ∧ parts ≠ [] := by
  cases p with
  | text body =>
    obtain ⟨hne, texts, hcut, rfl⟩ := pieces_of_segmentText h
    refine ⟨by simpa [Payload.isEmpty] using hne, fun hnil => hne ?_⟩
    have hlen := length_partsOfPieces (detectEncoding body.toList) texts
    rw [hnil, List.length_nil, eq_comm, List.length_eq_zero_iff] at hlen
    rw [← (cutText_pieces hne hcut).1, hlen]
    rfl
  | data octets port =>
    obtain ⟨hne, -, rfl⟩ := part_of_segmentData h
    exact ⟨List.isEmpty_eq_false_iff.2 hne, List.cons_ne_nil _ _⟩

theorem join_ofList (texts : List (List Char)) :
    String.join (texts.map String.ofList) = String.ofList texts.flatten := by
  induction texts with
  | nil => rfl
  | cons piece texts ih =>
    rw [List.map_cons, String.join_cons, ih, List.flatten_cons, String.ofList_append]

/-- **A part of a text** that is cut into `total` parts of one encoding. -/
structure Carries (l : SegmentLimits) (e : Encoding) (total : Nat) (p : Part)
    (piece : List Char) : Prop where
  total_eq : p.total = total
  encoding_eq : p.encoding = e
  text_eq : p.text = some (String.ofList piece)
  nonempty : piece ≠ []
  /-- The payload reads back without the other parts. -/
  decoded : decodeText? e p.payload = some piece
  units : payloadUnits e p.payload = (piece.map (unitLength e)).sum
  fits : payloadUnits e p.payload ≤ l.capacity e (decide (1 < total))

theorem exists_piece_of_mem_partsOfPieces {e : Encoding} {texts : List (List Char)} {p : Part}
    (h : p ∈ partsOfPieces e texts) :
    ∃ piece ∈ texts, p.total = texts.length ∧ p.encoding = e ∧
      p.text = some (String.ofList piece) ∧ p.payload = encodeText e piece := by
  unfold partsOfPieces at h
  obtain ⟨i, hi, rfl⟩ := List.mem_mapIdx.1 h
  exact ⟨texts[i], List.getElem_mem hi, rfl, rfl, rfl, rfl⟩

theorem Carries.isMultipart_eq {e : Encoding} {total : Nat} {p : Part} {piece : List Char}
    (h : Carries l e total p piece) : p.isMultipart = decide (1 < total) := by
  unfold Part.isMultipart
  rw [h.total_eq]

theorem isMultipart_of_mem_partsOfPieces {e : Encoding} {texts : List (List Char)} {p : Part}
    (h : p ∈ partsOfPieces e texts) : p.isMultipart = decide (1 < texts.length) := by
  obtain ⟨-, -, htotal, -⟩ := exists_piece_of_mem_partsOfPieces h
  unfold Part.isMultipart
  rw [htotal]

theorem port_of_mem_partsOfPieces {e : Encoding} {texts : List (List Char)} {p : Part}
    (h : p ∈ partsOfPieces e texts) : p.port = none := by
  unfold partsOfPieces at h
  obtain ⟨i, hi, rfl⟩ := List.mem_mapIdx.1 h
  rfl

/-- **A part of a text carries its piece.** -/
theorem exists_carries {text : String} {parts : List Part} (h : l.segmentText text = .ok parts)
    {p : Part} (hp : p ∈ parts) :
    ∃ piece, Carries l (detectEncoding text.toList) parts.length p piece := by
  obtain ⟨hne, texts, hcut, rfl⟩ := pieces_of_segmentText h
  obtain ⟨hflat, hpieces⟩ := cutText_pieces hne hcut
  obtain ⟨piece, hpiece, htotal, hencoding, htext, hpayload⟩ :=
    exists_piece_of_mem_partsOfPieces hp
  obtain ⟨hnonempty, hfits⟩ := hpieces piece hpiece
  have hspells : Spells (detectEncoding text.toList) piece := by
    intro he c hc
    refine (detectEncoding_eq_gsm7_iff text.toList).1 he c ?_
    rw [← hflat]
    exact List.mem_flatten_of_mem hpiece hc
  obtain ⟨hdecoded, hunits⟩ := encodeText_spells hspells
  rw [length_partsOfPieces]
  rw [← hpayload] at hdecoded hunits
  exact ⟨piece, htotal, hencoding, htext, hnonempty, hdecoded, hunits, hunits ▸ hfits⟩

/-- **The parts of a text.**  All have one encoding: septets exactly if every character of the whole
text has a septet length, and wide units otherwise.  They are numbered from 0 on, their texts are
the text, none of them is empty, and each payload reads back as its piece by itself; the units of a
payload are those of the characters of its piece, and fit. -/
theorem segmentText_parts {text : String} {parts : List Part}
    (h : l.segmentText text = .ok parts) :
    ∃ e : Encoding, (e = .gsm7 ∨ e = .ucs2) ∧
      (e = .gsm7 ↔ ∀ c ∈ text.toList, (Alphabet.septetLength? c).isSome = true) ∧
      parts.map Part.index = List.range parts.length ∧
      (∃ texts : List String, parts.map Part.text = texts.map some ∧ String.join texts = text) ∧
      ∀ p ∈ parts, ∃ piece, Carries l e parts.length p piece := by
  refine ⟨detectEncoding text.toList, detectEncoding_cases _,
    detectEncoding_eq_gsm7_iff text.toList, ?_, ?_, fun p hp => exists_carries h hp⟩
  · obtain ⟨-, texts, -, rfl⟩ := pieces_of_segmentText h
    rw [map_index_partsOfPieces, length_partsOfPieces]
  · obtain ⟨hne, texts, hcut, rfl⟩ := pieces_of_segmentText h
    refine ⟨texts.map String.ofList, ?_, ?_⟩
    · rw [map_text_partsOfPieces, List.map_map]
      rfl
    · rw [join_ofList, (cutText_pieces hne hcut).1, String.ofList_toList]

/-- Parts of two wide units: the surrogates in the middle share a part. -/
theorem segmentText_parts_surrogates :
    ∃ parts, SegmentLimits.segmentText ⟨4, 0, 0⟩ "a😀b" = .ok parts ∧
      parts.map Part.payload = [[0, 97], [216, 61, 222, 0], [0, 98]] ∧
      ∀ p ∈ parts, ∃ piece, Carries ⟨4, 0, 0⟩ .ucs2 parts.length p piece := by
  have h : SegmentLimits.segmentText ⟨4, 0, 0⟩ "a😀b" = .ok [
      ⟨0, 3, .ucs2, some "a", [0, 97], none⟩,
      ⟨1, 3, .ucs2, some "😀", [216, 61, 222, 0], none⟩,
      ⟨2, 3, .ucs2, some "b", [0, 98], none⟩] := by
    have hlist : "a😀b".toList = ['a', '😀', 'b'] := rfl
    have hdetect : detectEncoding ['a', '😀', 'b'] = .ucs2 := by decide
    have hpieces : pieces (unitLength .ucs2) 2 ['a', '😀', 'b'] = [['a'], ['😀'], ['b']] := by
      simp [pieces, fill, unitLength, Utf16.unitCount]
    have hcut : SegmentLimits.cutText ⟨4, 0, 0⟩ .ucs2 ['a', '😀', 'b'] =
        .ok [['a'], ['😀'], ['b']] := by
      rw [← hpieces]
      rfl
    simp only [segmentText, hlist, hdetect, hcut]
    rfl
  refine ⟨_, h, rfl, ?_⟩
  obtain ⟨e, he, hgsm7, -, -, hparts⟩ := segmentText_parts h
  have hwide : Alphabet.septetLength? '😀' = none := by decide
  have hne : e ≠ .gsm7 := by
    intro heq
    have hsome := hgsm7.1 heq '😀' (by simp)
    rw [hwide] at hsome
    cases hsome
  obtain rfl := he.resolve_left hne
  exact hparts

end SegmentLimits

end ShortMessage
