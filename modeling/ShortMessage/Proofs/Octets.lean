import ShortMessage.Octets

/-!
# What a hexadecimal text spells

A text is read as octets exactly if its characters, less the blanks, are pairs of which each spells
an octet: two digits of either case, or a plus sign and one digit.  Without plus signs the text is
the written form of its octets, but for the case of letters and for blanks; a text with a plus sign
that is read is not.

* `digitValue?_eq_some_iff`, `pairValue?_eq_some_iff`: digits and pairs;
* `SpellsOctet`, `Spells`: what two characters spell, and what a list of them does;
* `ofHex_eq_ok_iff`: what is read as octets;
* `spells_iff_of_digits`: pairs of digits spell what they are written for;
* `ofHex_faithful_iff`: when a text that is read is the written form of what is read;
* `Respells`, `RespellsHex`, `writes_of_respells`: a text with blanks put in and letters in either
  case.
-/

namespace ShortMessage.Octets

/-! ### Digits -/

/-- A hexadecimal digit, of either case. -/
def isHexDigit (c : Char) : Bool :=
  c.isDigit || ('a' ≤ c && c ≤ 'f') || ('A' ≤ c && c ≤ 'F')

theorem not_digit_of_le {c : Char} (h : 128 ≤ c.toNat) :
    digitValue? c = none ∧ isHexDigit c = false := by
  have hgt (d : Char) (hd : d.toNat < 128) : ¬ c ≤ d := fun hle => by
    have hle : c.toNat ≤ d.toNat := hle
    omega
  have h9 : ¬ c ≤ '9' := hgt _ (by decide)
  have hf : ¬ c ≤ 'f' := hgt _ (by decide)
  have hF : ¬ c ≤ 'F' := hgt _ (by decide)
  have hdigit : c.isDigit = false := by
    rw [Char.isDigit, Bool.and_eq_false_iff]
    exact Or.inr (decide_eq_false h9)
  exact ⟨by simp [digitValue?, h9, hf, hF], by simp [isHexDigit, hdigit, hf, hF]⟩

theorem digitValue?_ascii : ∀ i < 128,
    isHexDigit (.ofNat i) = (digitValue? (.ofNat i)).isSome ∧
      ∀ n ∈ digitValue? (.ofNat i), n < 16 ∧ upperDigit n = (Char.ofNat i).toUpper := by
  decide +kernel

theorem isHexDigit_eq (c : Char) : isHexDigit c = (digitValue? c).isSome := by
  by_cases hc : c.toNat < 128
  · have hascii := (digitValue?_ascii c.toNat hc).1
    rwa [Char.ofNat_toNat] at hascii
  · obtain ⟨hvalue, hdigit⟩ := not_digit_of_le (Nat.le_of_not_lt hc)
    rw [hvalue, hdigit]
    rfl

/-- **The value of a digit** is the one that the digit is the numeral of, but for its case. -/
theorem upperDigit_of_digitValue? {c : Char} {n : UInt8} (h : digitValue? c = some n) :
    n < 16 ∧ upperDigit n = c.toUpper := by
  by_cases hc : c.toNat < 128
  · have hascii := (digitValue?_ascii c.toNat hc).2
    rw [Char.ofNat_toNat] at hascii
    exact hascii n h
  · rw [(not_digit_of_le (Nat.le_of_not_lt hc)).1] at h
    cases h

theorem upperDigit_injective : ∀ i < 16, ∀ j < 16,
    upperDigit (.ofNat i) = upperDigit (.ofNat j) → i = j := by
  decide +kernel

theorem eq_of_upperDigit_eq {m n : UInt8} (hm : m < 16) (hn : n < 16)
    (h : upperDigit m = upperDigit n) : m = n := by
  have heq := upperDigit_injective m.toNat hm n.toNat hn (by simpa using h)
  exact UInt8.toNat_inj.1 heq

/-! ### Pairs -/

/-- **What two characters spell**: two digits spell the octet that is written so in upper case, and
a plus sign does the same as a zero. -/
inductive SpellsOctet : Char → Char → UInt8 → Prop
  | digits {high low : Char} {b : UInt8} (hhigh : isHexDigit high = true)
    (hlow : isHexDigit low = true) (hupper : [high.toUpper, low.toUpper] = hexPair b) :
    SpellsOctet high low b
  | plus {low : Char} {b : UInt8} (hlow : isHexDigit low = true)
    (hupper : ['0', low.toUpper] = hexPair b) : SpellsOctet '+' low b

theorem halves_lt (b : UInt8) : b / 16 < 16 ∧ b % 16 < 16 := by
  rw [UInt8.lt_iff_toNat_lt, UInt8.lt_iff_toNat_lt, UInt8.toNat_div, UInt8.toNat_mod]
  exact ⟨Nat.div_lt_of_lt_mul b.toNat_lt, Nat.mod_lt _ (by decide)⟩

theorem hexPair_eq_iff {h l b : UInt8} (hh : h < 16) (hl : l < 16) :
    [upperDigit h, upperDigit l] = hexPair b ↔ 16 * h + l = b := by
  obtain ⟨hdiv, hmod⟩ := halves_lt b
  have hsplit : 16 * h + l = b ↔ h = b / 16 ∧ l = b % 16 := by
    simp only [← UInt8.toNat_inj, UInt8.toNat_add, UInt8.toNat_mul, UInt8.toNat_div,
      UInt8.toNat_mod]
    rw [UInt8.lt_iff_toNat_lt] at hh hl
    have := b.toNat_lt
    change h.toNat < 16 at hh
    change l.toNat < 16 at hl
    change (16 * h.toNat % 2 ^ 8 + l.toNat) % 2 ^ 8 = b.toNat ↔
      h.toNat = b.toNat / 16 ∧ l.toNat = b.toNat % 16
    omega
  rw [hsplit]
  unfold hexPair
  constructor
  · intro heq
    obtain ⟨heq, htail⟩ := List.cons.inj heq
    exact ⟨eq_of_upperDigit_eq hh hdiv heq, eq_of_upperDigit_eq hl hmod (List.cons.inj htail).1⟩
  · rintro ⟨rfl, rfl⟩
    rfl

/-- After a first digit of the value `m` a second one completes an octet. -/
theorem exists_digitValue?_iff {m b : UInt8} (hm : m < 16) {low : Char} :
    (∃ n, digitValue? low = some n ∧ 16 * m + n = b) ↔
      isHexDigit low = true ∧ [upperDigit m, low.toUpper] = hexPair b := by
  rw [isHexDigit_eq, Option.isSome_iff_exists]
  constructor
  · rintro ⟨n, hn, hb⟩
    obtain ⟨hn16, hupper⟩ := upperDigit_of_digitValue? hn
    exact ⟨⟨n, hn⟩, hupper ▸ (hexPair_eq_iff hm hn16).2 hb⟩
  · rintro ⟨⟨n, hn⟩, hpair⟩
    obtain ⟨hn16, hupper⟩ := upperDigit_of_digitValue? hn
    exact ⟨n, hn, (hexPair_eq_iff hm hn16).1 (hupper ▸ hpair)⟩

theorem pairValue?_plus (low : Char) : pairValue? '+' low = digitValue? low := if_pos rfl

theorem pairValue?_of_ne {high : Char} (h : high ≠ '+') (low : Char) {b : UInt8} :
    pairValue? high low = some b ↔
      ∃ m, digitValue? high = some m ∧ ∃ n, digitValue? low = some n ∧ 16 * m + n = b := by
  unfold pairValue?
  rw [if_neg h]
  simp only [bind, pure, Option.bind_eq_some_iff, Option.some.injEq]

/-- **A pair is read as what it spells.** -/
theorem pairValue?_eq_some_iff {high low : Char} {b : UInt8} :
    pairValue? high low = some b ↔ SpellsOctet high low b := by
  by_cases hplus : high = '+'
  · subst hplus
    have hzero : (∃ n, digitValue? low = some n ∧ 16 * 0 + n = b) ↔
        isHexDigit low = true ∧ ['0', low.toUpper] = hexPair b := exists_digitValue?_iff (by decide)
    rw [pairValue?_plus]
    constructor
    · intro h
      obtain ⟨hlow, hpair⟩ := hzero.1 ⟨b, h, by simp⟩
      exact .plus hlow hpair
    · intro h
      cases h with
      | digits hhigh hlow hupper => cases hhigh
      | plus hlow hupper =>
        obtain ⟨n, hn, rfl⟩ := hzero.2 ⟨hlow, hupper⟩
        simpa using hn
  · rw [pairValue?_of_ne hplus]
    constructor
    · rintro ⟨m, hm, h⟩
      obtain ⟨hm16, hupper⟩ := upperDigit_of_digitValue? hm
      obtain ⟨hlow, hpair⟩ := (exists_digitValue?_iff hm16).1 h
      exact .digits (by rw [isHexDigit_eq, hm]; rfl) hlow (hupper ▸ hpair)
    · intro h
      cases h with
      | plus hlow hupper => exact absurd rfl hplus
      | digits hhigh hlow hpair =>
        rw [isHexDigit_eq, Option.isSome_iff_exists] at hhigh
        obtain ⟨m, hm⟩ := hhigh
        obtain ⟨hm16, hupper⟩ := upperDigit_of_digitValue? hm
        exact ⟨m, hm, (exists_digitValue?_iff hm16).2 ⟨hlow, hupper ▸ hpair⟩⟩

/-! ### Texts -/

/-- **What a list of characters spells**, pair by pair. -/
inductive Spells : List Char → Octets → Prop
  | nil : Spells [] []
  | pair {high low : Char} {b : UInt8} {chars : List Char} {bytes : Octets}
    (hpair : SpellsOctet high low b) (hrest : Spells chars bytes) :
    Spells (high :: low :: chars) (b :: bytes)

/-- The characters of a text that are not blank. -/
def visible (text : String) : List Char :=
  text.toList.filter (!Text.isBlank ·)

theorem ofPairs_eq_ok_iff {text : String} {chars : List Char} {bytes : Octets} :
    ofPairs text chars = .ok bytes ↔ Spells chars bytes := by
  induction chars using ofPairs.induct generalizing bytes with
  | case1 =>
    constructor
    · rintro ⟨⟩
      exact .nil
    · rintro ⟨⟩
      rfl
  | case2 c =>
    constructor <;> rintro ⟨⟩
  | case3 high low rest hnone =>
    rw [ofPairs, hnone]
    constructor
    · rintro ⟨⟩
    · intro h
      cases h with
      | pair hpair hrest =>
        rw [pairValue?_eq_some_iff.2 hpair] at hnone
        cases hnone
  | case4 high low rest b hb ih =>
    rw [ofPairs, hb]
    constructor
    · intro h
      cases hrest : ofPairs text rest with
      | error fault =>
        rw [hrest] at h
        cases h
      | ok bytes' =>
        rw [hrest] at h
        cases h
        exact .pair (pairValue?_eq_some_iff.1 hb) (ih.1 hrest)
    · intro h
      cases h with
      | pair hpair hrest =>
        rw [pairValue?_eq_some_iff.2 hpair] at hb
        obtain rfl := Option.some.inj hb
        simp only [ih.2 hrest]
        rfl

theorem Spells.length {chars : List Char} {bytes : Octets} (h : Spells chars bytes) :
    chars.length = 2 * bytes.length := by
  induction h with
  | nil => rfl
  | pair hpair hrest ih =>
    simp only [List.length_cons, ih]
    omega

theorem ofHex_eq (text : String) :
    ofHex text = if (visible text).length % 2 = 1 then .error (.oddLength text)
      else ofPairs text (visible text) := rfl

/-- **A text is read as what its visible characters spell.** -/
theorem ofHex_eq_ok_iff {text : String} {bytes : Octets} :
    ofHex text = .ok bytes ↔ Spells (visible text) bytes := by
  rw [ofHex_eq]
  by_cases hodd : (visible text).length % 2 = 1
  · refine iff_of_false ?_ fun h => ?_
    · rw [if_pos hodd]
      exact nofun
    · rw [h.length] at hodd
      omega
  · rw [if_neg hodd]
    exact ofPairs_eq_ok_iff

theorem ofHex_of_odd {text : String} (h : (visible text).length % 2 = 1) :
    ofHex text = .error (.oddLength text) :=
  if_pos h

/-! ### Plus signs -/

theorem SpellsOctet.mem {high low : Char} {b : UInt8} (h : SpellsOctet high low b) :
    (isHexDigit high = true ∨ high = '+') ∧ isHexDigit low = true := by
  cases h with
  | digits hhigh hlow hupper => exact ⟨Or.inl hhigh, hlow⟩
  | plus hlow hupper => exact ⟨Or.inr rfl, hlow⟩

theorem Spells.of_mem {chars : List Char} {bytes : Octets} (h : Spells chars bytes) {c : Char}
    (hc : c ∈ chars) : isHexDigit c = true ∨ c = '+' := by
  induction h with
  | nil => cases hc
  | pair hpair hrest ih =>
    rcases List.mem_cons.1 hc with rfl | hc
    · exact hpair.mem.1
    · rcases List.mem_cons.1 hc with rfl | hc
      · exact Or.inl hpair.mem.2
      · exact ih hc

/-- **Digits spell what they are written for.** -/
theorem spells_iff_of_digits {chars : List Char} (h : ∀ c ∈ chars, isHexDigit c = true)
    {bytes : Octets} :
    Spells chars bytes ↔ chars.map Char.toUpper = bytes.flatMap hexPair := by
  constructor
  · intro hspells
    induction hspells with
    | nil => rfl
    | @pair high low b chars bytes hpair hrest ih =>
      simp only [List.forall_mem_cons] at h
      cases hpair with
      | plus hlow hupper => cases h.1
      | digits hhigh hlow hupper =>
        rw [List.flatMap_cons, ← hupper, ← ih h.2.2]
        rfl
  · intro hupper
    induction bytes generalizing chars with
    | nil =>
      obtain rfl := List.map_eq_nil_iff.1 hupper
      exact .nil
    | cons b bytes ih =>
      obtain ⟨high, rest, rfl, hhigh, hrest⟩ := List.map_eq_cons_iff.1 hupper
      obtain ⟨low, chars, rfl, hlow, hrest⟩ := List.map_eq_cons_iff.1 hrest
      simp only [List.forall_mem_cons] at h
      exact .pair (.digits h.1 h.2.1 (by rw [hhigh, hlow]; rfl)) (ih h.2.2 hrest)

/-- A text is **the written form of octets**, but for blanks and the case of letters: it is twice as
many digits as there are octets, and in upper case they are those that the octets are written in. -/
def Writes (text : String) (bytes : Octets) : Prop :=
  (∀ c ∈ visible text, isHexDigit c = true) ∧ (visible text).length = 2 * bytes.length ∧
    (visible text).map Char.toUpper = (toHex bytes).toList

theorem ofHex_of_writes {text : String} {bytes : Octets} (h : Writes text bytes) :
    ofHex text = .ok bytes := by
  rw [ofHex_eq_ok_iff, spells_iff_of_digits h.1, h.2.2, toHex, String.toList_ofList]

theorem writes_of_ofHex {text : String} {bytes : Octets} (h : ofHex text = .ok bytes)
    (hplus : '+' ∉ visible text) : Writes text bytes := by
  have hspells := ofHex_eq_ok_iff.1 h
  have hdigits : ∀ c ∈ visible text, isHexDigit c = true := fun c hc =>
    (hspells.of_mem hc).resolve_right fun heq => hplus (heq ▸ hc)
  refine ⟨hdigits, hspells.length, ?_⟩
  rw [(spells_iff_of_digits hdigits).1 hspells, toHex, String.toList_ofList]

/-- **A text that is read is the written form of what is read, exactly if it has no plus sign.**  It
is read as what its pairs spell; with an odd number of visible characters, or with one that is
neither a digit nor a plus sign, it is refused. -/
theorem ofHex_faithful_iff (text : String) :
    (∀ bytes, ofHex text = .ok bytes ↔ Spells (visible text) bytes) ∧
    (∀ bytes, ofHex text = .ok bytes → (Writes text bytes ↔ '+' ∉ visible text)) ∧
    (∀ bytes, Writes text bytes → ofHex text = .ok bytes) ∧
    ((visible text).length % 2 = 1 → ofHex text = .error (.oddLength text)) ∧
    ((∃ c ∈ visible text, isHexDigit c = false ∧ c ≠ '+') →
      ∃ fault, ofHex text = .error fault) := by
  refine ⟨fun bytes => ofHex_eq_ok_iff, fun bytes h => ⟨fun hwrites hplus => ?_, writes_of_ofHex h⟩,
    fun bytes => ofHex_of_writes, ofHex_of_odd, ?_⟩
  · cases hwrites.1 '+' hplus
  · rintro ⟨c, hc, hdigit, hplus⟩
    cases h : ofHex text with
    | error fault => exact ⟨fault, rfl⟩
    | ok bytes =>
      rcases (ofHex_eq_ok_iff.1 h).of_mem hc with hyes | heq
      · rw [hdigit] at hyes
        cases hyes
      · exact absurd heq hplus

/-- A plus sign and a digit are read as an octet, though the sign is no digit and the octet is not
written so. -/
theorem ofHex_passes_plus :
    ofHex "+f" = .ok [15] ∧ isHexDigit '+' = false ∧
      ¬ ∀ text bytes, ofHex text = .ok bytes → Writes text bytes := by
  have hread : ofHex "+f" = .ok [15] := rfl
  refine ⟨hread, by decide, fun h => ?_⟩
  cases (h "+f" [15] hread).1 '+' (by decide)

/-! ### Respelled texts -/

/-- The same character, but for its case if it is a letter. -/
def SameLetter (c d : Char) : Prop :=
  c = d ∨ c = d.toLower ∨ c = d.toUpper

/-- **A text respelled**: blanks are put in anywhere, and letters are written in either case. -/
inductive Respells : List Char → List Char → Prop
  | nil : Respells [] []
  | blank {c : Char} {chars digits : List Char} (hc : Text.isBlank c = true)
    (h : Respells chars digits) : Respells (c :: chars) digits
  | char {c d : Char} {chars digits : List Char} (hc : SameLetter c d) (h : Respells chars digits) :
    Respells (c :: chars) (d :: digits)

theorem upperDigit_cases : ∀ i < 16,
    [upperDigit (.ofNat i), (upperDigit (.ofNat i)).toLower, (upperDigit (.ofNat i)).toUpper].all
      fun c => !Text.isBlank c && isHexDigit c && c.toUpper == upperDigit (.ofNat i) := by
  decide +kernel

theorem SameLetter.of_upperDigit {c : Char} {n : UInt8} (hn : n < 16)
    (h : SameLetter c (upperDigit n)) :
    Text.isBlank c = false ∧ isHexDigit c = true ∧ c.toUpper = upperDigit n := by
  have hcases := upperDigit_cases n.toNat hn
  rw [UInt8.ofNat_toNat] at hcases
  have hc := List.all_eq_true.1 hcases c (by rcases h with rfl | rfl | rfl <;> simp)
  simpa [and_assoc] using hc

theorem exists_upperDigit_of_mem {bytes : Octets} {d : Char} (h : d ∈ bytes.flatMap hexPair) :
    ∃ n < 16, d = upperDigit n := by
  obtain ⟨b, -, hd⟩ := List.mem_flatMap.1 h
  simp only [hexPair, List.mem_cons, List.not_mem_nil, or_false] at hd
  rcases hd with rfl | rfl
  · exact ⟨_, (halves_lt b).1, rfl⟩
  · exact ⟨_, (halves_lt b).2, rfl⟩

/-- What is left of respelled digits once the blanks are gone. -/
theorem Respells.visible {chars digits : List Char} (h : Respells chars digits)
    (hdigits : ∀ d ∈ digits, ∃ n < 16, d = upperDigit n) :
    (∀ c ∈ chars.filter (!Text.isBlank ·), isHexDigit c = true) ∧
      (chars.filter (!Text.isBlank ·)).map Char.toUpper = digits := by
  induction h with
  | nil => exact ⟨fun c hc => (nomatch hc), rfl⟩
  | blank hc h ih =>
    rw [List.filter_cons_of_neg (by simp [hc])]
    exact ih hdigits
  | char hc h ih =>
    obtain ⟨⟨n, hn, rfl⟩, hrest⟩ := List.forall_mem_cons.1 hdigits
    obtain ⟨hvisible, hdigit, hupper⟩ := hc.of_upperDigit hn
    obtain ⟨hall, hmap⟩ := ih hrest
    rw [List.filter_cons_of_pos (by simp [hvisible]), List.map_cons, hupper, hmap]
    exact ⟨List.forall_mem_cons.2 ⟨hdigit, hall⟩, rfl⟩

/-- The written form of octets, respelled. -/
def RespellsHex (text : String) (bytes : Octets) : Prop :=
  Respells text.toList (toHex bytes).toList

/-- **A respelled written form** writes the same octets. -/
theorem writes_of_respells {text : String} {bytes : Octets} (h : RespellsHex text bytes) :
    Writes text bytes := by
  rw [RespellsHex, toHex, String.toList_ofList] at h
  obtain ⟨hdigits, hupper⟩ := h.visible fun d hd => exists_upperDigit_of_mem hd
  have hread : Spells (Octets.visible text) bytes := (spells_iff_of_digits hdigits).2 hupper
  refine ⟨hdigits, hread.length, ?_⟩
  rw [toHex, String.toList_ofList]
  exact hupper

end ShortMessage.Octets
