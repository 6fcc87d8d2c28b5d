import Mathlib.Data.List.Nodup
import ShortMessage.Proofs.Alphabet

/-!
# One spelling for each text

No character is twice in the basic table, and none of the extension table is in the basic one.  So a
septet sequence that reads as a text is the spelling of that text: encoding and decoding are inverse
to each other.

* `encodeChar?_of_basicChar?`, `encodeChar?_of_extensionChar?`: a character, spelled as it was read;
* `encode?_of_decode?`: a text, spelled as it was read;
* `Malformed`, `decode?_eq_none_iff`, `malformed_of_mem`: the sequences that no text spells;
* `spelled_iff_read`: the spelling of a text is the one sequence that reads as it.
-/

namespace ShortMessage.Alphabet

/-! ### The tables, read backwards -/

/-- No character is twice in the basic table, since no number is. -/
theorem nodup_basic : basic.Nodup :=
  List.Nodup.of_map Char.toNat (by decide +kernel)

theorem basicChar?_eq_none_iff {septet : UInt8} : basicChar? septet = none ↔ 0x80 ≤ septet := by
  unfold basicChar?
  rw [List.getElem?_eq_none_iff, length_basic, UInt8.le_iff_toNat_le]
  rfl

theorem basicCode?_of_basicChar? {septet : UInt8} {c : Char} (hne : septet ≠ escape)
    (h : basicChar? septet = some c) : basicCode? c = some septet := by
  unfold basicChar? at h
  obtain ⟨hlt, rfl⟩ := List.getElem?_eq_some_iff.1 h
  have hidx : basic.idxOf? basic[septet.toNat] = some septet.toNat := by
    refine List.idxOf?_eq_some_iff.2 ⟨hlt, rfl, fun j hj heq => ?_⟩
    have hplace := (List.Nodup.getElem_inj_iff nodup_basic).1 heq
    omega
  unfold basicCode?
  rw [hidx, Option.map_some, Nat.toUInt8_eq, UInt8.ofNat_toNat]
  exact Option.filter_eq_some_iff.2 ⟨rfl, by simpa using hne⟩

theorem codes_of_mem_extension :
    ∀ e ∈ extension, basicCode? e.1 = none ∧ extensionCode? e.1 = some e.2 := by
  decide +kernel

theorem mem_extension_of_extensionChar? {code : UInt8} {c : Char}
    (h : extensionChar? code = some c) : (c, code) ∈ extension := by
  unfold extensionChar? at h
  obtain ⟨e, he, rfl⟩ := Option.map_eq_some_iff.1 h
  have hcode : e.2 = code := by simpa using List.find?_some he
  rw [← hcode]
  exact List.mem_of_find?_eq_some he

theorem extensionChar?_eq_none_iff {code : UInt8} :
    extensionChar? code = none ↔ ∀ e ∈ extension, e.2 ≠ code := by
  unfold extensionChar?
  simp only [Option.map_eq_none_iff, List.find?_eq_none, decide_eq_true_eq, ne_eq]

/-! ### One character -/

theorem encodeChar?_of_basicChar? {septet : UInt8} {c : Char} (hne : septet ≠ escape)
    (h : basicChar? septet = some c) : encodeChar? c = some [septet] := by
  unfold encodeChar?
  rw [basicCode?_of_basicChar? hne h]

theorem encodeChar?_of_extensionChar? {code : UInt8} {c : Char} (h : extensionChar? code = some c) :
    encodeChar? c = some [escape, code] := by
  obtain ⟨hbasic, hcode⟩ := codes_of_mem_extension _ (mem_extension_of_extensionChar? h)
  unfold encodeChar?
  rw [hbasic, hcode]

/-! ### Texts -/

/-- **A text is spelled as it was read.** -/
theorem encode?_of_decode? {text : List Char} {codes : Octets} (h : decode? codes = some text) :
    encode? text = some codes := by
  induction codes using decode?.induct generalizing text with
  | case1 =>
    obtain rfl := Option.some.inj h
    rfl
  | case2 => cases h
  | case3 code rest ih =>
    rw [decode?_escape_cons] at h
    obtain ⟨c, hc, h⟩ := Option.bind_eq_some_iff.1 h
    obtain ⟨cs, hcs, rfl⟩ := Option.map_eq_some_iff.1 h
    exact encode?_cons_eq_some_iff.2 ⟨_, _, encodeChar?_of_extensionChar? hc, ih hcs, rfl⟩
  | case4 septet rest hne ih =>
    rw [decode?_cons hne] at h
    obtain ⟨c, hc, h⟩ := Option.bind_eq_some_iff.1 h
    obtain ⟨cs, hcs, rfl⟩ := Option.map_eq_some_iff.1 h
    exact encode?_cons_eq_some_iff.2 ⟨_, _, encodeChar?_of_basicChar? hne hc, ih hcs, rfl⟩

theorem encode?_eq_some_iff_decode? {text : List Char} {codes : Octets} :
    encode? text = some codes ↔ decode? codes = some text :=
  ⟨decode?_of_encode?, encode?_of_decode?⟩

theorem exists_encode?_iff {text : List Char} :
    (∃ codes, encode? text = some codes) ↔ ∀ c ∈ text, (septetLength? c).isSome = true := by
  refine ⟨fun ⟨codes, h⟩ c hc => ?_, encode?_of_isEncodable⟩
  obtain ⟨lengths, hlengths, -⟩ := septetLengths_of_encode? h
  have hmem : septetLength? c ∈ lengths.map some := hlengths ▸ List.mem_map_of_mem hc
  obtain ⟨n, -, hn⟩ := List.mem_map.1 hmem
  rw [← hn]
  rfl

/-! ### Sequences that no text spells -/

/-- **A malformed sequence.**  Read from the left, symbol by symbol, it comes to an octet beyond the
septets, to an escape with nothing after it, or to an escape before a code that the extension table
lacks. -/
inductive Malformed : Octets → Prop
  | beyond {septet : UInt8} {rest : Octets} (h : 0x80 ≤ septet) : Malformed (septet :: rest)
  | loneEscape : Malformed [escape]
  | unlisted {code : UInt8} {rest : Octets} (h : ∀ e ∈ extension, e.2 ≠ code) :
    Malformed (escape :: code :: rest)
  | afterBasic {septet : UInt8} {rest : Octets} (hne : septet ≠ escape) (h : Malformed rest) :
    Malformed (septet :: rest)
  | afterExtension {code : UInt8} {rest : Octets} (h : Malformed rest) :
    Malformed (escape :: code :: rest)

theorem ne_escape_of_le {o : UInt8} (ho : 0x80 ≤ o) : o ≠ escape := by
  rintro rfl
  exact absurd ho (by decide)

theorem malformed_of_decode? {codes : Octets} (h : decode? codes = none) : Malformed codes := by
  induction codes using decode?.induct with
  | case1 => cases h
  | case2 => exact .loneEscape
  | case3 code rest ih =>
    rw [decode?_escape_cons] at h
    cases hc : extensionChar? code with
    | none => exact .unlisted (extensionChar?_eq_none_iff.1 hc)
    | some c =>
      rw [hc, Option.bind_some, Option.map_eq_none_iff] at h
      exact .afterExtension (ih h)
  | case4 septet rest hne ih =>
    rw [decode?_cons hne] at h
    cases hc : basicChar? septet with
    | none => exact .beyond (basicChar?_eq_none_iff.1 hc)
    | some c =>
      rw [hc, Option.bind_some, Option.map_eq_none_iff] at h
      exact .afterBasic hne (ih h)

/-- **Decoding refuses the malformed sequences**, and no others. -/
theorem decode?_eq_none_iff {codes : Octets} : decode? codes = none ↔ Malformed codes := by
  refine ⟨malformed_of_decode?, fun h => ?_⟩
  induction h with
  | @beyond septet rest h =>
    rw [decode?_cons (ne_escape_of_le h), basicChar?_eq_none_iff.2 h, Option.bind_none]
  | loneEscape => rfl
  | unlisted h => rw [decode?_escape_cons, extensionChar?_eq_none_iff.2 h, Option.bind_none]
  | @afterBasic septet rest hne h ih =>
    rw [decode?_cons hne, ih]
    cases basicChar? septet <;> rfl
  | @afterExtension code rest h ih =>
    rw [decode?_escape_cons, ih]
    cases extensionChar? code <;> rfl

/-- An octet beyond the septets spoils a sequence wherever it stands. -/
theorem malformed_of_mem {codes : Octets} {o : UInt8} (h : o ∈ codes) (ho : 0x80 ≤ o) :
    Malformed codes := by
  have hunlisted : ∀ e ∈ extension, e.2 ≠ o := by
    have hseptets : ∀ e ∈ extension, ¬ 0x80 ≤ e.2 := by decide
    rintro e he rfl
    exact hseptets e he ho
  induction codes using decode?.induct with
  | case1 => cases h
  | case2 => exact absurd (List.mem_singleton.1 h) (ne_escape_of_le ho)
  | case3 code rest ih =>
    rcases List.mem_cons.1 ((List.mem_cons.1 h).resolve_left (ne_escape_of_le ho)) with rfl | h
    · exact .unlisted hunlisted
    · exact .afterExtension (ih h)
  | case4 septet rest hne ih =>
    rcases List.mem_cons.1 h with rfl | h
    · exact .beyond ho
    · exact .afterBasic hne (ih h)

/-- **The spelling of a text is the one sequence that reads as it.**  The sequences that no text
spells, which read as nothing, are the malformed ones; one with an octet beyond the septets is among
them.  A text has a spelling exactly if its characters all have a septet length, and the spelling is
as long as these lengths together. -/
theorem spelled_iff_read (text : List Char) (codes : Octets) :
    (encode? text = some codes ↔ decode? codes = some text) ∧
    ((∃ t, encode? t = some codes) ↔ ¬ Malformed codes) ∧
    (decode? codes = none ↔ Malformed codes) ∧
    ((∃ o ∈ codes, 0x80 ≤ o) → Malformed codes) ∧
    ((∃ s, encode? text = some s) ↔ ∀ c ∈ text, (septetLength? c).isSome = true) ∧
    ∀ s, encode? text = some s →
      ∃ lengths : List Nat, text.map septetLength? = lengths.map some ∧ s.length = lengths.sum := by
  refine ⟨encode?_eq_some_iff_decode?, ?_, decode?_eq_none_iff,
    fun ⟨o, hmem, ho⟩ => malformed_of_mem hmem ho, exists_encode?_iff,
    fun s => septetLengths_of_encode?⟩
  simp only [encode?_eq_some_iff_decode?, ← decode?_eq_none_iff, ← Option.ne_none_iff_exists',
    ne_eq]

example : encode? ['@', 'A', '€'] = some [0x00, 0x41, escape, 0x65] := by decide +kernel

end ShortMessage.Alphabet
