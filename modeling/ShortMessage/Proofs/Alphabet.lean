import Mathlib.Algebra.GroupWithZero.Nat
import ShortMessage.Alphabet

/-!
# Septets read back

Every character that the default alphabet has is spelled in septets that read back as it, whatever
follows them.  So the septets of a text read back as the text (`decode?_of_encode?`), and there are
as many of them as its characters take (`length_of_encode?`).

* `decode?_cons`, `decode?_escape_cons`: a symbol of one septet or of two, read before others;
* `decode?_append`: the septets of one character, read before others;
* `septetLengths_of_encode?`: how long the spelling of a text is;
* `encode?_of_isEncodable`: a text all of whose characters have a septet length is spelled.
-/

namespace ShortMessage.Alphabet

theorem length_basic : basic.length = 128 := by decide +kernel

theorem toNat_toUInt8_of_lt {i : Nat} (h : i < 128) : i.toUInt8.toNat = i := by
  have hmod : i % 256 = i := Nat.mod_eq_of_lt (by omega)
  simpa using hmod

theorem basicChar?_of_basicCode? {c : Char} {code : UInt8} (h : basicCode? c = some code) :
    code ≠ escape ∧ basicChar? code = some c := by
  unfold basicCode? at h
  obtain ⟨hmap, hne⟩ := Option.filter_eq_some_iff.1 h
  obtain ⟨i, hi, rfl⟩ := Option.map_eq_some_iff.1 hmap
  obtain ⟨hlt, hget, -⟩ := List.idxOf?_eq_some_iff.1 hi
  refine ⟨by simpa using hne, ?_⟩
  unfold basicChar?
  rw [toNat_toUInt8_of_lt (by rwa [← length_basic]), List.getElem?_eq_getElem hlt, hget]

theorem extensionChar?_of_mem :
    ∀ e ∈ extension, extensionChar? e.2 = some e.1 := by
  decide

theorem extensionChar?_of_extensionCode? {c : Char} {code : UInt8}
    (h : extensionCode? c = some code) : extensionChar? code = some c := by
  unfold extensionCode? at h
  obtain ⟨e, he, rfl⟩ := Option.map_eq_some_iff.1 h
  have hc : e.1 = c := by simpa using List.find?_some he
  rw [← hc]
  exact extensionChar?_of_mem e (List.mem_of_find?_eq_some he)

/-! ### One character -/

theorem encodeChar?_cases {c : Char} {codes : Octets} (h : encodeChar? c = some codes) :
    (∃ code, basicCode? c = some code ∧ codes = [code]) ∨
    (∃ code, basicCode? c = none ∧ extensionCode? c = some code ∧ codes = [escape, code]) := by
  unfold encodeChar? at h
  cases hb : basicCode? c with
  | some code =>
    rw [hb] at h
    exact Or.inl ⟨code, rfl, (Option.some.inj h).symm⟩
  | none =>
    cases he : extensionCode? c with
    | some code =>
      rw [hb, he] at h
      exact Or.inr ⟨code, rfl, rfl, (Option.some.inj h).symm⟩
    | none =>
      rw [hb, he] at h
      cases h

theorem septetLength?_eq (c : Char) : septetLength? c = (encodeChar? c).map List.length := by
  unfold septetLength? encodeChar?
  cases basicCode? c <;> cases extensionCode? c <;> rfl

theorem decode?_escape_cons (code : UInt8) (rest : Octets) :
    decode? (escape :: code :: rest) =
      (extensionChar? code).bind fun c => (decode? rest).map (c :: ·) := by
  rw [decode?.eq_def]
  simp only [if_true]
  cases extensionChar? code <;> cases decode? rest <;> rfl

theorem decode?_cons {septet : UInt8} (hne : septet ≠ escape) (rest : Octets) :
    decode? (septet :: rest) = (basicChar? septet).bind fun c => (decode? rest).map (c :: ·) := by
  rw [decode?.eq_def]
  simp only [if_neg hne]
  cases basicChar? septet <;> cases decode? rest <;> rfl

/-- **The septets of a character**, read before others, give the character. -/
theorem decode?_append {c : Char} {codes : Octets} (h : encodeChar? c = some codes)
    (rest : Octets) : decode? (codes ++ rest) = (decode? rest).map (c :: ·) := by
  rcases encodeChar?_cases h with ⟨code, hb, rfl⟩ | ⟨code, -, he, rfl⟩
  · obtain ⟨hne, hchar⟩ := basicChar?_of_basicCode? hb
    rw [List.singleton_append, decode?_cons hne, hchar]
    rfl
  · have hchar := extensionChar?_of_extensionCode? he
    rw [List.cons_append, List.singleton_append, decode?_escape_cons, hchar]
    rfl

/-! ### Texts -/

theorem encode?_cons_eq_some_iff {c : Char} {cs : List Char} {codes : Octets} :
    encode? (c :: cs) = some codes ↔
      ∃ front back,
        encodeChar? c = some front ∧ encode? cs = some back ∧ codes = front ++ back := by
  rw [encode?]
  cases encodeChar? c <;> cases encode? cs <;> simp [eq_comm]

/-- **The septets of a text read back as the text.** -/
theorem decode?_of_encode? {text : List Char} {codes : Octets} (h : encode? text = some codes) :
    decode? codes = some text := by
  induction text generalizing codes with
  | nil =>
    obtain rfl := Option.some.inj h
    rfl
  | cons c cs ih =>
    obtain ⟨front, back, hc, hcs, rfl⟩ := encode?_cons_eq_some_iff.1 h
    rw [decode?_append hc, ih hcs]
    rfl

theorem septetLengths_of_encode? {text : List Char} {codes : Octets}
    (h : encode? text = some codes) :
    ∃ lengths : List Nat,
      text.map septetLength? = lengths.map some ∧ codes.length = lengths.sum := by
  induction text generalizing codes with
  | nil =>
    obtain rfl := Option.some.inj h
    exact ⟨[], rfl, rfl⟩
  | cons c cs ih =>
    obtain ⟨front, back, hc, hcs, rfl⟩ := encode?_cons_eq_some_iff.1 h
    obtain ⟨lengths, hlengths, hsum⟩ := ih hcs
    have hlen : septetLength? c = some front.length := by rw [septetLength?_eq, hc]; rfl
    refine ⟨front.length :: lengths, ?_, ?_⟩
    · rw [List.map_cons, List.map_cons, hlen, hlengths]
    · rw [List.length_append, List.sum_cons, hsum]

theorem length_of_encode? {text : List Char} {codes : Octets} (h : encode? text = some codes) :
    codes.length = (text.map fun c => (septetLength? c).getD 1).sum := by
  obtain ⟨lengths, hlengths, hsum⟩ := septetLengths_of_encode? h
  have hmap : (text.map fun c => (septetLength? c).getD 1) = lengths := by
    calc (text.map fun c => (septetLength? c).getD 1)
        = (text.map septetLength?).map (·.getD 1) := by rw [List.map_map]; rfl
      _ = lengths := by rw [hlengths, List.map_map]; exact List.map_id lengths
  rw [hmap, hsum]

theorem encode?_of_isEncodable {text : List Char}
    (h : ∀ c ∈ text, (septetLength? c).isSome = true) : ∃ codes, encode? text = some codes := by
  induction text with
  | nil => exact ⟨[], rfl⟩
  | cons c cs ih =>
    obtain ⟨back, hcs⟩ := ih fun d hd => h d (List.mem_cons_of_mem _ hd)
    have hc := h c List.mem_cons_self
    rw [septetLength?_eq, Option.isSome_map, Option.isSome_iff_exists] at hc
    obtain ⟨front, hc⟩ := hc
    exact ⟨front ++ back, encode?_cons_eq_some_iff.2 ⟨front, back, hc, hcs, rfl⟩⟩

end ShortMessage.Alphabet
