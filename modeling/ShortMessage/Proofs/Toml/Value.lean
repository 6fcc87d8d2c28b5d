import ShortMessage.Proofs.Text.Numeral
import ShortMessage.Proofs.Toml.Quoted
import ShortMessage.Toml.Statement

/-!
# Simple values read back

A truth value, a number or a text at the end of its line.

* `scalar?_word`: a word that is no date and no time;
* `integer?_toString`, `scalar?_toString`: numbers;
* `value?_render`: a value of any of the three kinds.
-/

namespace ShortMessage.Toml

open Text (isDigit)

variable {c : Char} {text word rest : List Char} {fuel : Nat}

/-! ### Scalars -/

theorem mark?_of_head? {d : Char} (h : text.head? ≠ some d) : mark? d text = none := by
  cases text with
  | nil => rfl
  | cons c rest =>
    rw [mark?, if_neg]
    rintro rfl
    exact h rfl

theorem snd_of_fixedNumber? {width n : Nat} {digits rest' : List Char}
    (hdigits : ∀ c ∈ digits, isDigit 10 c = true) (hrest : ∀ c ∈ rest.head?, isDigit 10 c = false)
    (h : Text.fixedNumber? width (digits ++ rest) = some (n, rest')) :
    rest' = digits.drop width ++ rest := by
  unfold Text.fixedNumber? at h
  rw [Text.leading_append hdigits hrest] at h
  simp only at h
  split at h
  · obtain ⟨m, -, heq⟩ := Option.map_eq_some_iff.1 h
    exact (congrArg Prod.snd heq).symm
  · cases h

/-- A row of digits is no date and no time, unless a mark of one follows. -/
theorem moment?_of_digits {digits : List Char} (hdigits : ∀ c ∈ digits, isDigit 10 c = true)
    (hrest : ∀ c ∈ rest.head?, isDigit 10 c = false) (hdate : rest.head? ≠ some '-')
    (htime : rest.head? ≠ some ':') : moment? (digits ++ rest) = none := by
  have hmark (d : Char) (hd : isDigit 10 d = false) (hnext : rest.head? ≠ some d) (width : Nat) :
      mark? d (digits.drop width ++ rest) = none := by
    refine mark?_of_head? fun hhead => ?_
    cases hleft : digits.drop width with
    | nil =>
      rw [hleft] at hhead
      exact hnext hhead
    | cons c left =>
      rw [hleft] at hhead
      obtain rfl := Option.some.inj hhead
      have hc : c ∈ digits := List.mem_of_mem_drop (hleft ▸ List.mem_cons_self)
      cases (hdigits c hc).symm.trans hd
  have hnoDate : date? (digits ++ rest) = none := by
    unfold date?
    cases hyear : Text.fixedNumber? 4 (digits ++ rest) with
    | none => rfl
    | some p =>
      obtain ⟨year, rest'⟩ := p
      obtain rfl := snd_of_fixedNumber? hdigits hrest hyear
      simp only [Option.bind_eq_bind, Option.bind_some, hmark '-' (by decide) hdate,
        Option.bind_none]
  have hnoTime : time? (digits ++ rest) = none := by
    unfold time?
    cases hhour : Text.fixedNumber? 2 (digits ++ rest) with
    | none => rfl
    | some p =>
      obtain ⟨hour, rest'⟩ := p
      obtain rfl := snd_of_fixedNumber? hdigits hrest hhour
      simp only [Option.bind_eq_bind, Option.bind_some, hmark ':' (by decide) htime,
        Option.bind_none]
  rw [moment?, hnoDate, hnoTime]

theorem moment?_of_not_digit (hc : isDigit 10 c = false) (rest : List Char) :
    moment? (c :: rest) = none := by
  have hfixed (width : Nat) : Text.fixedNumber? (width + 1) (c :: rest) = none := by
    simp [Text.fixedNumber?, Text.leading, hc]
  have hnoDate : date? (c :: rest) = none := by
    unfold date?
    rw [hfixed 3]
    rfl
  have hnoTime : time? (c :: rest) = none := by
    unfold time?
    rw [hfixed 1]
    rfl
  rw [moment?, hnoDate, hnoTime]

theorem scalar?_word (hmoment : moment? (word ++ '\n' :: rest) = none)
    (hword : ∀ c ∈ word, isWordChar c = true) :
    scalar? (word ++ '\n' :: rest) = (ofWord? word).map (·, '\n' :: rest) := by
  have hend : isWordChar '\n' = false := by decide
  rw [scalar?, hmoment, List.takeWhile_append_of_pos hword, List.dropWhile_append_of_pos hword,
    List.takeWhile_cons_of_neg (by simp [hend]), List.dropWhile_cons_of_neg (by simp [hend]),
    List.append_nil]

/-! ### Integers -/

theorem ungroup?_of_digits {digits : List Char} (hne : digits ≠ [])
    (hdigits : ∀ c ∈ digits, isDigit 10 c = true) : ungroup? 10 digits = some digits := by
  induction digits with
  | nil => exact absurd rfl hne
  | cons c digits ih =>
    obtain ⟨hc, hmore⟩ := List.forall_mem_cons.1 hdigits
    cases digits with
    | nil => rw [ungroup?, if_pos hc]
    | cons d digits =>
      have hd : d ≠ '_' := by
        rintro rfl
        cases hmore '_' List.mem_cons_self
      rw [ungroup?, if_pos hc, ih (List.cons_ne_nil d digits) hmore]
      · rfl
      · simp
      · simp [hd]

theorem whole?_toDigits (n : Nat) : whole? (Nat.toDigits 10 n) = some (Nat.toDigits 10 n) := by
  unfold whole?
  rw [ungroup?_of_digits Nat.toDigits_ne_nil fun c => Text.isDigit_toDigits, Option.bind_eq_bind,
    Option.bind_some, if_neg]
  · rfl
  rintro ⟨hzero, hlong⟩
  rcases Nat.eq_zero_or_pos n with rfl | hpos
  · exact absurd hlong (by decide)
  · exact Text.head_toDigits_ne_zero hpos hzero

theorem not_mem_toDigits {d : Char} (hd : isDigit 10 d = false) (n : Nat) :
    d ∉ Nat.toDigits 10 n := fun hmem => by
  cases (Text.isDigit_toDigits hmem).symm.trans hd

theorem toList_toString_natCast (n : Nat) : (toString (n : Int)).toList = Nat.toDigits 10 n := by
  show (toString n).toList = _
  rw [Nat.toString_eq_ofList_toDigits, String.toList_ofList]

theorem toList_toString_negSucc (n : Nat) :
    (toString (Int.negSucc n)).toList = '-' :: Nat.toDigits 10 (n + 1) := by
  show ("-" ++ toString (n + 1)).toList = _
  simp

/-- **A number reads as itself.** -/
theorem integer?_toString (n : Int) : integer? (toString n).toList = some n := by
  have hbase (d : Char) (hd : isDigit 10 d = false) (m : Nat) (rest : List Char) :
      Nat.toDigits 10 m ≠ '0' :: d :: rest := fun heq =>
    not_mem_toDigits hd m (heq ▸ List.mem_cons_of_mem _ List.mem_cons_self)
  cases n with
  | ofNat m =>
    have hsign : Text.splitSign (Nat.toDigits 10 m) = (false, Nat.toDigits 10 m) := by
      rw [Text.splitSign]
      · exact fun rest heq => not_mem_toDigits (d := '-') (by decide) m (heq ▸ List.mem_cons_self)
      · exact fun rest heq => not_mem_toDigits (d := '+') (by decide) m (heq ▸ List.mem_cons_self)
    rw [Int.ofNat_eq_natCast, toList_toString_natCast, integer?]
    · simp [hsign, whole?_toDigits, Text.number?_toDigits]
    · exact fun rest => hbase 'x' (by decide) m rest
    · exact fun rest => hbase 'o' (by decide) m rest
    · exact fun rest => hbase 'b' (by decide) m rest
  | negSucc m =>
    rw [toList_toString_negSucc, integer?]
    · simp only [Text.splitSign, whole?_toDigits, Text.number?_toDigits, Option.bind_eq_bind,
        Option.bind_some]
      rfl
    all_goals simp

/-! ### Values -/

theorem isWordChar_of_isDigit (h : c.isDigit = true) : isWordChar c = true := by
  simp [isWordChar, Char.isAlphanum, h]

theorem isDigit_of_mem_toDigits {n : Nat} (h : c ∈ Nat.toDigits 10 n) : c.isDigit = true :=
  Nat.isDigit_of_mem_toDigits (by decide) (by decide) h

theorem mem_toString {n : Int} (h : c ∈ (toString n).toList) : c = '-' ∨ c.isDigit = true := by
  cases n with
  | ofNat m =>
    rw [Int.ofNat_eq_natCast, toList_toString_natCast] at h
    exact Or.inr (isDigit_of_mem_toDigits h)
  | negSucc m =>
    rw [toList_toString_negSucc] at h
    exact (List.mem_cons.1 h).imp_right isDigit_of_mem_toDigits

theorem toList_toString_ne_nil (n : Int) : (toString n).toList ≠ [] := by
  cases n with
  | ofNat m =>
    rw [Int.ofNat_eq_natCast, toList_toString_natCast]
    exact Nat.toDigits_ne_nil
  | negSucc m =>
    rw [toList_toString_negSucc]
    exact List.cons_ne_nil _ _

theorem ofWord?_toString (n : Int) : ofWord? (toString n).toList = some (.integer n) := by
  have hne (word : String) (d : Char) (hd : d ∈ word.toList) (hdigit : d.isDigit = false)
      (hminus : d ≠ '-') : (toString n).toList ≠ word.toList := fun heq => by
    rcases mem_toString (heq.symm ▸ hd) with h | h
    · exact hminus h
    · cases h.symm.trans hdigit
  rw [ofWord?, if_neg (hne "true" 't' (by decide) (by decide) (by decide)),
    if_neg (hne "false" 'f' (by decide) (by decide) (by decide)), integer?_toString]

theorem moment?_toString (n : Int) (rest : List Char) :
    moment? ((toString n).toList ++ '\n' :: rest) = none := by
  cases n with
  | ofNat m =>
    rw [Int.ofNat_eq_natCast, toList_toString_natCast]
    refine moment?_of_digits (fun c => Text.isDigit_toDigits) ?_ (by simp) (by simp)
    rintro c ⟨⟩
    decide
  | negSucc m =>
    rw [toList_toString_negSucc]
    exact moment?_of_not_digit (by decide) _

theorem scalar?_toString (n : Int) (rest : List Char) :
    scalar? ((toString n).toList ++ '\n' :: rest) = some (.integer n, '\n' :: rest) := by
  rw [scalar?_word (moment?_toString n rest), ofWord?_toString]
  · rfl
  · intro c hc
    rcases mem_toString hc with rfl | h
    · decide
    · exact isWordChar_of_isDigit h

theorem scalar?_bool (b : Bool) (rest : List Char) :
    scalar? ((Atom.bool b).render ++ '\n' :: rest) = some (.bool b, '\n' :: rest) := by
  cases b with
  | true =>
    show scalar? ("true".toList ++ '\n' :: rest) = _
    rw [scalar?_word (moment?_of_not_digit (by decide) _) (List.all_eq_true.1 (by decide))]
    rfl
  | false =>
    show scalar? ("false".toList ++ '\n' :: rest) = _
    rw [scalar?_word (moment?_of_not_digit (by decide) _) (List.all_eq_true.1 (by decide))]
    rfl

/-- The characters that a list, a table or a quoted text begins with. -/
def opens (c : Char) : Bool :=
  c = '[' || c = '\x7b' || c = '"' || c = '\''

theorem opens_of_isDigit (h : c.isDigit = true) : opens c = false ∧ isSpace c = false := by
  have hne (d : Char) (hd : d.isDigit = false) : c ≠ d := by
    rintro rfl
    cases h.symm.trans hd
  constructor
  · simp [opens, hne '[' (by decide), hne '\x7b' (by decide), hne '"' (by decide),
      hne '\'' (by decide)]
  · simp [isSpace, hne ' ' (by decide), hne '\t' (by decide)]

theorem exists_quote (text : List Char) :
    ∃ mark rest, quote text = mark :: rest ∧ (mark = '"' ∨ mark = '\'') := by
  unfold quote
  cases Quotes.choose text <;> exact ⟨_, _, rfl, by decide⟩

theorem exists_render (atom : Atom) : ∃ c rest, atom.render = c :: rest ∧ isSpace c = false ∧
    ((∃ s, atom = .text s ∧ (c = '"' ∨ c = '\'')) ∨ opens c = false) := by
  cases atom with
  | bool b => cases b <;> exact ⟨_, _, rfl, by decide, Or.inr (by decide)⟩
  | integer n =>
    obtain ⟨c, rest, heq⟩ := List.exists_cons_of_ne_nil (toList_toString_ne_nil n)
    refine ⟨c, rest, heq, ?_⟩
    rcases mem_toString (heq.symm ▸ List.mem_cons_self) with rfl | h
    · exact ⟨by decide, Or.inr (by decide)⟩
    · exact ⟨(opens_of_isDigit h).2, Or.inr (opens_of_isDigit h).1⟩
  | text s =>
    obtain ⟨mark, rest, heq, hmark⟩ := exists_quote s.toList
    refine ⟨mark, rest, heq, ?_, Or.inl ⟨s, rfl, hmark⟩⟩
    rcases hmark with rfl | rfl <;> decide

theorem quoted?_of_opens (h : opens c = false) (rest : List Char) : quoted? (c :: rest) = none := by
  simp only [opens, Bool.or_eq_false_iff, decide_eq_false_iff_not] at h
  rw [quoted?, quotedLine?] <;> simp [h]

theorem value?_of_quoted {s rest' : List Char} (hlist : c ≠ '[') (htable : c ≠ '\x7b')
    (h : quoted? (c :: rest) = some (s, rest')) :
    value? (fuel + 1) (c :: rest) = some (.text (String.ofList s), rest') := by
  rw [value?]
  · rw [h]
  · exact fun _ heq => hlist (List.cons.inj heq).1
  · exact fun _ heq => htable (List.cons.inj heq).1

theorem value?_of_opens (h : opens c = false) (rest : List Char) :
    value? (fuel + 1) (c :: rest) = scalar? (c :: rest) := by
  have hquoted := quoted?_of_opens h rest
  simp only [opens, Bool.or_eq_false_iff, decide_eq_false_iff_not] at h
  rw [value?]
  · rw [hquoted]
  · exact fun _ heq => h.1.1.1 (List.cons.inj heq).1
  · exact fun _ heq => h.1.1.2 (List.cons.inj heq).1

/-- **A value read back**, at the end of its line. -/
theorem value?_render (atom : Atom) (rest : List Char) (fuel : Nat) :
    value? (fuel + 1) (atom.render ++ '\n' :: rest) = some (atom.toValue, '\n' :: rest) := by
  have hscalar (hread : scalar? (atom.render ++ '\n' :: rest) = some (atom.toValue, '\n' :: rest))
      (hopens : ∀ c more, atom.render = c :: more → opens c = false) :
      value? (fuel + 1) (atom.render ++ '\n' :: rest) = some (atom.toValue, '\n' :: rest) := by
    obtain ⟨c, more, heq, -⟩ := exists_render atom
    rw [heq, List.cons_append] at hread ⊢
    rw [value?_of_opens (hopens c more heq), hread]
  cases atom with
  | bool b =>
    refine hscalar (scalar?_bool b rest) fun c more heq => ?_
    cases b <;>
      · obtain ⟨rfl, -⟩ := List.cons.inj heq
        decide
  | integer n =>
    refine hscalar (scalar?_toString n rest) fun c more heq => ?_
    have hmem : c ∈ (Atom.integer n).render := heq.symm ▸ List.mem_cons_self
    rcases mem_toString hmem with rfl | h
    · decide
    · exact (opens_of_isDigit h).1
  | text s =>
    have hquoted := quoted?_quote s.toList rest
    obtain ⟨mark, more, heq, hmark⟩ := exists_quote s.toList
    show value? (fuel + 1) (quote s.toList ++ '\n' :: rest) = _
    rw [heq, List.cons_append] at hquoted ⊢
    rw [value?_of_quoted _ _ hquoted, Atom.toValue, String.ofList_toList]
    · rcases hmark with rfl | rfl <;> decide
    · rcases hmark with rfl | rfl <;> decide

end ShortMessage.Toml
