import ShortMessage.Toml.Section

/-!
# Quoted text read back

Whichever quotes a text gets, reading it back gives the text, and what follows it is left.  Between
double quotes that holds of every text, for whatever could be taken for something else is escaped;
between single quotes it holds of the texts that the choice of quotes puts there.

* `basic?_plain`, `basic?_escape`, `basic?_escapeControl`: one character between double quotes;
  `basicLines?_…`: the same between threefold ones;
* `basicLines?_quotes`: quotes within threefold double ones;
* `RunsFit`: no run of a character is too long;
* `quoted?_quote`: a quoted text read back.
-/

namespace ShortMessage.Toml

/-- A character in front of what a reader has read. -/
def before (c : Char) : List Char × List Char → List Char × List Char :=
  Prod.map (c :: ·) id

/-! ### Escapes -/

theorem numbered?_fixed : ∀ i < 128,
    numbered? ((Text.fixed 16 4 i).map Char.toUpper) = some (.ofNat i) := by
  decide +kernel

theorem lt_of_isForbidden {c : Char} (h : isForbidden c = true) : c.toNat < 128 := by
  simp only [isForbidden, Bool.or_eq_true, Bool.and_eq_true, decide_eq_true_eq] at h
  omega

/-- **Each way to write a character** between double quotes: an escape of one letter, its number in
four digits, or the character itself. -/
theorem escapeControl_cases (c : Char) :
    (∃ letter, escape? letter = some c ∧ escapeControl c = ['\\', letter]) ∨
    (∃ w x y z, numbered? [w, x, y, z] = some c ∧ escapeControl c = ['\\', 'u', w, x, y, z]) ∨
    (isForbidden c = false ∧ c ≠ '\\' ∧ escapeControl c = [c]) := by
  unfold escapeControl
  split
  · next h => exact Or.inl ⟨'b', by rw [h]; rfl, rfl⟩
  split
  · next h => exact Or.inl ⟨'t', by rw [h]; rfl, rfl⟩
  split
  · next h => exact Or.inl ⟨'n', by rw [h]; rfl, rfl⟩
  split
  · next h => exact Or.inl ⟨'f', by rw [h]; rfl, rfl⟩
  split
  · next h => exact Or.inl ⟨'r', by rw [h]; rfl, rfl⟩
  split
  · next h => exact Or.inl ⟨'\\', by rw [h]; rfl, rfl⟩
  split
  · next h =>
    have hnumber := numbered?_fixed c.toNat (lt_of_isForbidden h)
    rw [Char.ofNat_toNat] at hnumber
    exact Or.inr (Or.inl ⟨_, _, _, _, hnumber, rfl⟩)
  · next hback hallowed => exact Or.inr (Or.inr ⟨by simpa using hallowed, hback, rfl⟩)

/-! ### Characters between double quotes -/

/-- A reader answers what it read and the rest of the text. -/
abbrev Reader := List Char → Option (List Char × List Char)

/-- **A reader of what stands between double quotes** takes a plain character for itself and an
escape for what it stands for. -/
structure ReadsEscapes (read : Reader) : Prop where
  plain {c : Char} (hallowed : isForbidden c = false) (hquote : c ≠ '"') (hback : c ≠ '\\')
    (rest : List Char) : read (c :: rest) = (read rest).map (before c)
  escape {c letter : Char} (h : escape? letter = some c) (rest : List Char) :
    read ('\\' :: letter :: rest) = (read rest).map (before c)
  numbered {c w x y z : Char} (h : numbered? [w, x, y, z] = some c) (rest : List Char) :
    read ('\\' :: 'u' :: w :: x :: y :: z :: rest) = (read rest).map (before c)

variable {read : Reader} {c mark : Char} {text rest : List Char} {most quotes : Nat}

theorem ReadsEscapes.escapeControl (h : ReadsEscapes read) (hquote : c ≠ '"') (rest : List Char) :
    read (escapeControl c ++ rest) = (read rest).map (before c) := by
  rcases escapeControl_cases c with
    ⟨letter, hletter, heq⟩ | ⟨w, x, y, z, hnumber, heq⟩ | ⟨hallowed, hback, heq⟩
  · rw [heq]
    exact h.escape hletter rest
  · rw [heq]
    exact h.numbered hnumber rest
  · rw [heq]
    exact h.plain hallowed hquote hback rest

theorem ne_of_escape? {letter d : Char} (h : escape? letter = some c) (hd : escape? d = none) :
    letter ≠ d := by
  rintro rfl
  cases h.symm.trans hd

theorem endsLine_of_escape? {letter : Char} (h : escape? letter = some c) (rest : List Char) :
    endsLine (letter :: rest) = false := by
  have hspace : isSpace letter = false := by
    simp [isSpace, ne_of_escape? h (d := ' ') rfl, ne_of_escape? h (d := '\t') rfl]
  have hbreak : newline? (letter :: rest) = none := by
    rw [newline?]
    · exact fun _ heq => ne_of_escape? h rfl (List.cons.inj heq).1
    · exact fun _ heq => ne_of_escape? h rfl (List.cons.inj heq).1
  unfold endsLine
  rw [List.dropWhile_cons, hspace, if_neg Bool.false_ne_true, hbreak]
  rfl

theorem readsEscapes_basic : ReadsEscapes basic? where
  plain {c} hallowed hquote hback rest := by
    rw [basic?]
    · rw [if_neg (by simp [hallowed])]
      cases basic? rest <;> rfl
    all_goals simp [hquote, hback]
  escape {c letter} h rest := by
    have hx : letter ≠ 'x' := ne_of_escape? h rfl
    have hu : letter ≠ 'u' := ne_of_escape? h rfl
    have hU : letter ≠ 'U' := ne_of_escape? h rfl
    rw [basic?]
    · rw [h]
      cases basic? rest <;> rfl
    all_goals simp [hx, hu, hU]
  numbered h rest := by
    rw [basic?, h]
    cases basic? rest <;> rfl

theorem basicLines?_plain (hallowed : isForbidden c = false ∨ c = '\n') (hquote : c ≠ '"')
    (hback : c ≠ '\\') (rest : List Char) :
    basicLines? false (c :: rest) = (basicLines? false rest).map (before c) := by
  have hreturn : c ≠ '\r' := by
    rintro rfl
    revert hallowed
    decide
  rw [basicLines?]
  · rw [if_neg (by simp), if_neg (by rcases hallowed with h | h <;> simp [h])]
    cases basicLines? false rest <;> rfl
  all_goals simp [hquote, hback, hreturn]

theorem readsEscapes_basicLines : ReadsEscapes (basicLines? false) where
  plain hallowed hquote hback rest := basicLines?_plain (Or.inl hallowed) hquote hback rest
  escape {c letter} h rest := by
    have hx : letter ≠ 'x' := ne_of_escape? h rfl
    have hu : letter ≠ 'u' := ne_of_escape? h rfl
    have hU : letter ≠ 'U' := ne_of_escape? h rfl
    rw [basicLines?]
    · rw [endsLine_of_escape? h, if_neg Bool.false_ne_true, h]
      cases basicLines? false rest <;> rfl
    all_goals simp [hx, hu, hU]
  numbered h rest := by
    rw [basicLines?, h]
    cases basicLines? false rest <;> rfl

/-! ### Writing between double quotes -/

theorem escapeBasic_quote_of_lt (lines : Bool) (h : quotes < most) (text : List Char) :
    escapeBasic most lines quotes ('"' :: text) =
      '"' :: escapeBasic most lines (quotes + 1) text := by
  rw [escapeBasic, if_pos h]

theorem escapeBasic_quote_of_le (lines : Bool) (h : most ≤ quotes) (text : List Char) :
    escapeBasic most lines quotes ('"' :: text) =
      '\\' :: '"' :: escapeBasic most lines 0 text := by
  rw [escapeBasic, if_neg (Nat.not_lt.2 h)]

theorem escapeBasic_cons (lines : Bool) (hquote : c ≠ '"') (text : List Char) :
    escapeBasic most lines quotes (c :: text) =
      (if lines ∧ c = '\n' then ['\n'] else escapeControl c) ++
        escapeBasic most lines 0 text := by
  rw [escapeBasic]
  exact hquote

/-- **Between double quotes every text is read back.** -/
theorem basic?_escapeBasic (text rest : List Char) (quotes : Nat) :
    basic? (escapeBasic 0 false quotes text ++ '"' :: rest) = some (text, rest) := by
  induction text generalizing quotes with
  | nil => rfl
  | cons c text ih =>
    by_cases hquote : c = '"'
    · subst hquote
      rw [escapeBasic_quote_of_le false (Nat.zero_le _), List.cons_append, List.cons_append,
        readsEscapes_basic.escape rfl, ih]
      rfl
    · rw [escapeBasic_cons false hquote, if_neg (by simp), List.append_assoc,
        readsEscapes_basic.escapeControl hquote, ih]
      rfl

/-! ### Threefold quotes -/

/-- **A reader up to threefold quotes** takes a lone quote for itself, and up to two that stand
right before the threefold ones. -/
structure ReadsQuotes (mark : Char) (read : Reader) : Prop where
  lone {rest : List Char} (h : ∀ rest', rest ≠ mark :: mark :: rest') :
    read (mark :: rest) = (read rest).map (before mark)
  close {quotes : Nat} {rest : List Char} (h : quotes ≤ 2) (hrest : rest.head? ≠ some mark) :
    read (List.replicate quotes mark ++ [mark, mark, mark] ++ rest) =
      some (List.replicate quotes mark, rest)

/-- Quotes before something else. -/
theorem ReadsQuotes.pending (h : ReadsQuotes mark read) (hquotes : quotes ≤ 2)
    (hrest : rest.head? ≠ some mark) :
    read (List.replicate quotes mark ++ rest) =
      (read rest).map (Prod.map (List.replicate quotes mark ++ ·) id) := by
  have hone : ∀ rest', rest ≠ mark :: mark :: rest' := by
    rintro rest' rfl
    exact hrest rfl
  have htwo : ∀ rest', mark :: rest ≠ mark :: mark :: rest' := by
    rintro rest' heq
    rw [(List.cons.inj heq).2] at hrest
    exact hrest rfl
  match quotes, hquotes with
  | 0, _ =>
    show read rest = _
    cases read rest <;> rfl
  | 1, _ => exact h.lone hone
  | 2, _ =>
    show read (mark :: mark :: rest) = _
    rw [h.lone htwo, h.lone hone]
    cases read rest <;> rfl

theorem ne_cons_of_head? {d : Char} (h : rest.head? ≠ some d) (rest' : List Char) :
    rest ≠ d :: rest' := by
  rintro rfl
  exact h rfl

theorem readsQuotes_basicLines : ReadsQuotes '"' (basicLines? false) where
  lone {rest} h := by
    rw [basicLines?]
    · cases basicLines? false rest <;> rfl
    all_goals simp [h]
  close {quotes rest} hquotes hrest := by
    have hne := ne_cons_of_head? hrest
    match quotes, hquotes with
    | 0, _ =>
      show basicLines? false ('"' :: '"' :: '"' :: rest) = some ([], rest)
      rw [basicLines?] <;> simp [hne]
    | 1, _ =>
      show basicLines? false ('"' :: '"' :: '"' :: '"' :: rest) = some (['"'], rest)
      rw [basicLines?]
      simp [hne]
    | 2, _ => rfl

theorem literalLines?_plain (hallowed : isForbidden c = false ∨ c = '\n') (hquote : c ≠ '\'')
    (rest : List Char) : literalLines? (c :: rest) = (literalLines? rest).map (before c) := by
  have hreturn : c ≠ '\r' := by
    rintro rfl
    revert hallowed
    decide
  rw [literalLines?]
  · rw [if_neg (by rcases hallowed with h | h <;> simp [h])]
    cases literalLines? rest <;> rfl
  all_goals simp [hquote, hreturn]

theorem readsQuotes_literalLines : ReadsQuotes '\'' literalLines? where
  lone {rest} h := by
    rw [literalLines?]
    · cases literalLines? rest <;> rfl
    all_goals simp [h]
  close {quotes rest} hquotes hrest := by
    have hne := ne_cons_of_head? hrest
    match quotes, hquotes with
    | 0, _ =>
      show literalLines? ('\'' :: '\'' :: '\'' :: rest) = some ([], rest)
      rw [literalLines?] <;> simp [hne]
    | 1, _ =>
      show literalLines? ('\'' :: '\'' :: '\'' :: '\'' :: rest) = some (['\''], rest)
      rw [literalLines?]
      simp [hne]
    | 2, _ => rfl

/-- A quote that is written is one more of those that are pending. -/
theorem replicate_append_cons (quotes : Nat) (mark : Char) (rest : List Char) :
    List.replicate quotes mark ++ mark :: rest =
      List.replicate (quotes + 1) mark ++ rest := by
  rw [List.replicate_succ', List.append_assoc]
  rfl

theorem head?_unit_ne_quote (hquote : c ≠ '"') (rest : List Char) :
    ((if true ∧ c = '\n' then ['\n'] else escapeControl c) ++ rest).head? ≠ some '"' := by
  split
  · simp
  · rcases escapeControl_cases c with ⟨letter, -, heq⟩ | ⟨w, x, y, z, -, heq⟩ | ⟨-, -, heq⟩ <;>
      simp [heq, hquote]

theorem basicLines?_unit (hquote : c ≠ '"') (rest : List Char) :
    basicLines? false ((if true ∧ c = '\n' then ['\n'] else escapeControl c) ++ rest) =
      (basicLines? false rest).map (before c) := by
  split
  · next h =>
    rw [h.2]
    exact basicLines?_plain (Or.inr rfl) (by decide) (by decide) rest
  · exact readsEscapes_basicLines.escapeControl hquote rest

/-- **Between threefold double quotes every text is read back.**  The induction carries the quotes
that are written already, since a reader looks ahead over them. -/
theorem basicLines?_escapeBasic (hrest : rest.head? ≠ some '"') (text : List Char)
    (hquotes : quotes ≤ 2) :
    basicLines? false (List.replicate quotes '"' ++ escapeBasic 2 true quotes text ++
        ['"', '"', '"'] ++ rest) =
      some (List.replicate quotes '"' ++ text, rest) := by
  induction text generalizing quotes with
  | nil =>
    rw [escapeBasic, List.append_nil]
    exact readsQuotes_basicLines.close hquotes hrest
  | cons c text ih =>
    by_cases hquote : c = '"'
    · subst hquote
      rcases Nat.lt_or_eq_of_le hquotes with hlt | rfl
      · rw [escapeBasic_quote_of_lt true hlt, replicate_append_cons, replicate_append_cons]
        exact ih hlt
      · rw [escapeBasic_quote_of_le true (Nat.le_refl 2), List.append_assoc, List.append_assoc,
          readsQuotes_basicLines.pending (Nat.le_refl 2) (by simp)]
        have hrest := ih (Nat.zero_le 2)
        simp only [List.replicate_zero, List.nil_append, List.append_assoc] at hrest
        rw [List.cons_append, List.cons_append, readsEscapes_basicLines.escape rfl, hrest]
        rfl
    · have hrest := ih (Nat.zero_le 2)
      simp only [List.replicate_zero, List.nil_append, List.append_assoc] at hrest
      rw [escapeBasic_cons true hquote, List.append_assoc, List.append_assoc, List.append_assoc,
        readsQuotes_basicLines.pending hquotes (head?_unit_ne_quote hquote _),
        basicLines?_unit hquote, hrest]
      rfl

/-! ### Single quotes -/

/-- **No run of a character is longer than `most`**, with some of them right before the text. -/
def RunsFit (mark : Char) (most : Nat) : Nat → List Char → Prop
  | _, [] => True
  | current, c :: rest =>
    if c = mark then current + 1 ≤ most ∧ RunsFit mark most (current + 1) rest
    else RunsFit mark most 0 rest

/-- One character more: the longest run so far, and the run that is going on. -/
def countRun (mark : Char) (runs : Nat × Nat) (c : Char) : Nat × Nat :=
  if c = mark then (max runs.1 (runs.2 + 1), runs.2 + 1) else (runs.1, 0)

theorem longestRun_eq (mark : Char) (text : List Char) :
    longestRun mark text = (text.foldl (countRun mark) (0, 0)).1 := rfl

theorem foldl_countRun_le_iff (longest current : Nat) :
    (text.foldl (countRun mark) (longest, current)).1 ≤ most ↔
      longest ≤ most ∧ RunsFit mark most current text := by
  induction text generalizing longest current with
  | nil => simp [RunsFit]
  | cons c text ih =>
    by_cases hc : c = mark
    · simp only [List.foldl_cons, countRun, hc, if_true, ih, RunsFit, Nat.max_le, and_assoc]
    · simp only [List.foldl_cons, countRun, hc, if_false, ih, RunsFit]

theorem longestRun_le_iff : longestRun mark text ≤ most ↔ RunsFit mark most 0 text := by
  rw [longestRun_eq, foldl_countRun_le_iff, and_iff_right (Nat.zero_le most)]

theorem not_mem_of_runsFit {current : Nat} (h : RunsFit mark 0 current text) : mark ∉ text := by
  induction text generalizing current with
  | nil => exact List.not_mem_nil
  | cons c text ih =>
    by_cases hc : c = mark
    · simp [RunsFit, hc] at h
    · rw [RunsFit, if_neg hc] at h
      exact List.not_mem_cons_of_ne_of_not_mem (Ne.symm hc) (ih h)

theorem literal?_append (hquote : '\'' ∉ text) (hallowed : ∀ c ∈ text, isForbidden c = false)
    (rest : List Char) : literal? (text ++ '\'' :: rest) = some (text, rest) := by
  induction text with
  | nil => rfl
  | cons c text ih =>
    simp only [List.mem_cons, not_or] at hquote
    obtain ⟨hc, hquote⟩ := hquote
    obtain ⟨hok, hallowed⟩ := List.forall_mem_cons.1 hallowed
    rw [List.cons_append, literal?, if_neg (by simp [hok]), ih hquote hallowed]
    · rfl
    · exact fun heq => hc heq.symm

theorem literalLines?_append (hrest : rest.head? ≠ some '\'')
    (hallowed : ∀ c ∈ text, isForbidden c = false ∨ c = '\n') (hquotes : quotes ≤ 2)
    (hruns : RunsFit '\'' 2 quotes text) :
    literalLines? (List.replicate quotes '\'' ++ text ++ ['\'', '\'', '\''] ++ rest) =
      some (List.replicate quotes '\'' ++ text, rest) := by
  induction text generalizing quotes with
  | nil =>
    rw [List.append_nil]
    exact readsQuotes_literalLines.close hquotes hrest
  | cons c text ih =>
    obtain ⟨hok, hmore⟩ := List.forall_mem_cons.1 hallowed
    by_cases hquote : c = '\''
    · subst hquote
      rw [RunsFit, if_pos rfl] at hruns
      rw [replicate_append_cons]
      exact ih hmore hruns.1 hruns.2
    · rw [RunsFit, if_neg hquote] at hruns
      have hread := ih hmore (Nat.zero_le 2) hruns
      simp only [List.replicate_zero, List.nil_append, List.append_assoc] at hread
      rw [List.append_assoc, List.append_assoc,
        readsQuotes_literalLines.pending hquotes (by simpa using hquote), List.cons_append,
        literalLines?_plain hok hquote, hread]
      rfl

/-! ### Any quotes -/

theorem isForbidden_of_not_needsEscape (h : needsEscape c = false) :
    isForbidden c = false ∨ c = '\n' := by
  by_cases hbreak : c = '\n'
  · exact Or.inr hbreak
  · left
    simpa [needsEscape, hbreak] using h

/-- **What the choice of quotes sees to**: single quotes are for texts without controls, in which no
quotes end the text early. -/
theorem choose_cases (text : List Char) :
    Quotes.choose text = .basic ∨ Quotes.choose text = .basicLines ∨
    (Quotes.choose text = .literal ∧ '\'' ∉ text ∧ ∀ c ∈ text, isForbidden c = false) ∨
    (Quotes.choose text = .literalLines ∧ RunsFit '\'' 2 0 text ∧
      ∀ c ∈ text, isForbidden c = false ∨ c = '\n') := by
  have hcontrols (h : (!text.any needsEscape) = true) :
      ∀ c ∈ text, isForbidden c = false ∨ c = '\n' := fun c hc =>
    isForbidden_of_not_needsEscape (by simpa using List.any_eq_false.1 (by simpa using h) c hc)
  simp only [Quotes.choose]
  split
  · exact Or.inl rfl
  split
  · next h =>
    have hsingles : '\'' ∉ text :=
      not_mem_of_runsFit (longestRun_le_iff.1 (Nat.le_of_eq h.2.1))
    refine Or.inr (Or.inr (Or.inl ⟨rfl, hsingles, fun c hc => ?_⟩))
    refine (hcontrols h.1 c hc).resolve_right ?_
    rintro rfl
    exact h.2.2 hc
  split
  · exact Or.inr (Or.inl rfl)
  split
  · next h => exact Or.inr (Or.inr (Or.inr ⟨rfl, longestRun_le_iff.1 h.2, hcontrols h.1⟩))
  split
  · exact Or.inr (Or.inl rfl)
  · exact Or.inl rfl

/-- A text of one line is taken for one, unless two more quotes follow its first. -/
theorem quoted?_of_line {mark : Char} (hrest : ∀ rest', rest ≠ mark :: mark :: rest') :
    quoted? (mark :: rest) = quotedLine? (mark :: rest) := by
  rw [quoted?]
  · rintro rest' heq
    obtain ⟨rfl, rfl⟩ := List.cons.inj heq
    exact hrest rest' rfl
  · rintro rest' heq
    obtain ⟨rfl, rfl⟩ := List.cons.inj heq
    exact hrest rest' rfl

theorem escapeBasic_ne_quotes (text rest rest' : List Char) :
    escapeBasic 0 false 0 text ++ '"' :: '\n' :: rest ≠ '"' :: '"' :: rest' := by
  cases text with
  | nil => simp [escapeBasic]
  | cons c text =>
    by_cases hquote : c = '"'
    · subst hquote
      simp [escapeBasic_quote_of_le]
    · rw [escapeBasic_cons false hquote, if_neg (by simp)]
      rcases escapeControl_cases c with ⟨letter, -, heq⟩ | ⟨w, x, y, z, -, heq⟩ | ⟨-, -, heq⟩ <;>
        simp [heq, hquote]

/-- **A quoted text read back**, at the end of a line. -/
theorem quoted?_quote (text rest : List Char) :
    quoted? (quote text ++ '\n' :: rest) = some (text, '\n' :: rest) := by
  have hend (mark : Char) (hmark : '\n' ≠ mark) : ('\n' :: rest).head? ≠ some mark := by
    simpa using hmark
  unfold quote
  rcases choose_cases text with h | h | ⟨h, hsingles, hallowed⟩ | ⟨h, hruns, hallowed⟩
  · rw [h, quoteWith, List.append_assoc, List.singleton_append, List.cons_append,
      quoted?_of_line (escapeBasic_ne_quotes text rest)]
    exact basic?_escapeBasic text _ 0
  · rw [h]
    have hread := basicLines?_escapeBasic (hend '"' (by decide)) text (Nat.zero_le 2)
    simpa [quoteWith, quoted?, dropFirstBreak, newline?] using hread
  · rw [h, quoteWith, List.append_assoc, List.singleton_append, List.cons_append, quoted?_of_line]
    · exact literal?_append hsingles hallowed _
    · rintro rest' heq
      cases text with
      | nil => cases heq
      | cons c text => exact hsingles ((List.cons.inj heq).1 ▸ List.mem_cons_self)
  · rw [h]
    have hread := literalLines?_append (hend '\'' (by decide)) hallowed (Nat.zero_le 2) hruns
    simpa [quoteWith, quoted?, dropFirstBreak, newline?] using hread

example : quote "a\tb".toList = "\"a\\tb\"".toList := by decide

end ShortMessage.Toml
