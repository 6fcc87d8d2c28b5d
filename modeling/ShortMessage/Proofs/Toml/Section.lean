import ShortMessage.Proofs.Toml.Keys
import ShortMessage.Proofs.Toml.Value
import ShortMessage.Toml.Document

/-!
# A written document read back

A document of sections with bare names and keys, none of them twice, reads as the table that its
sections stand for, whatever texts and numbers its values are.

* `statement?_header`, `statement?_entry`: one line, and `statements?_renderAll`: all of them;
* `ofStatements?_statements`: the sections put together;
* `parse?_render`: the document.
-/

namespace ShortMessage.Toml

variable {c : Char} {text rest : List Char} {key : String}

/-! ### Keys -/

/-- A key that needs no quotes. -/
structure IsBare (key : String) : Prop where
  ne_nil : key.toList ≠ []
  bare : ∀ c ∈ key.toList, isBareChar c = true

theorem isBare_iff : IsBare key ↔ key.toList ≠ [] ∧ key.toList.all isBareChar = true :=
  ⟨fun h => ⟨h.ne_nil, List.all_eq_true.2 h.bare⟩, fun h => ⟨h.1, List.all_eq_true.1 h.2⟩⟩

instance : Decidable (IsBare key) :=
  decidable_of_iff _ isBare_iff.symm

theorem IsBare.renderKey (h : IsBare key) : renderKey key = key.toList :=
  if_pos (isBare_iff.1 h)

theorem ne_of_isBareChar {d : Char} (h : isBareChar c = true) (hd : isBareChar d = false) :
    c ≠ d := by
  rintro rfl
  cases h.symm.trans hd

theorem isSpace_of_isBareChar (h : isBareChar c = true) : isSpace c = false := by
  simp [isSpace, ne_of_isBareChar h (d := ' ') (by decide),
    ne_of_isBareChar h (d := '\t') (by decide)]

theorem IsBare.exists_cons (h : IsBare key) :
    ∃ c more, key.toList = c :: more ∧ isBareChar c = true := by
  obtain ⟨c, more, heq⟩ := List.exists_cons_of_ne_nil h.ne_nil
  exact ⟨c, more, heq, h.bare c (heq ▸ List.mem_cons_self)⟩

theorem IsBare.append_ne {mark : Char} (h : IsBare key) (hmark : isBareChar mark = false)
    (rest rest' : List Char) : key.toList ++ rest ≠ mark :: rest' := by
  obtain ⟨c, more, hkey, hc⟩ := h.exists_cons
  rw [hkey]
  exact fun heq => ne_of_isBareChar hc hmark (List.cons.inj heq).1

theorem key?_append (h : IsBare key) (hrest : ∀ c ∈ rest.head?, isBareChar c = false) :
    key? (key.toList ++ rest) = some (key, rest) := by
  have hnone : quotedLine? (key.toList ++ rest) = none := by
    rw [quotedLine?]
    · exact fun _ => h.append_ne (by decide) rest _
    · exact fun _ => h.append_ne (by decide) rest _
  have htake : rest.takeWhile isBareChar = [] ∧ rest.dropWhile isBareChar = rest := by
    cases rest with
    | nil => exact ⟨rfl, rfl⟩
    | cons c rest =>
      have hc : ¬ isBareChar c = true := by simp [hrest c rfl]
      exact ⟨List.takeWhile_cons_of_neg hc, List.dropWhile_cons_of_neg hc⟩
  unfold key?
  rw [hnone]
  simp only [List.takeWhile_append_of_pos h.bare, List.dropWhile_append_of_pos h.bare, htake,
    List.append_nil]
  rw [if_neg (by simpa using h.ne_nil), String.ofList_toList]

theorem dropSpaces_cons (h : isSpace c = false) (rest : List Char) :
    dropSpaces (c :: rest) = c :: rest :=
  List.dropWhile_cons_of_neg (by simp [h])

theorem dropSpaces_key (h : IsBare key) (rest : List Char) :
    dropSpaces (key.toList ++ rest) = key.toList ++ rest := by
  obtain ⟨c, more, heq, hc⟩ := h.exists_cons
  rw [heq, List.cons_append, dropSpaces_cons (isSpace_of_isBareChar hc)]

theorem path?_append (h : IsBare key) (hrest : ∀ c ∈ rest.head?, isBareChar c = false)
    (hdot : (dropSpaces rest).head? ≠ some '.') (fuel : Nat) :
    path? (fuel + 1) (key.toList ++ rest) = some ([key], dropSpaces rest) := by
  rw [path?, dropSpaces_key h, key?_append h hrest, Option.bind_eq_bind, Option.bind_some]
  simp only
  split
  · next heq => exact absurd (congrArg List.head? heq) hdot
  · rfl

/-! ### Lines -/

theorem dropLines?_of_visible (hspace : isSpace c = false) (hmark : c ∉ ['#', '\n', '\r'])
    (rest : List Char) (fuel : Nat) : dropLines? (fuel + 1) (c :: rest) = some (c :: rest) := by
  simp only [List.mem_cons, List.not_mem_nil, or_false, not_or] at hmark
  have htail : dropTail? (c :: rest) = some (c :: rest) := by
    rw [dropTail?, dropSpaces_cons hspace]
    split
    · next heq => exact absurd (List.cons.inj heq).1 hmark.1
    · rfl
  have hbreak : newline? (c :: rest) = none := by
    rw [newline?]
    · exact fun _ heq => hmark.2.1 (List.cons.inj heq).1
    · exact fun _ heq => hmark.2.2 (List.cons.inj heq).1
  rw [dropLines?, htail, Option.bind_eq_bind, Option.bind_some, hbreak]
  rfl

theorem endLine?_newline (rest : List Char) : endLine? ('\n' :: rest) = some rest := rfl

theorem statements?_nil (fuel : Nat) : statements? (fuel + 1) [] = some [] := rfl

theorem statements?_newline (rest : List Char) (fuel : Nat) :
    statements? (fuel + 1) ('\n' :: rest) = statements? (fuel + 1) rest := by
  have hdrop : dropLines? ('\n' :: rest).length.succ ('\n' :: rest) =
      dropLines? rest.length.succ rest := rfl
  rw [statements?, statements?, hdrop]

/-- **A line and the lines after it.** -/
theorem statements?_line {statement : Statement} (hspace : isSpace c = false)
    (hmark : c ∉ ['#', '\n', '\r'])
    (h : statement? (c :: text) = some (statement, '\n' :: rest)) (fuel : Nat) :
    statements? (fuel + 1) (c :: text) = (statements? fuel rest).map (statement :: ·) := by
  rw [statements?, dropLines?_of_visible hspace hmark, Option.bind_eq_bind, Option.bind_some]
  simp only [h, Option.bind_eq_bind, Option.bind_some, endLine?_newline]
  cases statements? fuel rest <;> rfl

theorem statement?_header {name : String} (h : IsBare name) (rest : List Char) :
    statement? ('[' :: (name.toList ++ ']' :: '\n' :: rest)) =
      some (.table [name], '\n' :: rest) := by
  have hpath (fuel : Nat) : path? (fuel + 1) (name.toList ++ ']' :: '\n' :: rest) =
      some ([name], ']' :: '\n' :: rest) := by
    refine path?_append h ?_ ?_ fuel
    · rintro c ⟨⟩
      decide
    · rw [dropSpaces_cons (by decide)]
      simp
  rw [statement?]
  · rw [hpath]
    rfl
  · exact fun _ => h.append_ne (by decide) _ _

theorem statement?_assign (h : IsBare key) {written : List Char} {value : Value}
    (hspace : dropSpaces written = written)
    (hvalue : ∀ fuel, written.length < fuel → value? fuel written = some (value, '\n' :: rest)) :
    statement? (key.toList ++ ' ' :: '=' :: ' ' :: written) =
      some (.assign [key] value, '\n' :: rest) := by
  have hpath (fuel : Nat) : path? (fuel + 1) (key.toList ++ ' ' :: '=' :: ' ' :: written) =
      some ([key], '=' :: ' ' :: written) := by
    refine path?_append h ?_ ?_ fuel
    · rintro c ⟨⟩
      decide
    · simp [dropSpaces, isSpace]
  have hskip : dropSpaces (' ' :: written) = written := hspace
  have hfuel : written.length < (key.toList ++ ' ' :: '=' :: ' ' :: written).length.succ := by
    simp only [List.length_append, List.length_cons]
    omega
  rw [statement?]
  · rw [hpath]
    simp only [Option.bind_eq_bind, Option.bind_some, mark?, if_true, hskip, hvalue _ hfuel]
    rfl
  · exact fun _ => h.append_ne (by decide) _ _
  · exact fun _ => h.append_ne (by decide) _ _

theorem statement?_entry (h : IsBare key) (atom : Atom) (rest : List Char) :
    statement? (key.toList ++ ' ' :: '=' :: ' ' :: (atom.render ++ '\n' :: rest)) =
      some (.assign [key] atom.toValue, '\n' :: rest) := by
  refine statement?_assign h ?_ fun fuel hfuel => ?_
  · obtain ⟨c, more, heq, hspace, -⟩ := exists_render atom
    rw [heq]
    exact dropSpaces_cons hspace _
  · obtain ⟨fuel, rfl⟩ := Nat.exists_eq_add_of_lt hfuel
    exact value?_render atom rest _

/-! ### All lines -/

/-- What a section says: its header and its entries. -/
def Section.statements (s : Section) : List Statement :=
  .table [s.name] :: s.entries.map fun (key, atom) => .assign [key] atom.toValue

/-- **A section of bare names**, and no key twice. -/
structure Section.Plain (s : Section) : Prop where
  name : IsBare s.name
  bare : ∀ e ∈ s.entries, IsBare e.1
  distinct : (s.entries.map Prod.fst).Nodup

theorem statements?_entries {entries : List (String × Atom)} (h : ∀ e ∈ entries, IsBare e.1)
    (rest : List Char) (fuel : Nat) :
    statements? (fuel + entries.length) (entries.flatMap renderEntry ++ rest) =
      (statements? fuel rest).map
        (entries.map (fun (key, atom) => .assign [key] atom.toValue) ++ ·) := by
  induction entries with
  | nil => cases hs : statements? fuel rest <;> simp [hs]
  | cons e entries ih =>
    obtain ⟨key, atom⟩ := e
    obtain ⟨hkey, hmore⟩ := List.forall_mem_cons.1 h
    have hline : renderEntry (key, atom) ++ (entries.flatMap renderEntry ++ rest) =
        key.toList ++ ' ' :: '=' :: ' ' ::
          (atom.render ++ '\n' :: (entries.flatMap renderEntry ++ rest)) := by
      simp [renderEntry, hkey.renderKey]
    obtain ⟨c, more, heq, hc⟩ := hkey.exists_cons
    have hread := statement?_entry hkey atom (entries.flatMap renderEntry ++ rest)
    rw [List.flatMap_cons, List.append_assoc, hline, List.length_cons, ← Nat.add_assoc]
    rw [heq, List.cons_append] at hread ⊢
    rw [statements?_line (isSpace_of_isBareChar hc) ?_ hread, ih hmore]
    · cases statements? fuel rest <;> rfl
    · intro hmem
      have hmarks : ['#', '\n', '\r'].all (!isBareChar ·) = true := by decide
      have hmark := List.all_eq_true.1 hmarks c hmem
      rw [hc] at hmark
      cases hmark

theorem statements?_section {s : Section} (h : s.Plain) (rest : List Char) (fuel : Nat) :
    statements? (fuel + s.statements.length) (s.render ++ rest) =
      (statements? fuel rest).map (s.statements ++ ·) := by
  have hline : s.render ++ rest =
      '[' :: (s.name.toList ++ ']' :: '\n' :: (s.entries.flatMap renderEntry ++ rest)) := by
    simp [Section.render, h.name.renderKey]
  have hlength : s.statements.length = s.entries.length + 1 := by simp [Section.statements]
  rw [hline, hlength, ← Nat.add_assoc,
    statements?_line (by decide) (by decide) (statement?_header h.name _),
    statements?_entries h.bare]
  cases statements? fuel rest <;> rfl

/-- The characters of a document. -/
def renderAll (sections : List Section) : List Char :=
  List.intercalate ['\n'] (sections.map Section.render)

theorem renderAll_cons_cons (s s' : Section) (sections : List Section) :
    renderAll (s :: s' :: sections) = s.render ++ '\n' :: renderAll (s' :: sections) := by
  simp [renderAll, List.intercalate]

/-- **The lines of a document read back.** -/
theorem statements?_renderAll {sections : List Section} (h : ∀ s ∈ sections, s.Plain)
    (fuel : Nat) :
    statements? (fuel + 1 + (sections.flatMap Section.statements).length) (renderAll sections) =
      some (sections.flatMap Section.statements) := by
  induction sections with
  | nil => exact statements?_nil fuel
  | cons s sections ih =>
    obtain ⟨hs, hmore⟩ := List.forall_mem_cons.1 h
    cases sections with
    | nil =>
      have hread := statements?_section hs [] (fuel + 1)
      simpa [renderAll, List.intercalate, statements?_nil] using hread
    | cons s' sections =>
      have hread := ih hmore
      generalize hcount : ((s' :: sections).flatMap Section.statements).length = count at hread
      have hfuel : fuel + 1 + ((s :: s' :: sections).flatMap Section.statements).length =
          fuel + count + 1 + s.statements.length := by
        rw [List.flatMap_cons, List.length_append, hcount]
        omega
      rw [Nat.add_right_comm] at hread
      rw [hfuel, renderAll_cons_cons, statements?_section hs, statements?_newline, hread]
      rfl

theorem length_statements_le (s : Section) : s.statements.length ≤ s.render.length := by
  have hentries (entries : List (String × Atom)) :
      entries.length ≤ (entries.flatMap renderEntry).length := by
    induction entries with
    | nil => exact Nat.le_refl 0
    | cons e entries ih =>
      have hline : 1 ≤ (renderEntry e).length := by
        simp only [renderEntry, List.length_append, List.length_cons, List.length_nil]
        omega
      rw [List.flatMap_cons, List.length_append, List.length_cons]
      omega
  have h := hentries s.entries
  simp only [Section.statements, Section.render, List.length_cons, List.length_append,
    List.length_map]
  omega

/-- No more is said than there are characters. -/
theorem length_statements_le_renderAll (sections : List Section) :
    (sections.flatMap Section.statements).length ≤ (renderAll sections).length := by
  induction sections with
  | nil => exact Nat.le_refl 0
  | cons s sections ih =>
    have hs := length_statements_le s
    cases sections with
    | nil => simpa [renderAll, List.intercalate] using hs
    | cons s' sections =>
      rw [renderAll_cons_cons, List.flatMap_cons, List.length_append, List.length_append,
        List.length_cons]
      omega

/-! ### Putting sections together -/

/-- The nodes of entries, and of sections. -/
def entryNodes (entries : List (String × Atom)) : Nodes :=
  entries.map fun (key, atom) => (key, .value atom.toValue)

/-- A section as its header and its assignments build it. -/
def Section.node (s : Section) : String × Node :=
  (s.name, .table .header (entryNodes s.entries))

theorem Draft.add?_table {d : Draft} {name : String} (h : name ∉ d.fields.map Prod.fst) :
    d.add? (.table [name]) = some ⟨d.fields ++ [(name, .table .header [])], [name]⟩ := by
  have hopen : Node.open? name d.fields = some (d.fields ++ [(name, .table .header [])]) := by
    rw [Node.open?, lookup_eq_none h, Node.set_of_not_mem h]
  simp [Draft.add?, Node.alter?, hopen]

theorem Node.assign?_of_not_mem {inner : Nodes} (h : key ∉ inner.map Prod.fst) (value : Value) :
    Node.assign? [key] value .header inner = some (inner ++ [(key, .value value)]) := by
  simp [Node.assign?, Node.alter?, Node.put?, lookup_eq_none h, Node.set_of_not_mem h]

theorem Draft.add?_assign {name : String} {fields inner : Nodes}
    (hname : name ∉ fields.map Prod.fst) (hkey : key ∉ inner.map Prod.fst) (value : Value) :
    Draft.add? ⟨fields ++ [(name, .table .header inner)], [name]⟩ (.assign [key] value) =
      some ⟨fields ++ [(name, .table .header (inner ++ [(key, .value value)]))], [name]⟩ := by
  have hinner := Node.assign?_of_not_mem hkey value
  simp [Draft.add?, Node.alter?, lookup_concat hname, hinner, Node.set_concat hname]

theorem foldlM_entries {name : String} {fields inner : Nodes} (hname : name ∉ fields.map Prod.fst)
    {entries : List (String × Atom)} (hdistinct : (entries.map Prod.fst).Nodup)
    (hnew : ∀ e ∈ entries, e.1 ∉ inner.map Prod.fst) :
    (entries.map fun (key, atom) => Statement.assign [key] atom.toValue).foldlM Draft.add?
        ⟨fields ++ [(name, .table .header inner)], [name]⟩ =
      some ⟨fields ++ [(name, .table .header (inner ++ entryNodes entries))], [name]⟩ := by
  induction entries generalizing inner with
  | nil => simp [entryNodes]
  | cons e entries ih =>
    obtain ⟨key, atom⟩ := e
    rw [List.map_cons, List.nodup_cons] at hdistinct
    obtain ⟨hkey, hnew⟩ := List.forall_mem_cons.1 hnew
    have hkey' : key ∉ entries.map Prod.fst := hdistinct.1
    have hmore : ∀ e ∈ entries, e.1 ∉ (inner ++ [(key, Node.value atom.toValue)]).map Prod.fst := by
      intro e he
      have hne : e.1 ≠ key := fun heq => hkey' (heq ▸ List.mem_map_of_mem he)
      exact not_mem_keys_concat (hnew e he) hne _
    rw [List.map_cons, List.foldlM_cons, Draft.add?_assign hname hkey, Option.bind_eq_bind,
      Option.bind_some, ih hdistinct.2 hmore]
    simp [entryNodes]

theorem foldlM_sections {sections : List Section} {d : Draft} (h : ∀ s ∈ sections, s.Plain)
    (hdistinct : (sections.map Section.name).Nodup)
    (hnew : ∀ s ∈ sections, s.name ∉ d.fields.map Prod.fst) :
    ∃ path, (sections.flatMap Section.statements).foldlM Draft.add? d =
      some ⟨d.fields ++ sections.map Section.node, path⟩ := by
  induction sections generalizing d with
  | nil => exact ⟨d.current, by simp⟩
  | cons s sections ih =>
    obtain ⟨hs, hmore⟩ := List.forall_mem_cons.1 h
    rw [List.map_cons, List.nodup_cons] at hdistinct
    obtain ⟨hname, hnew⟩ := List.forall_mem_cons.1 hnew
    have hfirst : s.statements.foldlM Draft.add? d =
        some ⟨d.fields ++ [s.node], [s.name]⟩ := by
      rw [Section.statements, List.foldlM_cons, Draft.add?_table hname, Option.bind_eq_bind,
        Option.bind_some, foldlM_entries hname hs.distinct fun e _ => List.not_mem_nil]
      rfl
    have hnext : ∀ s' ∈ sections, s'.name ∉ (d.fields ++ [s.node]).map Prod.fst := by
      intro s' hs'
      have hne : s'.name ≠ s.name := fun heq => hdistinct.1 (heq ▸ List.mem_map_of_mem hs')
      exact not_mem_keys_concat (hnew s' hs') hne _
    obtain ⟨path, hrest⟩ := ih (d := ⟨d.fields ++ [s.node], [s.name]⟩) hmore hdistinct.2 hnext
    refine ⟨path, ?_⟩
    rw [List.flatMap_cons, List.foldlM_append, hfirst, Option.bind_eq_bind, Option.bind_some, hrest]
    simp

theorem toTable_entryNodes (entries : List (String × Atom)) :
    Node.toTable (entryNodes entries) = entries.map fun (key, atom) => (key, atom.toValue) := by
  induction entries with
  | nil => rfl
  | cons e entries ih => exact congrArg ((e.1, e.2.toValue) :: ·) ih

theorem toTable_nodes (sections : List Section) :
    Node.toTable (sections.map Section.node) = toTable sections := by
  induction sections with
  | nil => rfl
  | cons s sections ih =>
    rw [List.map_cons, Section.node, Node.toTable, Node.toValue, toTable_entryNodes, ih]
    rfl

/-- **A document of plain sections**, and none of them twice. -/
structure Plain (sections : List Section) : Prop where
  plain : ∀ s ∈ sections, s.Plain
  distinct : (sections.map Section.name).Nodup

theorem ofStatements?_statements {sections : List Section} (h : Plain sections) :
    ofStatements? (sections.flatMap Section.statements) = some (toTable sections) := by
  obtain ⟨path, hdraft⟩ := foldlM_sections (d := .empty) h.plain h.distinct
    fun s _ => List.not_mem_nil
  rw [ofStatements?, hdraft, Option.bind_eq_bind, Option.bind_some]
  exact congrArg some (toTable_nodes sections)

theorem dropOrderMark_renderAll (sections : List Section) :
    dropOrderMark (renderAll sections) = renderAll sections := by
  have hhead : (renderAll sections).head? ≠ some '\ufeff' := by
    match sections with
    | [] => simp [renderAll]
    | [s] => simp [renderAll, List.intercalate, Section.render]
    | s :: s' :: sections => simp [renderAll_cons_cons, Section.render]
  rw [dropOrderMark]
  exact fun rest heq => hhead (congrArg List.head? heq)

/-- **A document of plain sections reads as what it stands for.** -/
theorem parse?_render {sections : List Section} (h : Plain sections) :
    parse? (render sections) = some (toTable sections) := by
  have hlength := length_statements_le_renderAll sections
  obtain ⟨fuel, hfuel⟩ : ∃ fuel, (renderAll sections).length.succ =
      fuel + 1 + (sections.flatMap Section.statements).length :=
    ⟨(renderAll sections).length - (sections.flatMap Section.statements).length, by omega⟩
  have htext : (render sections).toList = renderAll sections := String.toList_ofList
  rw [parse?, htext, dropOrderMark_renderAll]
  simp only [hfuel, statements?_renderAll h.plain, Option.bind_eq_bind, Option.bind_some,
    ofStatements?_statements h]

end ShortMessage.Toml
