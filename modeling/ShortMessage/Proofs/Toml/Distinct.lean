import ShortMessage.Proofs.Toml.Keys
import ShortMessage.Toml.Document

/-!
# No key twice

A document that is read holds no key twice, neither at its top nor anywhere below.  The reader sees
to it when it puts a document together: each change of a table keeps its keys apart.

* `Value.Distinct`, `Node.Distinct`: no key twice, in a value and in a node;
* `DistinctNodes.set`, `Node.alter?_distinct`, `Node.assign?_distinct`: one change;
* `value?_distinct`: values, and with them tables in braces;
* `parse?_distinct`: documents.
-/

namespace ShortMessage.Toml

/-- **No key twice**, in a value or in what it holds. -/
inductive Value.Distinct : Value → Prop
  | bool (b : Bool) : Value.Distinct (.bool b)
  | integer (n : Int) : Value.Distinct (.integer n)
  | real (x : Binary64) : Value.Distinct (.real x)
  | text (s : String) : Value.Distinct (.text s)
  | moment (s : String) : Value.Distinct (.moment s)
  | list {values : List Value} (each : ∀ v ∈ values, v.Distinct) : Value.Distinct (.list values)
  | table {fields : Table} (keys : (fields.map Prod.fst).Nodup)
      (each : ∀ e ∈ fields, e.2.Distinct) : Value.Distinct (.table fields)

/-- No table in a node has a key twice. -/
inductive Node.Distinct : Node → Prop
  | value {v : Value} (h : v.Distinct) : Node.Distinct (.value v)
  | table {origin : Origin} {fields : Nodes} (keys : (fields.map Prod.fst).Nodup)
      (each : ∀ e ∈ fields, e.2.Distinct) : Node.Distinct (.table origin fields)
  | tables {newestFirst : List Nodes}
      (each : ∀ fields ∈ newestFirst, Node.Distinct (.table .header fields)) :
      Node.Distinct (.tables newestFirst)

/-- Nodes with no key twice, neither among them nor below. -/
structure DistinctNodes (fields : Nodes) : Prop where
  keys : (fields.map Prod.fst).Nodup
  each : ∀ e ∈ fields, e.2.Distinct

variable {key : String} {node : Node} {fields fields' : Nodes} {origin : Origin} {value : Value}

theorem DistinctNodes.nil : DistinctNodes [] :=
  ⟨List.nodup_nil, fun _ h => absurd h List.not_mem_nil⟩

theorem DistinctNodes.table (h : DistinctNodes fields) : (Node.table origin fields).Distinct :=
  .table h.keys h.each

theorem Node.Distinct.inside (h : (Node.table origin fields).Distinct) : DistinctNodes fields := by
  cases h with
  | table keys each => exact ⟨keys, each⟩

/-! ### One change -/

theorem keys_set (key : String) (node : Node) (fields : Nodes) :
    (Node.set key node fields).map Prod.fst =
      if key ∈ fields.map Prod.fst then fields.map Prod.fst else fields.map Prod.fst ++ [key] := by
  induction fields with
  | nil => rfl
  | cons e fields ih =>
    obtain ⟨k, old⟩ := e
    by_cases hk : k = key
    · simp [Node.set, hk]
    · simp only [Node.set, hk, if_false, List.map_cons, List.mem_cons, Ne.symm hk, false_or, ih]
      split <;> rfl

theorem mem_set {e : String × Node} (h : e ∈ Node.set key node fields) :
    e = (key, node) ∨ e ∈ fields := by
  induction fields with
  | nil => exact Or.inl (List.mem_singleton.1 h)
  | cons e' fields ih =>
    obtain ⟨k, old⟩ := e'
    rw [Node.set] at h
    split at h
    case isTrue hk =>
      subst hk
      exact (List.mem_cons.1 h).imp_right (List.mem_cons_of_mem _)
    case isFalse =>
      rcases List.mem_cons.1 h with rfl | h
      · exact Or.inr List.mem_cons_self
      · exact (ih h).imp_right (List.mem_cons_of_mem _)

theorem DistinctNodes.set (h : DistinctNodes fields) (hnode : node.Distinct) (key : String) :
    DistinctNodes (Node.set key node fields) where
  keys := by
    rw [keys_set]
    split
    case isTrue => exact h.keys
    case isFalse hnew =>
      rw [List.nodup_append]
      refine ⟨h.keys, by simp, fun k hk k' hk' heq => hnew ?_⟩
      rw [List.mem_singleton] at hk'
      exact hk' ▸ heq ▸ hk
  each e he := by
    rcases mem_set he with rfl | he
    · exact hnode
    · exact h.each e he

theorem DistinctNodes.of_lookup (h : DistinctNodes fields)
    (hlookup : fields.lookup key = some node) : node.Distinct :=
  h.each _ (mem_of_lookup hlookup)

namespace Node

/-- **A change of a table anywhere below** keeps keys apart if it does so in that table. -/
theorem alter?_distinct {dotted : Bool} {change : Origin → Nodes → Option Nodes}
    (hchange : ∀ origin fields fields', DistinctNodes fields → change origin fields = some fields' →
      DistinctNodes fields') (path : Path) :
    ∀ origin fields fields', DistinctNodes fields →
      alter? dotted change path origin fields = some fields' → DistinctNodes fields' := by
  induction path with
  | nil => exact hchange
  | cons key path ih =>
    intro origin fields fields' h halter
    rw [alter?] at halter
    cases hlookup : fields.lookup key with
    | none =>
      rw [hlookup] at halter
      obtain ⟨inner, hinner, heq⟩ := Option.bind_eq_some_iff.1 halter
      cases heq
      exact h.set (ih _ _ _ .nil hinner).table key
    | some node =>
      have hnode := h.of_lookup hlookup
      rw [hlookup] at halter
      match node with
      | .value _ => cases halter
      | .tables [] => cases halter
      | .tables (newest :: older) =>
        obtain ⟨inner, hinner, heq⟩ := Option.bind_eq_some_iff.1 halter
        cases heq
        cases hnode with
        | tables each =>
          obtain ⟨hnewest, holder⟩ := List.forall_mem_cons.1 each
          exact h.set (.tables (List.forall_mem_cons.2
            ⟨(ih _ _ _ hnewest.inside hinner).table, holder⟩)) key
      | .table origin inner =>
        simp only [Option.ite_none_left_eq_some] at halter
        obtain ⟨inner', hinner, heq⟩ := Option.bind_eq_some_iff.1 halter.2
        cases heq
        exact h.set (ih _ _ _ hnode.inside hinner).table key

theorem open?_distinct (h : DistinctNodes fields) (hopen : open? key fields = some fields') :
    DistinctNodes fields' := by
  unfold open? at hopen
  split at hopen
  case h_1 =>
    cases hopen
    exact h.set (DistinctNodes.nil.table) key
  case h_2 hlookup =>
    cases hopen
    exact h.set (h.of_lookup hlookup).inside.table key
  case h_3 => cases hopen

theorem extend?_distinct (h : DistinctNodes fields) (hextend : extend? key fields = some fields') :
    DistinctNodes fields' := by
  unfold extend? at hextend
  split at hextend
  case h_1 =>
    cases hextend
    exact h.set (.tables (List.forall_mem_singleton.2 DistinctNodes.nil.table)) key
  case h_2 hlookup =>
    cases hextend
    cases h.of_lookup hlookup with
    | tables each =>
      exact h.set (.tables (List.forall_mem_cons.2 ⟨DistinctNodes.nil.table, each⟩)) key
  case h_3 => cases hextend

theorem assign?_distinct (hvalue : value.Distinct) (path : Path) (origin : Origin)
    (fields fields' : Nodes) (h : DistinctNodes fields)
    (hassign : assign? path value origin fields = some fields') : DistinctNodes fields' := by
  obtain ⟨key, -, halter⟩ := Option.bind_eq_some_iff.1 hassign
  refine alter?_distinct (fun origin fields fields' h hput => ?_) _ _ _ _ h halter
  simp only [put?, Option.ite_none_right_eq_some, Option.some.injEq] at hput
  rw [← hput.2]
  exact h.set (.value hvalue) key

end Node

/-! ### Nodes as values -/

theorem toTable_eq_map (fields : Nodes) :
    Node.toTable fields = fields.map fun e => (e.1, e.2.toValue) := by
  induction fields with
  | nil => rfl
  | cons e fields ih => exact congrArg ((e.1, e.2.toValue) :: ·) ih

theorem toTables_eq_map (newestFirst : List Nodes) :
    Node.toTables newestFirst = newestFirst.map fun fields => .table (Node.toTable fields) := by
  induction newestFirst with
  | nil => rfl
  | cons fields rest ih => exact congrArg (Value.table (Node.toTable fields) :: ·) ih

theorem Node.Distinct.toValue (h : node.Distinct) : node.toValue.Distinct := by
  induction h with
  | value h => exact h
  | @table origin fields keys each ih =>
    refine .table ?_ ?_
    · rwa [toTable_eq_map, List.map_map]
    · rw [toTable_eq_map]
      exact List.forall_mem_map.2 ih
  | @tables newestFirst each ih =>
    refine .list fun v hv => ?_
    rw [List.mem_reverse, toTables_eq_map] at hv
    obtain ⟨fields, hmem, rfl⟩ := List.mem_map.1 hv
    exact ih fields hmem

theorem DistinctNodes.toTable (h : DistinctNodes fields) :
    (Value.table (Node.toTable fields)).Distinct :=
  have htable : (Node.table .header fields).Distinct := h.table
  htable.toValue

/-! ### Reading -/

/-- What holds at first and is kept by every step holds at last. -/
theorem foldlM_induction {α β : Type} {step : β → α → Option β} {P : β → Prop} {l : List α}
    (hstep : ∀ a ∈ l, ∀ b b', P b → step b a = some b' → P b') {b b' : β} (h : P b)
    (hfold : l.foldlM step b = some b') : P b' := by
  induction l generalizing b with
  | nil =>
    cases hfold
    exact h
  | cons a l ih =>
    rw [List.foldlM_cons] at hfold
    obtain ⟨next, hnext, hrest⟩ := Option.bind_eq_some_iff.1 hfold
    obtain ⟨hfirst, hmore⟩ := List.forall_mem_cons.1 hstep
    exact ih hmore (hfirst b next h hnext) hrest

theorem ofAssignments?_distinct {assignments : List (Path × Value)}
    (h : ∀ a ∈ assignments, a.2.Distinct) (hread : ofAssignments? assignments = some value) :
    value.Distinct := by
  obtain ⟨fields, hfold, heq⟩ := Option.bind_eq_some_iff.1 hread
  cases heq
  refine DistinctNodes.toTable (foldlM_induction (P := DistinctNodes) ?_ .nil hfold)
  exact fun a ha fields fields' hfields hassign =>
    Node.assign?_distinct (h a ha) a.1 .header fields fields' hfields hassign

variable {text rest : List Char}

theorem scalar?_distinct (h : scalar? text = some (value, rest)) : value.Distinct := by
  unfold scalar? at h
  split at h
  case h_1 =>
    cases h
    exact .moment _
  case h_2 =>
    obtain ⟨v, hword, heq⟩ := Option.map_eq_some_iff.1 h
    cases heq
    unfold ofWord? at hword
    split at hword
    · cases hword
      exact .bool _
    split at hword
    · cases hword
      exact .bool _
    split at hword
    · cases hword
      exact .integer _
    · obtain ⟨x, -, rfl⟩ := Option.map_eq_some_iff.1 hword
      exact .real x

/-- What the readers of values give, with so much fuel, holds no key twice. -/
structure ReadsDistinct (fuel : Nat) : Prop where
  value : ∀ text v rest, value? fuel text = some (v, rest) → v.Distinct
  elements : ∀ text values rest, elements? fuel text = some (values, rest) →
    ∀ v ∈ values, v.Distinct
  assignments : ∀ text assignments rest, assignments? fuel text = some (assignments, rest) →
    ∀ a ∈ assignments, a.2.Distinct

theorem ReadsDistinct.value_succ {fuel : Nat} (h : ReadsDistinct fuel) {v : Value}
    (hread : value? (fuel + 1) text = some (v, rest)) : v.Distinct := by
  unfold value? at hread
  split at hread
  case h_1 => cases hread
  case h_2 heq =>
    cases heq
    obtain ⟨⟨values, more⟩, helements, heq⟩ := Option.bind_eq_some_iff.1 hread
    cases heq
    exact .list (h.elements _ _ _ helements)
  case h_3 heq =>
    cases heq
    obtain ⟨⟨assignments, more⟩, hassignments, hbraces⟩ := Option.bind_eq_some_iff.1 hread
    obtain ⟨table, htable, heq⟩ := Option.bind_eq_some_iff.1 hbraces
    cases heq
    exact ofAssignments?_distinct (h.assignments _ _ _ hassignments) htable
  case h_4 =>
    split at hread
    · cases hread
      exact .text _
    · exact scalar?_distinct hread

theorem ReadsDistinct.elements_succ {fuel : Nat} (h : ReadsDistinct fuel) {values : List Value}
    (hread : elements? (fuel + 1) text = some (values, rest)) : ∀ v ∈ values, v.Distinct := by
  unfold elements? at hread
  obtain ⟨start, -, hread⟩ := Option.bind_eq_some_iff.1 hread
  split at hread
  · cases hread
    exact fun v hv => absurd hv List.not_mem_nil
  obtain ⟨⟨first, after⟩, hfirst, hread⟩ := Option.bind_eq_some_iff.1 hread
  have hdistinct := h.value _ _ _ hfirst
  obtain ⟨next, -, hread⟩ := Option.bind_eq_some_iff.1 hread
  simp only at hread
  split at hread
  · obtain ⟨⟨others, more⟩, hothers, heq⟩ := Option.bind_eq_some_iff.1 hread
    cases heq
    exact List.forall_mem_cons.2 ⟨hdistinct, h.elements _ _ _ hothers⟩
  · cases hread
    exact List.forall_mem_singleton.2 hdistinct
  · cases hread

theorem ReadsDistinct.assignments_succ {fuel : Nat} (h : ReadsDistinct fuel)
    {assignments : List (Path × Value)}
    (hread : assignments? (fuel + 1) text = some (assignments, rest)) :
    ∀ a ∈ assignments, a.2.Distinct := by
  unfold assignments? at hread
  obtain ⟨start, -, hread⟩ := Option.bind_eq_some_iff.1 hread
  split at hread
  · cases hread
    exact fun v hv => absurd hv List.not_mem_nil
  obtain ⟨⟨path, after⟩, -, hread⟩ := Option.bind_eq_some_iff.1 hread
  obtain ⟨mark, -, hread⟩ := Option.bind_eq_some_iff.1 hread
  obtain ⟨⟨first, after⟩, hfirst, hread⟩ := Option.bind_eq_some_iff.1 hread
  have hdistinct := h.value _ _ _ hfirst
  obtain ⟨next, -, hread⟩ := Option.bind_eq_some_iff.1 hread
  simp only at hread
  split at hread
  · obtain ⟨⟨others, more⟩, hothers, heq⟩ := Option.bind_eq_some_iff.1 hread
    cases heq
    exact List.forall_mem_cons.2 ⟨hdistinct, h.assignments _ _ _ hothers⟩
  · cases hread
    exact List.forall_mem_singleton.2 hdistinct
  · cases hread

theorem readsDistinct (fuel : Nat) : ReadsDistinct fuel := by
  induction fuel with
  | zero => constructor <;> (intro _ _ _ hread; cases hread)
  | succ fuel ih => exact ⟨fun _ _ _ => ih.value_succ, fun _ _ _ => ih.elements_succ,
      fun _ _ _ => ih.assignments_succ⟩

theorem value?_distinct {fuel : Nat} (h : value? fuel text = some (value, rest)) :
    value.Distinct :=
  (readsDistinct fuel).value text value rest h

/-- A statement whose value holds no key twice. -/
def Statement.Distinct : Statement → Prop
  | .assign _ value => value.Distinct
  | _ => True

theorem statement?_distinct {statement : Statement}
    (h : statement? text = some (statement, rest)) : statement.Distinct := by
  unfold statement? at h
  split at h
  · obtain ⟨⟨path, after⟩, -, h⟩ := Option.bind_eq_some_iff.1 h
    simp only at h
    split at h <;> cases h
    trivial
  · obtain ⟨⟨path, after⟩, -, h⟩ := Option.bind_eq_some_iff.1 h
    obtain ⟨more, -, heq⟩ := Option.bind_eq_some_iff.1 h
    cases heq
    trivial
  · obtain ⟨⟨path, after⟩, -, h⟩ := Option.bind_eq_some_iff.1 h
    obtain ⟨more, -, h⟩ := Option.bind_eq_some_iff.1 h
    obtain ⟨⟨value, last⟩, hvalue, heq⟩ := Option.bind_eq_some_iff.1 h
    cases heq
    exact value?_distinct hvalue

theorem statements?_distinct {fuel : Nat} {statements : List Statement}
    (h : statements? fuel text = some statements) : ∀ s ∈ statements, s.Distinct := by
  induction fuel generalizing text statements with
  | zero => cases h
  | succ fuel ih =>
    unfold statements? at h
    obtain ⟨start, -, h⟩ := Option.bind_eq_some_iff.1 h
    split at h
    · cases h
      exact fun s hs => absurd hs List.not_mem_nil
    obtain ⟨⟨first, after⟩, hfirst, h⟩ := Option.bind_eq_some_iff.1 h
    obtain ⟨more, -, h⟩ := Option.bind_eq_some_iff.1 h
    obtain ⟨others, hothers, heq⟩ := Option.bind_eq_some_iff.1 h
    cases heq
    exact List.forall_mem_cons.2 ⟨statement?_distinct hfirst, ih hothers⟩

theorem Draft.add?_distinct {statement : Statement} (hs : statement.Distinct) (d d' : Draft)
    (h : DistinctNodes d.fields) (hadd : d.add? statement = some d') : DistinctNodes d'.fields := by
  cases statement with
  | table path =>
    obtain ⟨key, -, hadd⟩ := Option.bind_eq_some_iff.1 hadd
    obtain ⟨fields, halter, heq⟩ := Option.bind_eq_some_iff.1 hadd
    cases heq
    exact Node.alter?_distinct (fun _ _ _ => Node.open?_distinct) _ _ _ _ h halter
  | element path =>
    obtain ⟨key, -, hadd⟩ := Option.bind_eq_some_iff.1 hadd
    obtain ⟨fields, halter, heq⟩ := Option.bind_eq_some_iff.1 hadd
    cases heq
    exact Node.alter?_distinct (fun _ _ _ => Node.extend?_distinct) _ _ _ _ h halter
  | assign path value =>
    obtain ⟨fields, halter, heq⟩ := Option.bind_eq_some_iff.1 hadd
    cases heq
    exact Node.alter?_distinct (Node.assign?_distinct hs path) _ _ _ _ h halter

/-- **A document that is read holds no key twice.** -/
theorem parse?_distinct {text : String} {document : Table} (h : parse? text = some document) :
    (Value.table document).Distinct := by
  obtain ⟨statements, hstatements, h⟩ := Option.bind_eq_some_iff.1 h
  obtain ⟨draft, hdraft, heq⟩ := Option.bind_eq_some_iff.1 h
  cases heq
  have hnodes : DistinctNodes draft.fields :=
    foldlM_induction (P := fun d => DistinctNodes d.fields)
      (fun s hs => Draft.add?_distinct (statements?_distinct hstatements s hs)) .nil hdraft
  exact hnodes.toTable

end ShortMessage.Toml
