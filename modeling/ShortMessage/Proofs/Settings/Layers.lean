import ShortMessage.Proofs.Settings.Fields
import ShortMessage.Proofs.Toml.Distinct
import ShortMessage.Settings.Layers

/-!
# Layers, key by key

What is found under a key after a layer has been put over others: the value that the layer gives, or
else what was found before.  No key hides another one, not even one of its own section.  A table is
put over what is there field by field, so one with nothing in it hides nothing either.

* `Layer.overlay`: a value over the one of a lower layer;
* `Layer.lookup_put`: a value put in the place of one that is no table;
* `Layer.lookup_putAll`: a section put over another one;
* `Layer.find?_withFile`: the layer of a file;
* `Layer.find?_withEnvironment`: the layer of the environment.
-/

namespace ShortMessage.Layer

open Settings (find? schema)
open Toml (Value Table)

variable {key name : String} {value : Value} {fields table : Table}

/-! ### One value -/

theorem lookup_replace (key : String) (value : Value) (fields : Table) (k : String) :
    (replace key value fields).lookup k = if k = key then some value else fields.lookup k := by
  induction fields with
  | nil => rw [replace, Toml.lookup_cons]
  | cons e fields ih =>
    obtain ⟨k', old⟩ := e
    by_cases hk' : k' = key
    · subst hk'
      rw [replace, if_pos rfl, Toml.lookup_cons, Toml.lookup_cons]
      split <;> rfl
    · rw [replace, if_neg hk', Toml.lookup_cons, Toml.lookup_cons, ih]
      by_cases hk : k = k'
      · rw [if_pos hk, if_pos hk, if_neg (hk ▸ hk')]
      · rw [if_neg hk, if_neg hk]

/-- **A value over the one below**: a table with nothing in it leaves what is there. -/
def overlay : Option Value → Option Value → Option Value
  | none, below => below
  | some (.table []), some value => some value
  | some value, _ => some value

theorem overlay_of_ne (h : value ≠ .table []) (below : Option Value) :
    overlay (some value) below = some value := by
  unfold overlay
  split
  · contradiction
  · next heq => exact absurd (Option.some.inj heq) h
  · next heq _ => exact heq.symm

theorem replace_of_not_mem (h : key ∉ fields.map Prod.fst) (value : Value) :
    replace key value fields = fields ++ [(key, value)] := by
  induction fields with
  | nil => rfl
  | cons e fields ih =>
    obtain ⟨k, old⟩ := e
    simp only [List.map_cons, List.mem_cons, not_or] at h
    rw [replace, if_neg (Ne.symm h.1), ih h.2]
    rfl

theorem putAll_of_put {incoming : Table}
    (hput : ∀ e ∈ incoming, ∀ fields : Table, e.1 ∉ fields.map Prod.fst →
      put e.1 e.2 fields = fields ++ [e])
    (hkeys : (incoming.map Prod.fst).Nodup)
    (hnew : ∀ e ∈ incoming, e.1 ∉ fields.map Prod.fst) :
    putAll incoming (.table fields) = .table (fields ++ incoming) := by
  induction incoming generalizing fields with
  | nil => rw [putAll, List.append_nil]
  | cons e incoming ih =>
    obtain ⟨hfirst, hput⟩ := List.forall_mem_cons.1 hput
    obtain ⟨hkey, hnew⟩ := List.forall_mem_cons.1 hnew
    rw [List.map_cons, List.nodup_cons] at hkeys
    have hnext : ∀ e' ∈ incoming, e'.1 ∉ (fields ++ [e]).map Prod.fst := by
      intro e' he'
      have hne : e'.1 ≠ e.1 := fun heq => hkeys.1 (heq ▸ List.mem_map_of_mem he')
      exact Toml.not_mem_keys_concat (hnew e' he') hne _
    have hfields : fieldsOf (.table fields) = fields := rfl
    rw [putAll, hfields, hfirst fields hkey, ih hput hkeys.2 hnext]
    simp

theorem put_of_not_mem (h : value.Distinct) :
    ∀ key (fields : Table), key ∉ fields.map Prod.fst →
      put key value fields = fields ++ [(key, value)] := by
  induction h with
  | @table incoming keys each ih =>
    intro key fields hkey
    have hall : putAll incoming (.table []) = .table incoming :=
      putAll_of_put (fun e he => ih e he e.1) keys fun _ _ => List.not_mem_nil
    rw [put, Toml.lookup_eq_none hkey, Option.getD_none, hall, replace_of_not_mem hkey]
  | _ =>
    intro key fields hkey
    rw [put]
    · exact replace_of_not_mem hkey _
    · simp

theorem putAll_empty {incoming : Table} (h : (Value.table incoming).Distinct) :
    putAll incoming (.table []) = .table incoming := by
  cases h with
  | table keys each =>
    exact putAll_of_put (fun e he => put_of_not_mem (each e he) e.1) keys
      fun _ _ => List.not_mem_nil

theorem putAll_of_no_fields {incoming : Table} (h : (Value.table incoming).Distinct)
    (hne : incoming ≠ []) (hold : fieldsOf value = []) :
    putAll incoming value = .table incoming := by
  rw [← putAll_empty h]
  cases incoming with
  | nil => exact absurd rfl hne
  | cons e incoming =>
    rw [putAll, putAll, hold]
    rfl

/-- **A value in the place of one that is no table** takes it as it is. -/
theorem put_eq_replace (h : value.Distinct) (hne : value ≠ .table [])
    (hold : ∀ inner, fields.lookup key ≠ some (.table inner)) :
    put key value fields = replace key value fields := by
  cases h with
  | @table incoming keys each =>
    have hempty : fieldsOf ((fields.lookup key).getD (.table [])) = [] := by
      match hlookup : fields.lookup key with
      | none => rfl
      | some (.table inner) => exact absurd hlookup (hold inner)
      | some (.bool _) | some (.integer _) | some (.real _) | some (.text _) | some (.moment _)
      | some (.list _) => rfl
    rw [put, putAll_of_no_fields (.table keys each) (fun heq => hne (congrArg _ heq)) hempty]
  | _ =>
    rw [put]
    simp

/-- **A value put in the place of one that is no table** is found there, over what was there; under
the other keys nothing changes. -/
theorem lookup_put (h : value.Distinct)
    (hold : ∀ inner, fields.lookup key ≠ some (.table inner)) (k : String) :
    (put key value fields).lookup k =
      if k = key then overlay (some value) (fields.lookup key) else fields.lookup k := by
  by_cases hempty : value = .table []
  · subst hempty
    rw [put, putAll, lookup_replace]
    cases fields.lookup key <;> rfl
  · rw [put_eq_replace h hempty hold, lookup_replace, overlay_of_ne hempty]

/-! ### One section -/

/-- **A section put over another one** gives each key its own value, if it has one. -/
theorem lookup_putAll {incoming : Table} (hkeys : (incoming.map Prod.fst).Nodup)
    (hvalues : ∀ e ∈ incoming, e.2.Distinct)
    (hold : ∀ e ∈ incoming, ∀ inner, fields.lookup e.1 ≠ some (.table inner)) :
    ∃ fields', putAll incoming (.table fields) = .table fields' ∧
      ∀ key, fields'.lookup key = overlay (incoming.lookup key) (fields.lookup key) := by
  induction incoming generalizing fields with
  | nil => exact ⟨fields, by rw [putAll], fun key => rfl⟩
  | cons e incoming ih =>
    obtain ⟨key, value⟩ := e
    obtain ⟨hvalue, hvalues⟩ := List.forall_mem_cons.1 hvalues
    obtain ⟨hplace, hold⟩ := List.forall_mem_cons.1 hold
    rw [List.map_cons, List.nodup_cons] at hkeys
    have hkey : key ∉ incoming.map Prod.fst := hkeys.1
    have hput := lookup_put hvalue hplace
    -- No key comes twice, so the others meet what was there before.
    have hnext : ∀ e ∈ incoming, ∀ inner,
        (put key value fields).lookup e.1 ≠ some (.table inner) := by
      intro e he inner
      have hne : e.1 ≠ key := fun heq => hkey (heq ▸ List.mem_map_of_mem he)
      rw [hput, if_neg hne]
      exact hold e he inner
    obtain ⟨fields', hall, hlookup⟩ := ih hkeys.2 hvalues hnext
    refine ⟨fields', by rw [putAll]; exact hall, fun k => ?_⟩
    rw [hlookup, hput, Toml.lookup_cons]
    by_cases hk : k = key
    · subst hk
      rw [Toml.lookup_eq_none hkey, if_pos rfl, if_pos rfl]
      rfl
    · rw [if_neg hk, if_neg hk]

theorem find?_replace (name : String) (fields table : Table) (name' key : String) :
    find? (replace name (.table fields) table) name' key =
      if name' = name then fields.lookup key else find? table name' key := by
  by_cases hname : name' = name
  · rw [if_pos hname]
    exact Settings.find?_of_lookup (by rw [lookup_replace, if_pos hname]) key
  · rw [if_neg hname, find?, find?, lookup_replace, if_neg hname]

/-! ### The layer of a file -/

/-- Every section is there. -/
def Complete (table : Table) : Prop :=
  ∀ e ∈ schema, ∃ fields, table.lookup e.1 = some (.table fields)

theorem Complete.sectioned (h : Complete table) : Settings.Sectioned table := by
  intro e he value hvalue
  obtain ⟨fields, hfields⟩ := h e he
  exact ⟨fields, Option.some.inj (hvalue.symm.trans hfields)⟩

theorem Complete.replace (h : Complete table) (name : String) (fields : Table) :
    Complete (replace name (.table fields) table) := by
  intro e he
  rw [lookup_replace]
  split
  · exact ⟨fields, rfl⟩
  · exact h e he

/-- **A file of sections and keys of the schema.**  There need not be all of them. -/
def OnlySchema (file : Table) : Prop :=
  ∀ e ∈ file, ∃ keys fields, (e.1, keys) ∈ schema ∧ e.2 = .table fields ∧ ∀ f ∈ fields, f.1 ∈ keys

theorem OnlySchema.sectioned (h : OnlySchema table) : Settings.Sectioned table := by
  intro e he value hvalue
  obtain ⟨keys, fields, -, hfields, -⟩ := h _ (Toml.mem_of_lookup hvalue)
  exact ⟨fields, hfields⟩

theorem path_of_mem_schema : ∀ e ∈ schema, path e.1 = [e.1] := by
  decide

theorem find?_cons {file : Table} (name : String) (fields : Table) (name' key : String) :
    find? ((name, .table fields) :: file) name' key =
      if name' = name then fields.lookup key else find? file name' key := by
  by_cases hname : name' = name
  · rw [if_pos hname]
    exact Settings.find?_of_lookup (by rw [Toml.lookup_cons, if_pos hname]) key
  · rw [if_neg hname, find?, find?, Toml.lookup_cons, if_neg hname]

/-- **What is found after a file** is what the file gives, over what was found before. -/
theorem find?_withFile {file below : Table} (hfile : (Value.table file).Distinct)
    (honly : OnlySchema file) (hbelow : Complete below)
    (hplace : ∀ e ∈ file, ∀ key inner, find? below e.1 key ≠ some (.table inner)) :
    Complete (withFile file below) ∧ ∀ name key,
      find? (withFile file below) name key =
        overlay (find? file name key) (find? below name key) := by
  induction file generalizing below with
  | nil => exact ⟨hbelow, fun name key => rfl⟩
  | cons e file ih =>
    obtain ⟨name, value⟩ := e
    obtain ⟨⟨keys, incoming, hschema, rfl, -⟩, hmore⟩ := List.forall_mem_cons.1 honly
    obtain ⟨hplaceFirst, hplace⟩ := List.forall_mem_cons.1 hplace
    cases hfile with
    | table hnames heach =>
    rw [List.map_cons, List.nodup_cons] at hnames
    have hnew : name ∉ file.map Prod.fst := hnames.1
    obtain ⟨hincoming, heach⟩ := List.forall_mem_cons.1 heach
    obtain ⟨fields, hfields⟩ := hbelow _ hschema
    have hfound := Settings.find?_of_lookup hfields
    obtain ⟨fields', hput, hlookup⟩ : ∃ fields', putAll incoming (.table fields) = .table fields' ∧
        ∀ key, fields'.lookup key = overlay (incoming.lookup key) (fields.lookup key) := by
      cases hincoming with
      | table hkeys hvalues =>
      exact lookup_putAll hkeys hvalues fun f _ inner => hfound f.1 ▸ hplaceFirst f.1 inner
    have hstep : putKey below (name, .table incoming) = replace name (.table fields') below := by
      rw [putKey, path_of_mem_schema _ hschema, putAt, put, hfields, Option.getD_some, hput]
    -- No section comes twice, so those that are still to come meet what was there before the file.
    have hplaceNext : ∀ e ∈ file, ∀ key inner,
        find? (replace name (.table fields') below) e.1 key ≠ some (.table inner) := by
      intro e he key inner
      have hne : e.1 ≠ name := fun heq => hnew (heq ▸ List.mem_map_of_mem he)
      rw [find?_replace, if_neg hne]
      exact hplace e he key inner
    obtain ⟨hcomplete, hfind⟩ := ih (.table hnames.2 heach) hmore (hbelow.replace name fields')
      hplaceNext
    rw [withFile, List.foldl_cons, hstep, ← withFile]
    refine ⟨hcomplete, fun name' key => ?_⟩
    rw [hfind, find?_replace, find?_cons]
    by_cases hname : name' = name
    · subst hname
      rw [if_pos rfl, if_pos rfl, Settings.find?_of_lookup_none (Toml.lookup_eq_none hnew),
        hlookup, hfound]
      rfl
    · rw [if_neg hname, if_neg hname]

/-! ### The layer of the environment -/

/-- The name, in small letters, of the variables that set a key of a section. -/
def variableName (name key : String) : String :=
  String.ofList variableLead ++ name ++ "__" ++ key

/-- Does a variable set a key of a section? -/
def Sets (name key : String) (variable' : String × String) : Prop :=
  Dialect.lower variable'.1 = variableName name key

instance (name key : String) (variable' : String × String) : Decidable (Sets name key variable') :=
  inferInstanceAs (Decidable (_ = _))

/-- **The value that the environment gives** a key of a section: that of the last variable that sets
it. -/
def environmentValue? (environment : List (String × String)) (name key : String) : Option Value :=
  ((environment.filter (Sets name key)).map fun v => variableValue v.2).getLast?

/-- A variable that sets nothing, or else a key of the schema. -/
def IsOfSchema (variable' : String × String) : Prop :=
  ofVariable? variable'.1 variable'.2 = none ∨
    ∃ e ∈ schema, ∃ key ∈ e.2, Sets e.1 key variable'

theorem dots_of_mem_schema : ∀ e ∈ schema, ∀ key ∈ e.2,
    (variableName e.1 key).toList.take variableLead.length = variableLead ∧
      dots ((variableName e.1 key).toList.drop variableLead.length) =
        (e.1 ++ "." ++ key).toList := by
  decide +kernel

theorem path_dotted_of_mem_schema : ∀ e ∈ schema, ∀ key ∈ e.2,
    path (e.1 ++ "." ++ key) = [e.1, key] := by
  decide +kernel

theorem variableName_injective {e e' : String × List String} {key key' : String} (he : e ∈ schema)
    (hkey : key ∈ e.2) (he' : e' ∈ schema) (hkey' : key' ∈ e'.2)
    (h : variableName e.1 key = variableName e'.1 key') : e.1 = e'.1 ∧ key = key' := by
  have hdots := (dots_of_mem_schema e he key hkey).2
  rw [h, (dots_of_mem_schema e' he' key' hkey').2, String.toList_inj] at hdots
  have hpath := path_dotted_of_mem_schema e he key hkey
  rw [← hdots, path_dotted_of_mem_schema e' he' key' hkey'] at hpath
  simp only [List.cons.injEq, and_true] at hpath
  exact ⟨hpath.1.symm, hpath.2.symm⟩

theorem ofVariable?_of_sets {e : String × List String} (he : e ∈ schema) (hkey : key ∈ e.2)
    {variable' : String × String} (h : Sets e.1 key variable') :
    ofVariable? variable'.1 variable'.2 =
      some (e.1 ++ "." ++ key, variableValue variable'.2) := by
  obtain ⟨hlead, hdots⟩ := dots_of_mem_schema e he key hkey
  rw [ofVariable?, h, if_pos hlead, hdots, String.ofList_toList]

theorem variableValue_ne_table (text : String) (fields : Table) :
    variableValue text ≠ .table fields := by
  simp only [variableValue]
  repeat' split
  all_goals simp

theorem put_of_ne_table (h : ∀ fields, value ≠ .table fields) :
    put key value fields = replace key value fields := by
  rw [put]
  exact h

theorem find?_putKey_dotted (htable : Complete table) {e : String × List String} (he : e ∈ schema)
    (hkey : key ∈ e.2) (hvalue : ∀ fields, value ≠ .table fields) :
    Complete (putKey table (e.1 ++ "." ++ key, value)) ∧ ∀ name' key',
      find? (putKey table (e.1 ++ "." ++ key, value)) name' key' =
        if name' = e.1 ∧ key' = key then some value else find? table name' key' := by
  obtain ⟨fields, hfields⟩ := htable e he
  have hput : putKey table (e.1 ++ "." ++ key, value) =
      replace e.1 (.table (replace key value fields)) table := by
    have hbelow : fieldsOf (.table fields) = fields := rfl
    rw [putKey, path_dotted_of_mem_schema e he key hkey, putAt, hfields, Option.getD_some, hbelow,
      putAt, put_of_ne_table hvalue]
    simp
  rw [hput]
  refine ⟨htable.replace e.1 _, fun name' key' => ?_⟩
  rw [find?_replace, lookup_replace]
  by_cases hname : name' = e.1
  · subst hname
    rw [Settings.find?_of_lookup hfields]
    by_cases hkey' : key' = key <;> simp [hkey']
  · rw [if_neg hname, if_neg fun h => hname h.1]

theorem environmentValue?_cons (variable' : String × String)
    (environment : List (String × String)) (name key : String) :
    environmentValue? (variable' :: environment) name key =
      (environmentValue? environment name key).or
        (if Sets name key variable' then some (variableValue variable'.2) else none) := by
  by_cases h : Sets name key variable'
  · simp [environmentValue?, h, List.getLast?_cons]
  · simp [environmentValue?, h]

/-- **What is found after the environment** is what it gives, or else what was found before. -/
theorem find?_withEnvironment {environment : List (String × String)} {below : Table}
    (henvironment : ∀ v ∈ environment, IsOfSchema v) (hbelow : Complete below) :
    Complete (withEnvironment environment below) ∧ ∀ e ∈ schema, ∀ key ∈ e.2,
      find? (withEnvironment environment below) e.1 key =
        (environmentValue? environment e.1 key).or (find? below e.1 key) := by
  induction environment generalizing below with
  | nil => exact ⟨hbelow, fun e _ key _ => rfl⟩
  | cons first environment ih =>
    obtain ⟨hfirst, hmore⟩ := List.forall_mem_cons.1 henvironment
    cases hset : ofVariable? first.1 first.2 with
    | none =>
      have hstep : withEnvironment (first :: environment) below =
          withEnvironment environment below := by
        simp [withEnvironment, hset]
      rw [hstep]
      refine ⟨(ih hmore hbelow).1, fun e he key hkey => ?_⟩
      have hnot : ¬ Sets e.1 key first := fun h => by
        cases hset.symm.trans (ofVariable?_of_sets he hkey h)
      rw [(ih hmore hbelow).2 e he key hkey, environmentValue?_cons, if_neg hnot, Option.or_none]
    | some entry =>
      obtain hnone | ⟨e₀, he₀, key₀, hkey₀, hsets⟩ := hfirst
      · cases hset.symm.trans hnone
      obtain rfl := Option.some.inj (hset.symm.trans (ofVariable?_of_sets he₀ hkey₀ hsets))
      obtain ⟨hcomplete, hfind⟩ :=
        find?_putKey_dotted hbelow he₀ hkey₀ (variableValue_ne_table first.2)
      have hstep : withEnvironment (first :: environment) below =
          withEnvironment environment
            (putKey below (e₀.1 ++ "." ++ key₀, variableValue first.2)) := by
        simp [withEnvironment, hset]
      rw [hstep]
      refine ⟨(ih hmore hcomplete).1, fun e he key hkey => ?_⟩
      have hiff : Sets e.1 key first ↔ e.1 = e₀.1 ∧ key = key₀ := by
        constructor
        · intro h
          exact variableName_injective he hkey he₀ hkey₀ (h.symm.trans hsets)
        · rintro ⟨hname, rfl⟩
          rw [hname]
          exact hsets
      rw [(ih hmore hcomplete).2 e he key hkey, hfind, environmentValue?_cons, Option.or_assoc]
      by_cases hsame : e.1 = e₀.1 ∧ key = key₀
      · rw [if_pos hsame, if_pos (hiff.2 hsame)]
        rfl
      · rw [if_neg hsame, if_neg fun h => hsame (hiff.1 h)]
        rfl

end ShortMessage.Layer
