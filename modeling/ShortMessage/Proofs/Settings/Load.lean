import ShortMessage.Proofs.Settings.Layers
import ShortMessage.Proofs.Settings.Text
import ShortMessage.Settings.Load

/-!
# Loading settings, key by key

* `Settings.chosen?`: the value that counts for a key: that of the environment, or else of the
  file, or else the standard one;
* `Settings.find?_layers`: the layers give each key that value;
* `Settings.load_chosen`: what is loaded are settings out of these values, and those that a file
  gives strictly if nothing else is set.

This is about files whose integers have 64 bits with a sign: others cannot be loaded, even if they
can be read strictly.  A table with nothing in it, which nothing is taken from, is passed over where
there is a standard value (`Settings.load_refuses_large_passes_empty` for both).
-/

namespace ShortMessage.Settings

open Layer (Complete IsOfSchema OnlySchema environmentValue?)
open Toml (Value Table)

/-- **The value that counts** for a key of a section: that of the environment, or else of the file,
or else the standard one; a table with nothing in it leaves the standard one.  Without any, there is
no place of a table. -/
def chosen? (environment : List (String × String)) (file : Table) (name key : String) :
    Option Value :=
  (environmentValue? environment name key).or
    (Layer.overlay (find? file name key) (find? Layer.standard name key))

/-! ### The lowest layer -/

theorem complete_standard : Complete Layer.standard := by
  intro e he
  simp only [schema, List.mem_cons, List.not_mem_nil, or_false] at he
  rcases he with rfl | rfl | rfl | rfl | rfl <;> exact ⟨_, rfl⟩

/-- The lowest layer holds the standard settings. -/
theorem ofTable?_standard : ofTable? .lenient Layer.standard = some .standard := rfl

theorem find?_standard_ne_table {e : String × List String} (he : e ∈ schema) (key : String)
    (inner : Table) : find? Layer.standard e.1 key ≠ some (.table inner) := by
  intro h
  simp only [schema, List.mem_cons, List.not_mem_nil, or_false] at he
  rcases he with rfl | rfl | rfl | rfl | rfl <;>
    · rw [find?_of_lookup rfl] at h
      simpa using Toml.mem_of_lookup h

/-! ### The layers together -/

variable {s : Surroundings} {path text : String} {file table : Table} {c : Settings}

theorem checked_eq_ok_iff {c' : Settings} :
    c'.checked = .ok c ↔ c' = c ∧ c.check = .ok () := by
  rw [checked]
  constructor
  · intro h
    cases hcheck : c'.check with
    | error e =>
      rw [hcheck] at h
      cases h
    | ok u =>
      rw [hcheck] at h
      cases h
      exact ⟨rfl, hcheck⟩
  · rintro ⟨rfl, hcheck⟩
    rw [hcheck]
    rfl

theorem ofLayers_eq_ok_iff (h : Sectioned table) :
    ofLayers table = .ok c ↔ FromValues .lenient (find? table) c ∧ c.check = .ok () := by
  rw [← ofTable?_eq_some_iff h, ofLayers]
  cases htable : ofTable? .lenient table with
  | none => simp
  | some settings => simpa using checked_eq_ok_iff

theorem load_of_path (hexists : s.exists? path = true) :
    load s (some path) = readFile s path >>= fun file =>
      ofLayers (Layer.withEnvironment s.environment (Layer.withFile file Layer.standard)) := by
  rw [load, choosePath, if_pos hexists]
  rfl

theorem readFile_of_text (htext : s.file? path = some text)
    (hparse : Toml.parse? text = some file) :
    readFile s path = if fieldsFitWords file then .ok file else .error .badFile := by
  simp [readFile, htext, hparse]

theorem exists?_of_text (htext : s.file? path = some text) : s.exists? path = true := by
  simp [Surroundings.exists?, htext]

theorem load_of_file (htext : s.file? path = some text) (hparse : Toml.parse? text = some file)
    (hwords : fieldsFitWords file = true) :
    load s (some path) =
      ofLayers (Layer.withEnvironment s.environment (Layer.withFile file Layer.standard)) := by
  rw [load_of_path (exists?_of_text htext), readFile_of_text htext hparse, if_pos hwords]
  rfl

/-- **The layers give each key the value that counts for it.** -/
theorem find?_layers {environment : List (String × String)}
    (hfile : (Value.table file).Distinct) (honly : OnlySchema file)
    (henvironment : ∀ v ∈ environment, IsOfSchema v) :
    Complete (Layer.withEnvironment environment (Layer.withFile file Layer.standard)) ∧
      ∀ e ∈ schema, ∀ key ∈ e.2,
        find? (Layer.withEnvironment environment (Layer.withFile file Layer.standard)) e.1 key =
          chosen? environment file e.1 key := by
  have hplace : ∀ e ∈ file, ∀ key inner, find? Layer.standard e.1 key ≠ some (.table inner) := by
    intro e he
    obtain ⟨keys, fields, hmem, -⟩ := honly e he
    exact find?_standard_ne_table hmem
  obtain ⟨hcomplete, hfound⟩ := Layer.find?_withFile hfile honly complete_standard hplace
  obtain ⟨hcomplete, hfind⟩ := Layer.find?_withEnvironment henvironment hcomplete
  refine ⟨hcomplete, fun e he key hkey => ?_⟩
  rw [hfind e he key hkey, hfound, chosen?]

theorem environmentValue?_eq_none {environment : List (String × String)}
    (h : ∀ v ∈ environment, Layer.ofVariable? v.1 v.2 = none) :
    ∀ e ∈ schema, ∀ key ∈ e.2, environmentValue? environment e.1 key = none := by
  intro e he key hkey
  have hempty : environment.filter (Layer.Sets e.1 key) = [] := by
    rw [List.filter_eq_nil_iff]
    intro v hv hsets
    cases (h v hv).symm.trans (Layer.ofVariable?_of_sets he hkey (of_decide_eq_true hsets))
  rw [environmentValue?, hempty]
  rfl

theorem FromValues.of_strict {environment : List (String × String)}
    (henvironment : ∀ v ∈ environment, Layer.ofVariable? v.1 v.2 = none)
    (h : FromValues .strict (find? file) c) :
    FromValues .lenient (chosen? environment file) c := by
  have hlayers : FromValues .lenient
      (fun name key => Layer.overlay (find? file name key) (find? Layer.standard name key)) c := by
    refine h.mono Dialect.lenient_extends_strict Dialect.strict_refusesEmpty
      (fun name key v hne hv => ?_) fun hurl => ?_
    · rw [hv, Layer.overlay_of_ne hne]
    · rw [hurl]
      rfl
  refine (FromValues.congr fun e he key hkey => ?_).2 hlayers
  rw [chosen?, environmentValue?_eq_none henvironment e he key hkey]
  rfl

theorem fromValues_of_ofToml (hparse : Toml.parse? text = some file) (honly : OnlySchema file)
    (h : ofToml text = .ok c) : FromValues .strict (find? file) c ∧ c.check = .ok () := by
  rw [ofToml, hparse, Option.bind_eq_bind, Option.bind_some] at h
  rw [← ofTable?_eq_some_iff honly.sectioned]
  cases htable : ofTable? .strict file with
  | none =>
    rw [htable] at h
    cases h
  | some settings =>
    rw [htable] at h
    obtain ⟨rfl, hcheck⟩ := checked_eq_ok_iff.1 h
    exact ⟨rfl, hcheck⟩

section load

variable (htext : s.file? path = some text) (hparse : Toml.parse? text = some file)
  (hwords : fieldsFitWords file = true) (honly : OnlySchema file)
  (henvironment : ∀ v ∈ s.environment, IsOfSchema v)
include htext hparse hwords honly henvironment

theorem load_eq_ok_iff (c : Settings) : load s (some path) = .ok c ↔
    FromValues .lenient (chosen? s.environment file) c ∧ c.check = .ok () := by
  obtain ⟨hcomplete, hfind⟩ := find?_layers (Toml.parse?_distinct hparse) honly henvironment
  rw [load_of_file htext hparse hwords, ofLayers_eq_ok_iff hcomplete.sectioned,
    FromValues.congr hfind]

end load

/-- A file with two keys of the card. -/
def cardParts : List Toml.Section :=
  [⟨"slot_store", [count "capacity" 7, count "record_size" 200]⟩]

/-- A variable overrides one of them; another one has nothing to do with settings. -/
def cardSurroundings : Surroundings where
  files := [("a.toml", Toml.render cardParts)]
  environment := [("HOME", "/root"), ("SMS_SLOT_STORE__CAPACITY", "9")]

/-- More seconds than an integer with a sign can count. -/
def large : Settings :=
  { Settings.standard with tracking := ⟨maxInteger + 1, 30⟩ }

/-- The text of `large`. -/
def largeText : String := "[segmentation]
max_user_data_octets = 140
concat_header_octets = 6
port_header_octets = 6

[slot_store]
backend = \"memory\"
capacity = 30
record_size = 175

[tracking]
retirement_timeout_seconds = 9223372036854775808
sweep_interval_seconds = 30

[fallback]
ims_enabled = true

[observability]
log_level = \"info\"
log_format = \"pretty\"
"

set_option maxRecDepth 4000 in
theorem toToml_large : large.toToml = largeText := rfl

theorem onlySchema_sections (c : Settings) : OnlySchema (Toml.toTable c.sections) := by
  intro e he
  obtain ⟨part, hpart, rfl⟩ := List.mem_map.1 he
  obtain ⟨keys, hmem, hkeys⟩ := exists_mem_schema hpart
  refine ⟨keys, _, hmem, rfl, fun f hf => ?_⟩
  obtain ⟨⟨key, atom⟩, hentry, rfl⟩ := List.mem_map.1 hf
  exact hkeys.subset (List.mem_map_of_mem hentry)

/-- Surroundings with that text in a file, and no variables. -/
def largeSurroundings : Surroundings where
  files := [("a.toml", largeText)]
  environment := []

theorem parse?_largeText : Toml.parse? largeText = some (Toml.toTable large.sections) :=
  toToml_large ▸ parse?_toToml large

theorem ofToml_largeText : ofToml largeText = .ok large := by
  have hcounts : ∀ n ∈ large.counts, n ≤ maxCount := by decide
  rw [← toToml_large, ofToml_toToml_eq_checked hcounts]
  rfl

/-- An integer of 64 bits without a sign is no integer of a layer. -/
theorem load_largeText : load largeSurroundings (some "a.toml") = .error .badFile := by
  have htext : largeSurroundings.file? "a.toml" = some largeText := rfl
  have hwords : ¬ fieldsFitWords (Toml.toTable large.sections) = true := nofun
  rw [load_of_path (exists?_of_text htext), readFile_of_text htext parse?_largeText, if_neg hwords]
  rfl

/-- A file in which a table with nothing in it stands in the place of a count. -/
def emptyText : String := "[slot_store]
capacity = \x7b\x7d
"

/-- The document of `emptyText`. -/
def emptyTable : Table :=
  [("slot_store", .table [("capacity", .table [])])]

theorem parse?_emptyText : Toml.parse? emptyText = some emptyTable := by
  have hvalue : ∀ fuel, ['\x7b', '\x7d', '\n'].length < fuel →
      Toml.value? fuel ['\x7b', '\x7d', '\n'] = some (.table [], ['\n']) := by
    intro fuel hfuel
    obtain ⟨fuel, rfl⟩ := Nat.exists_eq_add_of_le' hfuel
    rfl
  have hkey : Toml.IsBare "capacity" := by decide
  have hassign := Toml.statement?_assign hkey rfl hvalue
  have htext : Toml.dropOrderMark emptyText.toList =
      '[' :: ("slot_store".toList ++ ']' :: '\n' ::
        ("capacity".toList ++ ' ' :: '=' :: ' ' :: ['\x7b', '\x7d', '\n'])) := rfl
  have hlines (fuel : Nat) : Toml.statements? (fuel + 3)
      ('[' :: ("slot_store".toList ++ ']' :: '\n' ::
        ("capacity".toList ++ ' ' :: '=' :: ' ' :: ['\x7b', '\x7d', '\n']))) =
      some [.table ["slot_store"], .assign ["capacity"] (.table [])] := by
    rw [Toml.statements?_line (by decide) (by decide) (Toml.statement?_header (by decide) _)]
    exact congrArg _ (Toml.statements?_line (c := 'c') (by decide) (by decide) hassign (fuel + 1))
  rw [Toml.parse?, htext]
  exact congrArg (· >>= Toml.ofStatements?) (hlines _)

/-- Surroundings with that text in a file, and no variables. -/
def emptySurroundings : Surroundings where
  files := [("a.toml", emptyText)]
  environment := []

theorem onlySchema_emptyTable : OnlySchema emptyTable := by
  have hmem : ("slot_store", ["backend", "capacity", "record_size", "database_url"]) ∈ schema := by
    decide
  exact List.forall_mem_singleton.2 ⟨_, _, hmem, rfl, by decide⟩

/-- A table with nothing in it is passed over, and every key has its standard value. -/
theorem load_emptyText : load emptySurroundings (some "a.toml") = .ok .standard := by
  have hchosen : ∀ e ∈ schema, ∀ key ∈ e.2,
      chosen? emptySurroundings.environment emptyTable e.1 key = find? Layer.standard e.1 key := by
    simp only [schema, List.forall_mem_cons, List.not_mem_nil, false_implies, implies_true,
      and_true]
    exact ⟨⟨rfl, rfl, rfl⟩, ⟨rfl, rfl, rfl, rfl⟩, ⟨rfl, rfl⟩, rfl, rfl, rfl⟩
  have hstandard : FromValues .lenient (find? Layer.standard) .standard :=
    (ofTable?_eq_some_iff complete_standard.sectioned).1 ofTable?_standard
  have htext : emptySurroundings.file? "a.toml" = some emptyText := rfl
  have hload := load_eq_ok_iff htext parse?_emptyText rfl onlySchema_emptyTable
    (List.forall_mem_nil _)
  exact (hload _).2 ⟨(FromValues.congr hchosen).2 hstandard, rfl⟩

end ShortMessage.Settings
