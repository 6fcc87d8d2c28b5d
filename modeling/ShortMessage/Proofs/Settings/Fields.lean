import ShortMessage.Settings.Dialect

/-!
# Settings, field by field

A table of tables holds settings exactly if each value is taken for that of its field, whatever the
other values are.

* `Settings.schema`: the names of all settings; `Settings.find?`: the value under one of them;
* `Settings.FromValues`: settings whose fields are what given values are taken for;
* `Settings.ofTable?_eq_some_iff`: the settings that a table holds are those;
* `Dialect.lenient_extends_strict`: the lenient dialect takes every value that the strict one takes,
  and for the same; `Settings.FromValues.mono`: so do settings out of values.
-/

namespace ShortMessage

open Toml (Value Table)

variable {d : Dialect} {table fields : Table} {name key : String}

/-! ### Fields -/

/-- The limits are what a dialect takes the values of their keys for. -/
def SegmentLimits.FromValues (d : Dialect) (get? : String → Option Value) (l : SegmentLimits) :
    Prop :=
  get? "max_user_data_octets" >>= d.count? = some l.userData ∧
    get? "concat_header_octets" >>= d.count? = some l.concatHeader ∧
    get? "port_header_octets" >>= d.count? = some l.portHeader

/-- There need not be a place of a table; one that is there has to be taken for a text. -/
def CardSettings.FromValues (d : Dialect) (get? : String → Option Value) (s : CardSettings) :
    Prop :=
  get? "backend" >>= d.backend? = some s.backend ∧
    get? "capacity" >>= d.count? = some s.capacity ∧
    get? "record_size" >>= d.count? = some s.recordSize ∧
    (get? "database_url").map d.text? = s.databaseUrl.map some

/-- Both times are what a dialect takes the values of their keys for. -/
def TrackingSettings.FromValues (d : Dialect) (get? : String → Option Value)
    (s : TrackingSettings) : Prop :=
  get? "retirement_timeout_seconds" >>= d.count? = some s.retirementSeconds ∧
    get? "sweep_interval_seconds" >>= d.count? = some s.sweepSeconds

/-- Level and format are what a dialect takes the values of their keys for. -/
def LogSettings.FromValues (d : Dialect) (get? : String → Option Value) (s : LogSettings) : Prop :=
  get? "log_level" >>= d.text? = some s.level ∧ get? "log_format" >>= d.text? = some s.format

/-- **Settings out of values**: each field is what the value under its name is taken for. -/
structure Settings.FromValues (d : Dialect) (get? : String → String → Option Value)
    (s : Settings) : Prop where
  limits : s.limits.FromValues d (get? "segmentation")
  card : s.card.FromValues d (get? "slot_store")
  tracking : s.tracking.FromValues d (get? "tracking")
  prefersIms : get? "fallback" "ims_enabled" >>= d.bool? = some s.prefersIms
  log : s.log.FromValues d (get? "observability")

/-! ### Sections -/

namespace Dialect

theorem limits?_table {l : SegmentLimits} :
    d.limits? (.table fields) = some l ↔ l.FromValues d (fields.lookup ·) := by
  obtain ⟨userData, concatHeader, portHeader⟩ := l
  simp only [limits?, row?, List.map_cons, List.map_nil, Option.bind_eq_bind, Option.bind_some,
    SegmentLimits.FromValues]
  cases fields.lookup "max_user_data_octets" <;> cases fields.lookup "concat_header_octets" <;>
    cases fields.lookup "port_header_octets" <;>
      simp only [Option.bind_none, Option.bind_some, Option.bind_eq_some_iff] <;> grind

theorem card?_table {s : CardSettings} :
    d.card? (.table fields) = some s ↔ s.FromValues d (fields.lookup ·) := by
  obtain ⟨backend, capacity, recordSize, url⟩ := s
  simp only [card?, row?, List.map_cons, List.map_nil, Option.bind_eq_bind, Option.bind_some,
    CardSettings.FromValues]
  cases fields.lookup "backend" <;> cases fields.lookup "capacity" <;>
    cases fields.lookup "record_size" <;> cases fields.lookup "database_url" <;> cases url <;>
      simp only [Option.bind_none, Option.bind_some, Option.bind_eq_some_iff] <;> grind

theorem tracking?_table {s : TrackingSettings} :
    d.tracking? (.table fields) = some s ↔ s.FromValues d (fields.lookup ·) := by
  obtain ⟨retirement, sweep⟩ := s
  simp only [tracking?, row?, List.map_cons, List.map_nil, Option.bind_eq_bind, Option.bind_some,
    TrackingSettings.FromValues]
  cases fields.lookup "retirement_timeout_seconds" <;>
    cases fields.lookup "sweep_interval_seconds" <;>
      simp only [Option.bind_none, Option.bind_some, Option.bind_eq_some_iff] <;> grind

theorem prefersIms?_table {b : Bool} :
    d.prefersIms? (.table fields) = some b ↔
      fields.lookup "ims_enabled" >>= d.bool? = some b := by
  simp only [prefersIms?, row?, List.map_cons, List.map_nil, Option.bind_eq_bind, Option.bind_some]
  cases fields.lookup "ims_enabled" <;> simp

theorem log?_table {s : LogSettings} :
    d.log? (.table fields) = some s ↔ s.FromValues d (fields.lookup ·) := by
  obtain ⟨level, format⟩ := s
  simp only [log?, row?, List.map_cons, List.map_nil, Option.bind_eq_bind, Option.bind_some,
    LogSettings.FromValues]
  cases fields.lookup "log_level" <;> cases fields.lookup "log_format" <;>
    simp only [Option.bind_none, Option.bind_some, Option.bind_eq_some_iff] <;> grind

end Dialect

/-! ### The whole table -/

namespace Settings

/-- The sections of settings, and the keys of each; only the last one of the card may be missing. -/
def schema : List (String × List String) :=
  [("segmentation", ["max_user_data_octets", "concat_header_octets", "port_header_octets"]),
    ("slot_store", ["backend", "capacity", "record_size", "database_url"]),
    ("tracking", ["retirement_timeout_seconds", "sweep_interval_seconds"]),
    ("fallback", ["ims_enabled"]),
    ("observability", ["log_level", "log_format"])]

theorem nodup_schema : (schema.map Prod.fst).Nodup ∧ ∀ e ∈ schema, e.2.Nodup := by
  decide

/-- The value that a table holds under a key of a section. -/
def find? (table : Table) (name key : String) : Option Value := do
  let fields ← (← table.lookup name).fields?
  fields.lookup key

theorem find?_of_lookup (h : table.lookup name = some (.table fields)) (key : String) :
    find? table name key = fields.lookup key := by
  simp [find?, h, Value.fields?]

theorem find?_of_lookup_none (h : table.lookup name = none) (key : String) :
    find? table name key = none := by
  simp [find?, h]

/-- Every section that is there is a table. -/
def Sectioned (table : Table) : Prop :=
  ∀ e ∈ schema, ∀ value, table.lookup e.1 = some value → ∃ fields, value = .table fields

theorem bind_lookup_eq_some_iff {α : Type} {take? : Value → Option α} {a : α}
    (Taken : (String → Option Value) → Prop) (h : Sectioned table)
    (hname : name ∈ schema.map Prod.fst)
    (htake : ∀ fields : Table, take? (.table fields) = some a ↔ Taken (fields.lookup ·))
    (hnone : ¬ Taken fun _ => none) :
    table.lookup name >>= take? = some a ↔ Taken (find? table name) := by
  cases hlookup : table.lookup name with
  | none =>
    rw [funext (find?_of_lookup_none hlookup)]
    exact iff_of_false (by simp) hnone
  | some value =>
    obtain ⟨e, he, rfl⟩ := List.mem_map.1 hname
    obtain ⟨fields, rfl⟩ := h e he value hlookup
    rw [funext (find?_of_lookup hlookup)]
    exact htake fields

/-- **The settings that a table holds** are those out of the values in it. -/
theorem ofTable?_eq_some_iff {s : Settings} (h : Sectioned table) :
    ofTable? d table = some s ↔ FromValues d (find? table) s := by
  have hparts : ofTable? d table = some s ↔
      table.lookup "segmentation" >>= d.limits? = some s.limits ∧
        table.lookup "slot_store" >>= d.card? = some s.card ∧
        table.lookup "tracking" >>= d.tracking? = some s.tracking ∧
        table.lookup "fallback" >>= d.prefersIms? = some s.prefersIms ∧
        table.lookup "observability" >>= d.log? = some s.log := by
    obtain ⟨limits, card, tracking, prefersIms, log⟩ := s
    simp only [ofTable?, Option.bind_eq_bind, Option.bind_eq_some_iff, Option.pure_def,
      Option.some.injEq, Settings.mk.injEq]
    constructor
    · rintro ⟨_, hl, _, hl', _, hc, _, hc', _, ht, _, ht', _, hi, _, hi', _, hg, _, hg', rfl, rfl,
        rfl, rfl, rfl⟩
      exact ⟨⟨_, hl, hl'⟩, ⟨_, hc, hc'⟩, ⟨_, ht, ht'⟩, ⟨_, hi, hi'⟩, ⟨_, hg, hg'⟩⟩
    · rintro ⟨⟨_, hl, hl'⟩, ⟨_, hc, hc'⟩, ⟨_, ht, ht'⟩, ⟨_, hi, hi'⟩, ⟨_, hg, hg'⟩⟩
      exact ⟨_, hl, _, hl', _, hc, _, hc', _, ht, _, ht', _, hi, _, hi', _, hg, _, hg', rfl, rfl,
        rfl, rfl, rfl⟩
  rw [hparts,
    bind_lookup_eq_some_iff (s.limits.FromValues d) h (by decide) (fun _ => d.limits?_table)
      (by simp [SegmentLimits.FromValues]),
    bind_lookup_eq_some_iff (s.card.FromValues d) h (by decide) (fun _ => d.card?_table)
      (by simp [CardSettings.FromValues]),
    bind_lookup_eq_some_iff (s.tracking.FromValues d) h (by decide) (fun _ => d.tracking?_table)
      (by simp [TrackingSettings.FromValues]),
    bind_lookup_eq_some_iff (fun get? => get? "ims_enabled" >>= d.bool? = some s.prefersIms) h
      (by decide) (fun _ => d.prefersIms?_table) (by simp),
    bind_lookup_eq_some_iff (s.log.FromValues d) h (by decide) (fun _ => d.log?_table)
      (by simp [LogSettings.FromValues])]
  exact ⟨fun ⟨hlimits, hcard, htracking, hims, hlog⟩ => ⟨hlimits, hcard, htracking, hims, hlog⟩,
    fun ⟨hlimits, hcard, htracking, hims, hlog⟩ => ⟨hlimits, hcard, htracking, hims, hlog⟩⟩

theorem FromValues.congr {s : Settings} {get? fetch? : String → String → Option Value}
    (h : ∀ e ∈ schema, ∀ key ∈ e.2, get? e.1 key = fetch? e.1 key) :
    FromValues d get? s ↔ FromValues d fetch? s := by
  simp only [schema, List.forall_mem_cons] at h
  obtain ⟨⟨hu, hc, hp, -⟩, ⟨hb, hcapacity, hr, hurl, -⟩, ⟨hretire, hsweep, -⟩, ⟨hims, -⟩,
    ⟨hlevel, hformat, -⟩, -⟩ := h
  have hlimits : s.limits.FromValues d (get? "segmentation") ↔
      s.limits.FromValues d (fetch? "segmentation") := by
    simp only [SegmentLimits.FromValues, hu, hc, hp]
  have hcard : s.card.FromValues d (get? "slot_store") ↔
      s.card.FromValues d (fetch? "slot_store") := by
    simp only [CardSettings.FromValues, hb, hcapacity, hr, hurl]
  have htracking : s.tracking.FromValues d (get? "tracking") ↔
      s.tracking.FromValues d (fetch? "tracking") := by
    simp only [TrackingSettings.FromValues, hretire, hsweep]
  have hlog : s.log.FromValues d (get? "observability") ↔
      s.log.FromValues d (fetch? "observability") := by
    simp only [LogSettings.FromValues, hlevel, hformat]
  constructor
  · rintro ⟨h₁, h₂, h₃, h₄, h₅⟩
    exact ⟨hlimits.1 h₁, hcard.1 h₂, htracking.1 h₃, hims ▸ h₄, hlog.1 h₅⟩
  · rintro ⟨h₁, h₂, h₃, h₄, h₅⟩
    exact ⟨hlimits.2 h₁, hcard.2 h₂, htracking.2 h₃, hims ▸ h₄, hlog.2 h₅⟩

end Settings

/-! ### More than one dialect -/

/-- A dialect that takes every value that another one takes, and for the same. -/
structure Dialect.Extends (wide narrow : Dialect) : Prop where
  count? : ∀ value n, narrow.count? value = some n → wide.count? value = some n
  bool? : ∀ value b, narrow.bool? value = some b → wide.bool? value = some b
  text? : ∀ value s, narrow.text? value = some s → wide.text? value = some s
  backend? : ∀ value b, narrow.backend? value = some b → wide.backend? value = some b

/-- **The lenient dialect takes what the strict one takes.** -/
theorem Dialect.lenient_extends_strict : lenient.Extends strict where
  count? value n h := by
    cases value with
    | integer i =>
      simp only [strict, Option.ite_none_right_eq_some] at h
      rw [← h.2]
      exact if_pos h.1.1
    | _ => cases h
  bool? value b h := by
    cases value with
    | bool b => exact h
    | _ => cases h
  text? value s h := by
    cases value with
    | text s => exact h
    | _ => cases h
  backend? value b h := by
    match value with
    | .text s => exact h
    | .table [(name, value)] =>
      simp only [strict, Option.ite_none_right_eq_some] at h
      exact h.2
    | .bool _ | .integer _ | .real _ | .moment _ | .list _ | .table [] | .table (_ :: _ :: _) =>
      cases h

/-- A dialect in which a table with nothing in it is taken for no value at all. -/
structure Dialect.RefusesEmpty (d : Dialect) : Prop where
  count? : d.count? (.table []) = none
  bool? : d.bool? (.table []) = none
  text? : d.text? (.table []) = none
  backend? : d.backend? (.table []) = none

theorem Dialect.strict_refusesEmpty : strict.RefusesEmpty :=
  ⟨rfl, rfl, rfl, rfl⟩

theorem bind_eq_some_mono {α : Type} {a : α} {value value' : Option Value}
    {take? take?' : Value → Option α}
    (hvalue : ∀ v, v ≠ .table [] → value = some v → value' = some v)
    (hempty : take? (.table []) = none) (htake : ∀ v a, take? v = some a → take?' v = some a)
    (h : value >>= take? = some a) : value' >>= take?' = some a := by
  obtain ⟨v, hv, ha⟩ := Option.bind_eq_some_iff.1 h
  have hne : v ≠ .table [] := by
    rintro rfl
    cases hempty.symm.trans ha
  exact Option.bind_eq_some_iff.2 ⟨v, hvalue v hne hv, htake v a ha⟩

/-- Values that are there can be taken in a wider dialect, and others may come to them, also in the
place of a table with nothing in it; but a place of a table that is not there must not. -/
theorem Settings.FromValues.mono {wide narrow : Dialect} {s : Settings}
    {get? fetch? : String → String → Option Value} (hd : wide.Extends narrow)
    (hempty : narrow.RefusesEmpty)
    (hget : ∀ name key v, v ≠ .table [] → get? name key = some v → fetch? name key = some v)
    (hurl : get? "slot_store" "database_url" = none → fetch? "slot_store" "database_url" = none)
    (h : FromValues narrow get? s) : FromValues wide fetch? s := by
  have hcount {name key n} := bind_eq_some_mono (a := n) (hget name key) hempty.count? hd.count?
  have htext {name key s} := bind_eq_some_mono (a := s) (hget name key) hempty.text? hd.text?
  obtain ⟨⟨hu, hc, hp⟩, ⟨hb, hcapacity, hr, hplace⟩, ⟨hretire, hsweep⟩, hims, hlevel, hformat⟩ := h
  refine ⟨⟨hcount hu, hcount hc, hcount hp⟩,
    ⟨bind_eq_some_mono (hget _ _) hempty.backend? hd.backend? hb, hcount hcapacity, hcount hr, ?_⟩,
    ⟨hcount hretire, hcount hsweep⟩,
    bind_eq_some_mono (hget _ _) hempty.bool? hd.bool? hims, htext hlevel, htext hformat⟩
  cases hvalue : get? "slot_store" "database_url" with
  | none =>
    rw [hvalue] at hplace
    rw [hurl hvalue]
    exact hplace
  | some value =>
    rw [hvalue] at hplace
    cases hnew : s.card.databaseUrl with
    | none =>
      rw [hnew] at hplace
      cases hplace
    | some url =>
      rw [hnew] at hplace
      have hurl : narrow.text? value = some url := Option.some.inj hplace
      have hne : value ≠ .table [] := by
        rintro rfl
        cases hempty.text?.symm.trans hurl
      rw [hget _ _ value hne hvalue]
      exact congrArg some (hd.text? value url hurl)

end ShortMessage
