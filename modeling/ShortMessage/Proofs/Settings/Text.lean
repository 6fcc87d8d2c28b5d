import ShortMessage.Proofs.Settings.Fields
import ShortMessage.Proofs.Toml.Section
import ShortMessage.Settings.Text

/-!
# Settings written and read back

* `Settings.plain_sections`: settings are written in plain sections of the schema;
* `Settings.ofTable?_sections`: the table that they are written as holds these settings;
* `Settings.ofToml_toToml`: their text reads as the settings themselves if they pass the check,
  and else as what is wrong with them.
-/

namespace ShortMessage

open Toml (Atom Value Table)

theorem CardBackend.named?_text (backend : CardBackend) : named? backend.text = some backend := by
  cases backend <;> decide

namespace Settings

variable {s : Settings}

/-! ### Names -/

theorem name_sections (s : Settings) : s.sections.map Toml.Section.name = schema.map Prod.fst := rfl

theorem exists_mem_schema {part : Toml.Section} (h : part ∈ s.sections) :
    ∃ keys, (part.name, keys) ∈ schema ∧ (part.entries.map Prod.fst).Sublist keys := by
  simp only [sections, List.mem_cons, List.not_mem_nil, or_false] at h
  rcases h with rfl | rfl | rfl | rfl | rfl
  case inr.inl =>
    refine ⟨_, List.mem_cons_of_mem _ List.mem_cons_self, ?_⟩
    cases s.card.databaseUrl with
    | none => exact List.sublist_append_left ["backend", "capacity", "record_size"] _
    | some url => exact List.Sublist.refl _
  all_goals exact ⟨_, by simp [schema, count], List.Sublist.refl _⟩

theorem isBare_of_mem_schema : ∀ e ∈ schema, ∀ word ∈ e.1 :: e.2, Toml.IsBare word := by
  decide

theorem plain_sections (s : Settings) : Toml.Plain s.sections where
  plain part hpart := by
    obtain ⟨keys, hmem, hkeys⟩ := exists_mem_schema hpart
    have hbare := isBare_of_mem_schema _ hmem
    exact {
      name := hbare _ List.mem_cons_self
      bare := fun e he =>
        hbare _ (List.mem_cons_of_mem _ (hkeys.subset (List.mem_map_of_mem he)))
      distinct := (nodup_schema.2 _ hmem).sublist hkeys }
  distinct := by
    rw [name_sections]
    exact nodup_schema.1

/-! ### Values -/

/-- The numbers in settings. -/
def counts (s : Settings) : List Nat :=
  [s.limits.userData, s.limits.concatHeader, s.limits.portHeader, s.card.capacity,
    s.card.recordSize, s.tracking.retirementSeconds, s.tracking.sweepSeconds]

/-- The largest integer of 64 bits with a sign. -/
def maxInteger : Nat := 0x7FFFFFFFFFFFFFFF

theorem strict_count? {n : Nat} (h : n ≤ maxCount) :
    Dialect.strict.count? (.integer n) = some n := by
  have hmax : (n : Int) ≤ maxCount := by omega
  simp [Dialect.strict, hmax]

theorem sectioned_sections (s : Settings) : Sectioned (Toml.toTable s.sections) := by
  intro e he value hvalue
  obtain ⟨part, -, heq⟩ := List.mem_map.1 (Toml.mem_of_lookup hvalue)
  exact ⟨_, (congrArg Prod.snd heq).symm⟩

/-- **The table of settings holds these settings.** -/
theorem ofTable?_sections (h : ∀ n ∈ s.counts, n ≤ maxCount) :
    ofTable? .strict (Toml.toTable s.sections) = some s := by
  have hcount := fun n hn => strict_count? (h n hn)
  simp only [counts, List.forall_mem_cons] at hcount
  obtain ⟨hu, hc, hp, hcapacity, hr, hretire, hsweep, -⟩ := hcount
  have hurl : (find? (Toml.toTable s.sections) "slot_store" "database_url").map
      Dialect.strict.text? = s.card.databaseUrl.map some := by
    rw [find?_of_lookup rfl]
    cases s.card.databaseUrl <;> rfl
  exact (ofTable?_eq_some_iff (sectioned_sections s)).2 {
    limits := ⟨hu, hc, hp⟩
    card := ⟨CardBackend.named?_text _, hcapacity, hr, hurl⟩
    tracking := ⟨hretire, hsweep⟩
    prefersIms := rfl
    log := ⟨rfl, rfl⟩ }

theorem parse?_toToml (s : Settings) : Toml.parse? s.toToml = some (Toml.toTable s.sections) :=
  Toml.parse?_render (plain_sections s)

theorem ofToml_toToml_eq_checked (h : ∀ n ∈ s.counts, n ≤ maxCount) :
    ofToml s.toToml = s.checked := by
  have hread : Toml.parse? s.toToml >>= ofTable? .strict = some s := by
    rw [parse?_toToml]
    exact ofTable?_sections h
  rw [ofToml, hread]

/-- **Settings written and read back**: the same settings, if they pass the check, and else what is
wrong with them.  Whatever characters their texts consist of. -/
theorem ofToml_toToml (h : ∀ n ∈ s.counts, n ≤ maxInteger) :
    (s.check = .ok () → ofToml s.toToml = .ok s) ∧
      ∀ e, s.check = .error e → ofToml s.toToml = .error e := by
  have hmax : maxInteger ≤ maxCount := by decide
  rw [ofToml_toToml_eq_checked fun n hn => Nat.le_trans (h n hn) hmax, checked]
  constructor
  · intro hcheck
    rw [hcheck]
    rfl
  · intro e hcheck
    rw [hcheck]
    rfl

/-- A place of a table with quotes, a backslash, a line break, a control character and one beyond
ASCII. -/
def awkwardUrl : String := "sqlite:a\"b'c\\d\ne\x01/卡"

/-- Settings with the largest number and a place that no plain quotes can hold. -/
def awkward : Settings :=
  { Settings.standard with card := ⟨.sqlite, 255, maxInteger, some awkwardUrl⟩ }

theorem check_awkward : awkward.check = .ok () := by
  have hurl : "sqlite:".isPrefixOf awkwardUrl = true :=
    String.startsWith_string_iff.2 (by decide)
  have hcard : awkward.card.check = .ok () := by
    simp [CardSettings.check, awkward, hurl, maxInteger]
  rw [check, hcard]
  rfl

theorem ofToml_toToml_awkward :
    (∀ n ∈ awkward.counts, n ≤ maxInteger) ∧ ofToml awkward.toToml = .ok awkward := by
  have hcounts : ∀ n ∈ awkward.counts, n ≤ maxInteger := by decide
  exact ⟨hcounts, (ofToml_toToml hcounts).1 check_awkward⟩

end Settings

end ShortMessage
