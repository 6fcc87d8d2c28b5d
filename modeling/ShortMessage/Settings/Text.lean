import ShortMessage.Settings.Dialect
import ShortMessage.Toml.Document
import ShortMessage.Toml.Section

/-!
# Settings as text

* `Settings.ofToml`: settings that a text gives in full, each value in its own type, checked;
* `Settings.toToml`: the text of settings; `Settings.sections` is what it consists of.
-/

namespace ShortMessage.Settings

/-- **Reads settings**, all of them, and checks them. -/
def ofToml (text : String) : Except SettingsFailure Settings :=
  match Toml.parse? text >>= ofTable? .strict with
  | some settings => settings.checked
  | none => .error .badText

/-- A number under its name. -/
def count (name : String) (n : Nat) : String × Toml.Atom :=
  (name, .integer n)

/-- The sections of settings, in order; there need not be a place of a table. -/
def sections (s : Settings) : List Toml.Section :=
  [⟨"segmentation",
      [count "max_user_data_octets" s.limits.userData,
        count "concat_header_octets" s.limits.concatHeader,
        count "port_header_octets" s.limits.portHeader]⟩,
    ⟨"slot_store",
      [("backend", .text s.card.backend.text),
        count "capacity" s.card.capacity,
        count "record_size" s.card.recordSize] ++
      s.card.databaseUrl.toList.map fun url => ("database_url", .text url)⟩,
    ⟨"tracking",
      [count "retirement_timeout_seconds" s.tracking.retirementSeconds,
        count "sweep_interval_seconds" s.tracking.sweepSeconds]⟩,
    ⟨"fallback", [("ims_enabled", .bool s.prefersIms)]⟩,
    ⟨"observability", [("log_level", .text s.log.level), ("log_format", .text s.log.format)]⟩]

/-- **Writes settings.** -/
def toToml (s : Settings) : String :=
  Toml.render s.sections

end ShortMessage.Settings
