import ShortMessage.Binary64.Shortest
import ShortMessage.Settings
import ShortMessage.Toml.Value

/-!
# Settings out of tables

The settings are a table of five tables.  What counts as a number or a text there is a dialect's
matter: the strict one takes each value for what it is, the lenient one also converts.

* `Dialect`: how values are taken;
* `Dialect.strict`, `Dialect.lenient`;
* `Settings.ofTable?`: the settings that a table holds.
-/

namespace ShortMessage

open Toml (Value Table)

/-- **A dialect** says what a value is taken for. -/
structure Dialect where
  count? : Value → Option Nat
  bool? : Value → Option Bool
  text? : Value → Option String
  backend? : Value → Option CardBackend

/-- Counts are below two to the sixty-fourth. -/
def maxCount : Nat := 0xFFFFFFFFFFFFFFFF

/-- The backend of a name, which is written in small letters. -/
def CardBackend.named? (name : String) : Option CardBackend :=
  if name = "memory" then some .memory
  else if name = "sqlite" then some .sqlite
  else none

namespace Dialect

/-! ### The strict dialect -/

/-- A table or a list with nothing in it. -/
def isEmpty : Value → Bool
  | .table [] => true
  | .list [] => true
  | _ => false

/-- Each value is what it is; a name may also be the only field of a table, with nothing in it. -/
def strict : Dialect where
  count?
    | .integer n => if 0 ≤ n ∧ n ≤ maxCount then some n.toNat else none
    | _ => none
  bool?
    | .bool b => some b
    | _ => none
  text?
    | .text s => some s
    | _ => none
  backend?
    | .text s => CardBackend.named? s
    | .table [(name, value)] => if isEmpty value then CardBackend.named? name else none
    | _ => none

/-! ### The lenient dialect -/

/-- The small letter of a character of ASCII, and of the sign for Kelvin, the only character beyond
that has a small letter in it. -/
def lowerChar (c : Char) : Char :=
  if c = '\u212a' then 'k' else c.toLower

/-- A text in small letters. -/
def lower (s : String) : String :=
  .ofList (s.toList.map lowerChar)

/-- Words for yes and no, in any case. -/
def switch? (s : String) : Option Bool :=
  let word := lower s
  if word = "true" ∨ word = "on" ∨ word = "yes" then some true
  else if word = "false" ∨ word = "off" ∨ word = "no" then some false
  else none

/-- The truth value that a text stands for: a word, or one of two digits. -/
def boolText? (s : String) : Option Bool :=
  if s = "1" then some true
  else if s = "0" then some false
  else switch? s

/-- The count that a text stands for; words for yes and no are one and zero. -/
def countOfText? (s : String) : Option Nat :=
  match switch? s with
  | some b => some (if b then 1 else 0)
  | none => Text.unsigned? maxCount s

/-- Numbers, truth values and texts stand for each other where that makes sense. -/
def lenient : Dialect where
  count?
    | .integer n => if 0 ≤ n then some n.toNat else none
    | .bool b => some (if b then 1 else 0)
    | .real x => some (x.toCount maxCount)
    | .text s | .moment s => countOfText? s
    | _ => none
  bool?
    | .bool b => some b
    | .integer n => some (n ≠ 0)
    | .real x => some !x.isZero
    | .text s | .moment s => boolText? s
    | _ => none
  text?
    | .text s | .moment s => some s
    | .bool b => some (if b then "true" else "false")
    | .integer n => some (toString n)
    | .real x => some x.toText
    | _ => none
  backend?
    | .text s => CardBackend.named? s
    | .table [(name, _)] => CardBackend.named? name
    | _ => none

/-! ### Sections -/

/-- The values of the named fields, in order: a table gives them by name, a list by place. -/
def row? (names : List String) : Value → Option (List (Option Value))
  | .table fields => some (names.map (fields.lookup ·))
  | .list values =>
    some ((values.map some ++ List.replicate names.length none).take names.length)
  | _ => none

/-- The room in parts; no value may be missing. -/
def limits? (d : Dialect) (given : Value) : Option SegmentLimits := do
  match ← row? ["max_user_data_octets", "concat_header_octets", "port_header_octets"] given with
  | [some userData, some concatHeader, some portHeader] =>
    pure ⟨← d.count? userData, ← d.count? concatHeader, ← d.count? portHeader⟩
  | _ => none

/-- The place of a table is the only setting that may be missing. -/
def card? (d : Dialect) (given : Value) : Option CardSettings := do
  match ← row? ["backend", "capacity", "record_size", "database_url"] given with
  | [some backend, some capacity, some recordSize, none] =>
    pure ⟨← d.backend? backend, ← d.count? capacity, ← d.count? recordSize, none⟩
  | [some backend, some capacity, some recordSize, some url] =>
    pure ⟨← d.backend? backend, ← d.count? capacity, ← d.count? recordSize, some (← d.text? url)⟩
  | _ => none

/-- The times of tracking; neither may be missing. -/
def tracking? (d : Dialect) (given : Value) : Option TrackingSettings := do
  match ← row? ["retirement_timeout_seconds", "sweep_interval_seconds"] given with
  | [some retirement, some sweep] => pure ⟨← d.count? retirement, ← d.count? sweep⟩
  | _ => none

/-- Whether the IP route is preferred. -/
def prefersIms? (d : Dialect) (given : Value) : Option Bool := do
  match ← row? ["ims_enabled"] given with
  | [some enabled] => d.bool? enabled
  | _ => none

/-- What is logged, and how; neither may be missing. -/
def log? (d : Dialect) (given : Value) : Option LogSettings := do
  match ← row? ["log_level", "log_format"] given with
  | [some level, some format] => pure ⟨← d.text? level, ← d.text? format⟩
  | _ => none

end Dialect

/-- **The settings that a table holds.**  What the table holds besides does not matter. -/
def Settings.ofTable? (d : Dialect) (table : Table) : Option Settings := do
  let limits ← d.limits? (← table.lookup "segmentation")
  let card ← d.card? (← table.lookup "slot_store")
  let tracking ← d.tracking? (← table.lookup "tracking")
  let prefersIms ← d.prefersIms? (← table.lookup "fallback")
  let log ← d.log? (← table.lookup "observability")
  pure { limits, card, tracking, prefersIms, log }

end ShortMessage
