import ShortMessage.Binary64

/-!
# TOML values

* `Toml.Value`: a value of a TOML document, which itself is a table;
* `Toml.Value.fields?`, `get?`: the fields of a table.
-/

namespace ShortMessage.Toml

/-- **A TOML value.** -/
inductive Value
  | bool (value : Bool)
  | integer (value : Int)
  | real (value : Binary64)
  | text (value : String)
  /-- A date, a time or both, as it is written in full. -/
  | moment (text : String)
  | list (values : List Value)
  | table (fields : List (String × Value))
deriving Inhabited

/-- The fields of a table, in order; a look-up takes the first of a key. -/
abbrev Table := List (String × Value)

namespace Value

/-- The fields of a value that is a table. -/
def fields? : Value → Option Table
  | .table fields => some fields
  | _ => none

end Value

end ShortMessage.Toml
