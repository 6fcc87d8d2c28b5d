import ShortMessage.Json

/-!
# The JSON forms of types

* `JsonForm`: how a type is written as JSON, and what is read as it;
* `Json.canonical?`: what reading a value and writing it again gives;
* forms of truth values, texts, counts, octets, lists and optional values;
* `Spelling`: the form of a closed list of names.

A form may read more than it writes: a name may stand as the only field of an object, and a record
may be a list.  What is read is never guessed: numbers are integers in range.
-/

namespace ShortMessage

/-- A form in which the values of a type are written and read. -/
class JsonForm (α : Type) where
  write : α → Json
  read? : Json → Option α

namespace Json

open JsonForm

/-- What reading a value as a type and writing it again gives. -/
def canonical? (α : Type) [JsonForm α] (value : Json) : Option Json :=
  (read? value : Option α).map write

/-- An integer from `low` to `high`. -/
def integer? (low high : Int) : Json → Option Int
  | .integer n => if low ≤ n ∧ n ≤ high then some n else none
  | _ => none

/-- An integer from zero to `high`. -/
def count? (high : Nat) (value : Json) : Option Nat :=
  (value.integer? 0 high).map Int.toNat

end Json

namespace JsonForm

instance : JsonForm Bool where
  write := .bool
  read?
    | .bool b => some b
    | _ => none

instance : JsonForm String where
  write := .text
  read?
    | .text s => some s
    | _ => none

/-- Counts, sizes and numbers of slots: below two to the sixty-fourth. -/
instance : JsonForm Nat where
  write n := .integer n
  read? := Json.count? 0xFFFFFFFFFFFFFFFF

instance : JsonForm UInt8 where
  write n := .integer n.toNat
  read? j := (j.count? 0xFF).map UInt8.ofNat

instance : JsonForm UInt16 where
  write n := .integer n.toNat
  read? j := (j.count? 0xFFFF).map UInt16.ofNat

instance {α : Type} [JsonForm α] : JsonForm (List α) where
  write l := .list (l.map write)
  read?
    | .list values => values.mapM read?
    | _ => none

instance {α : Type} [JsonForm α] : JsonForm (Option α) where
  write
    | none => .null
    | some a => write a
  read?
    | .null => some none
    | value => (read? value).map some

end JsonForm

/-- **A spelling** gives each value of a closed list a name. -/
structure Spelling (α : Type) where
  values : List α
  name : α → String

namespace Spelling

variable {α : Type}

/-- A name, as a string. -/
def write (s : Spelling α) (a : α) : Json :=
  .text (s.name a)

/-- The value of a name; no other name is read. -/
def named? (s : Spelling α) (name : String) : Option α :=
  s.values.find? (s.name · = name)

/-- A name, or an object whose only field has that name and is null. -/
def read? (s : Spelling α) : Json → Option α
  | .text name => s.named? name
  | .object [(name, .null)] => s.named? name
  | _ => none

/-- The form that a spelling gives. -/
abbrev form (s : Spelling α) : JsonForm α := ⟨s.write, s.read?⟩

end Spelling

end ShortMessage
