import ShortMessage.Settings.Dialect
import ShortMessage.Toml.Node

/-!
# Layers of settings

A lower layer holds for every key that a higher one does not give.

* `Layer.put`: a value under a key, a table being merged with the one that is there;
* `Layer.putAt`: a value at the end of a path of keys;
* `Layer.standard`: the lowest layer; `Layer.withFile`, `withEnvironment`: the others;
* `Layer.ofVariable?`: what a variable of the environment sets.
-/

namespace ShortMessage.Layer

open Toml (Value Table)

/-- Puts a value in the place of the one with its key, or at the end. -/
def replace (key : String) (value : Value) : Table → Table
  | [] => [(key, value)]
  | (k, old) :: rest => if k = key then (k, value) :: rest else (k, old) :: replace key value rest

/-- The fields of a value; one that is no table has none. -/
def fieldsOf (value : Value) : Table :=
  value.fields?.getD []

mutual

/-- **Puts a value** under a key.  The fields of a table are put into what is there, one by one. -/
def put (key : String) (value : Value) (fields : Table) : Table :=
  match value with
  | .table incoming => replace key (putAll incoming ((fields.lookup key).getD (.table []))) fields
  | value => replace key value fields

/-- Puts fields into a value, which becomes a table if it is none. -/
def putAll (incoming : Table) (target : Value) : Value :=
  match incoming with
  | [] => target
  | (key, value) :: rest => putAll rest (.table (put key value (fieldsOf target)))

end

/-- **Puts a value at the end of a path.**  What is on the way and no table becomes one. -/
def putAt (value : Value) : Toml.Path → Table → Table
  | [], fields => fields
  | [key], fields => put key value fields
  | key :: path, fields =>
    let below := fieldsOf ((fields.lookup key).getD (.table []))
    replace key (.table (putAt value path below)) fields

/-! ### Keys with dots -/

/-- The characters of the names in a path. -/
def isNameChar (c : Char) : Bool :=
  c.isAlphanum || c = '_' || c = '-'

/-- A key of names with dots between them is a path; any other key is one name. -/
def path (key : String) : Toml.Path :=
  let names := (key.toList.splitOn '.').map String.ofList
  if names.all fun name => name ≠ "" ∧ name.toList.all isNameChar then names else [key]

/-- Puts an entry where its key leads. -/
def putKey (fields : Table) (entry : String × Value) : Table :=
  putAt entry.2 (path entry.1) fields

/-! ### The layers -/

/-- The lowest layer: the standard settings, without a place of a table. -/
def standard : Table :=
  let s := Settings.standard
  let count (n : Nat) : Value := .integer n
  [("segmentation", .table
      [("max_user_data_octets", count s.limits.userData),
        ("concat_header_octets", count s.limits.concatHeader),
        ("port_header_octets", count s.limits.portHeader)]),
    ("slot_store", .table
      [("backend", .text s.card.backend.text),
        ("capacity", count s.card.capacity),
        ("record_size", count s.card.recordSize)]),
    ("tracking", .table
      [("retirement_timeout_seconds", count s.tracking.retirementSeconds),
        ("sweep_interval_seconds", count s.tracking.sweepSeconds)]),
    ("fallback", .table [("ims_enabled", .bool s.prefersIms)]),
    ("observability", .table
      [("log_level", .text s.log.level), ("log_format", .text s.log.format)])]

/-- **The layer of a file** over those below. -/
def withFile (file : Table) (below : Table) : Table :=
  file.foldl putKey below

/-- What the text of a variable stands for: the first kind that it can be read as. -/
def variableValue (text : String) : Value :=
  let word := Dialect.lower text
  if word = "true" then .bool true
  else if word = "false" then .bool false
  else
    match Text.signed? (-0x8000000000000000) 0x7FFFFFFFFFFFFFFF text, Binary64.ofText? text with
    | some n, _ => .integer n
    | none, some x => .real x
    | none, none => .text text

/-- The lead of the variables that set something. -/
def variableLead : List Char := "sms_".toList

/-- A dot for every two underscores. -/
def dots : List Char → List Char
  | '_' :: '_' :: rest => '.' :: dots rest
  | c :: rest => c :: dots rest
  | [] => []

/-- What a variable of the environment sets: its name, in small letters and after the lead, is a key
in which two underscores stand for a dot. -/
def ofVariable? (name text : String) : Option (String × Value) :=
  let name := (Dialect.lower name).toList
  if name.take variableLead.length = variableLead then
    some (String.ofList (dots (name.drop variableLead.length)), variableValue text)
  else none

/-- The variables that set something, in capitals as they are usually written. -/
def variableNames : List String :=
  let keys := standard ++ [("slot_store", .table [("database_url", .text "")])]
  keys.flatMap fun (name, value) => (fieldsOf value).map fun (key, _) =>
    (String.ofList variableLead ++ name ++ "__" ++ key).toUpper

/-- **The layer of the environment** over those below; other variables set nothing. -/
def withEnvironment (environment : List (String × String)) (below : Table) : Table :=
  (environment.filterMap fun (name, text) => ofVariable? name text).foldl putKey below

end ShortMessage.Layer
