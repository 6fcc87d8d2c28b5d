import ShortMessage.Toml.Value

/-!
# Tables that are being put together

The tables of a document come into being by headers and by assignments to dotted keys, and how one
came into being decides what may still be put into it.

* `Toml.Origin`: how a table came into being;
* `Toml.Node`: a value, a table or an array of tables, while more may come;
* `Toml.Node.alter?`: a change somewhere below a table;
* `Toml.Node.open?`, `extend?`, `assign?`: what headers and assignments change;
* `Toml.ofAssignments?`: a table that is written in braces.
-/

namespace ShortMessage.Toml

/-- Keys, from the outermost to the innermost. -/
abbrev Path := List String

/-- How a table came into being. -/
inductive Origin
  /-- By a header of a table below it. -/
  | implied
  /-- By a header of its own. -/
  | header
  /-- By an assignment to a dotted key. -/
  | dotted
deriving DecidableEq

/-- What a key stands for while a document is put together. -/
inductive Node
  /-- A value that is complete. -/
  | value (value : Value)
  | table (origin : Origin) (fields : List (String × Node))
  /-- An array of tables, the one to be added to first. -/
  | tables (newestFirst : List (List (String × Node)))
deriving Inhabited

/-- The fields of a table that is being put together. -/
abbrev Nodes := List (String × Node)

namespace Node

/-- Puts a node in the place of the one with its key, or at the end. -/
def set (key : String) (node : Node) : Nodes → Nodes
  | [] => [(key, node)]
  | (k, old) :: rest => if k = key then (k, node) :: rest else (k, old) :: set key node rest

/-- **Changes a table** at the end of a path.  Tables on the way are made where there are none; of
an array of tables the newest is meant.  A way that is `dotted` must not pass through a table that
has a header. -/
def alter? (dotted : Bool) (change : Origin → Nodes → Option Nodes) :
    Path → Origin → Nodes → Option Nodes
  | [], origin, fields => change origin fields
  | key :: path, _, fields =>
    match fields.lookup key with
    | none => do
      let origin := if dotted then .dotted else .implied
      let inner ← alter? dotted change path origin []
      pure (set key (.table origin inner) fields)
    | some (.table origin inner) =>
      if dotted ∧ origin = .header then none
      else do
        let inner ← alter? dotted change path origin inner
        pure (set key (.table origin inner) fields)
    | some (.tables (newest :: older)) => do
      let newest ← alter? dotted change path .header newest
      pure (set key (.tables (newest :: older)) fields)
    | some (.tables []) => none
    | some (.value _) => none

mutual

/-- A node as a value. -/
def toValue : Node → Value
  | .value v => v
  | .table _ fields => .table (toTable fields)
  | .tables newestFirst => .list (toTables newestFirst).reverse

/-- Nodes as the fields of a table. -/
def toTable : Nodes → Table
  | [] => []
  | (key, node) :: rest => (key, toValue node) :: toTable rest

/-- Tables as values, in the order in which they are kept. -/
def toTables : List Nodes → List Value
  | [] => []
  | fields :: rest => .table (toTable fields) :: toTables rest

end

/-- Opens a table; only one that came into being by a header below it may be there. -/
def open? (key : String) (fields : Nodes) : Option Nodes :=
  match fields.lookup key with
  | none => some (set key (.table .header []) fields)
  | some (.table .implied inner) => some (set key (.table .header inner) fields)
  | some _ => none

/-- Adds an empty table to an array of tables. -/
def extend? (key : String) (fields : Nodes) : Option Nodes :=
  match fields.lookup key with
  | none => some (set key (.tables [[]]) fields)
  | some (.tables newestFirst) => some (set key (.tables ([] :: newestFirst)) fields)
  | some _ => none

/-- Puts a value under a key that is not there yet.  A dotted key ends in a table that only dotted
keys made, and a simple key in any other. -/
def put? (viaDots : Bool) (key : String) (value : Value) (origin : Origin) (fields : Nodes) :
    Option Nodes :=
  if viaDots = decide (origin = .dotted) ∧ (fields.lookup key).isNone then
    some (set key (.value value) fields)
  else none

/-- Assigns a value to a key, which may be dotted, below a table. -/
def assign? (path : Path) (value : Value) (origin : Origin) (fields : Nodes) : Option Nodes := do
  let key ← path.getLast?
  let way := path.dropLast
  alter? true (put? (!way.isEmpty) key value) way origin fields

end Node

/-- The table that is written in braces, from its assignments. -/
def ofAssignments? (assignments : List (Path × Value)) : Option Value := do
  let fields ← assignments.foldlM
    (fun fields (path, value) => Node.assign? path value .header fields) []
  pure (.table (Node.toTable fields))

end ShortMessage.Toml
