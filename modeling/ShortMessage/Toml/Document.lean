import ShortMessage.Toml.Statement

/-!
# Documents in TOML

* `Toml.Draft`: a document of which some statements have been read;
* `Toml.ofStatements?`: the document of a list of statements;
* `Toml.parse?`: the document of a text.
-/

namespace ShortMessage.Toml

/-- What has been put together, and the table that was opened last. -/
structure Draft where
  fields : Nodes
  current : Path

namespace Draft

/-- Nothing has been read; assignments go into the document itself. -/
def empty : Draft := ⟨[], []⟩

/-- One statement more. -/
def add? (d : Draft) : Statement → Option Draft
  | .table path => do
    let key ← path.getLast?
    let fields ← Node.alter? false (fun _ => Node.open? key) path.dropLast .header d.fields
    pure ⟨fields, path⟩
  | .element path => do
    let key ← path.getLast?
    let fields ← Node.alter? false (fun _ => Node.extend? key) path.dropLast .header d.fields
    pure ⟨fields, path⟩
  | .assign path value => do
    let fields ← Node.alter? false (Node.assign? path value) d.current .header d.fields
    pure { d with fields }

end Draft

/-- **The document** of a list of statements. -/
def ofStatements? (statements : List Statement) : Option Table := do
  let draft ← statements.foldlM Draft.add? .empty
  pure (Node.toTable draft.fields)

/-- A mark of the byte order may precede a text. -/
def dropOrderMark : List Char → List Char
  | '\ufeff' :: rest => rest
  | text => text

/-- **The document of a text.** -/
def parse? (text : String) : Option Table := do
  let text := dropOrderMark text.toList
  ofStatements? (← statements? text.length.succ text)

end ShortMessage.Toml
