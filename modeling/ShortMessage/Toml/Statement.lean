import ShortMessage.Toml.Node
import ShortMessage.Toml.Scalar

/-!
# The statements of a document in TOML

A document is a list of statements: headers, which open a table, and assignments, which go into the
table that was opened last.

* `Toml.Statement`: the statements;
* `Toml.path?`, `value?`: readers of keys and of values;
* `Toml.statements?`: the statements of a text.
-/

namespace ShortMessage.Toml

/-- **A statement.** -/
inductive Statement
  /-- A header in single brackets. -/
  | table (path : Path)
  /-- A header in double brackets: one more element of an array of tables. -/
  | element (path : Path)
  | assign (path : Path) (value : Value)

/-! ### Blank space -/

/-- Drops blank space within a line. -/
def dropSpaces (text : List Char) : List Char :=
  text.dropWhile isSpace

/-- Drops a comment up to the end of its line; it must not hold control characters. -/
def dropComment? : List Char → Option (List Char)
  | [] => some []
  | '\n' :: rest => some ('\n' :: rest)
  | '\r' :: '\n' :: rest => some ('\n' :: rest)
  | c :: rest => if isForbidden c then none else dropComment? rest

/-- Drops blank space, and a comment if there is one. -/
def dropTail? (text : List Char) : Option (List Char) :=
  match dropSpaces text with
  | '#' :: rest => dropComment? rest
  | rest => some rest

/-- Drops blank space, comments and line breaks, as many as there are. -/
def dropLines? : (fuel : Nat) → List Char → Option (List Char)
  | 0, _ => none
  | fuel + 1, text => do
    let rest ← dropTail? text
    match newline? rest with
    | some rest => dropLines? fuel rest
    | none => pure rest

/-! ### Keys -/

/-- The characters of a key that needs no quotes. -/
def isBareChar (c : Char) : Bool :=
  c.isAlphanum || c = '_' || c = '-'

/-- One key, in quotes or bare. -/
def key? (text : List Char) : Option (String × List Char) :=
  match quotedLine? text with
  | some (key, rest) => some (String.ofList key, rest)
  | none =>
    let bare := text.takeWhile isBareChar
    if bare.isEmpty then none else some (String.ofList bare, text.dropWhile isBareChar)

/-- Keys with dots between them, and blank space around. -/
def path? : (fuel : Nat) → List Char → Option (Path × List Char)
  | 0, _ => none
  | fuel + 1, text => do
    let (key, rest) ← key? (dropSpaces text)
    match dropSpaces rest with
    | '.' :: rest => do
      let (path, rest) ← path? fuel rest
      pure (key :: path, rest)
    | rest => pure ([key], rest)

/-! ### Values -/

mutual

/-- **A value.** -/
def value? : (fuel : Nat) → List Char → Option (Value × List Char)
  | 0, _ => none
  | fuel + 1, '[' :: rest => do
    let (values, rest) ← elements? fuel rest
    pure (.list values, rest)
  | fuel + 1, '\x7b' :: rest => do
    let (assignments, rest) ← assignments? fuel rest
    let table ← ofAssignments? assignments
    pure (table, rest)
  | _ + 1, text =>
    match quoted? text with
    | some (s, rest) => some (.text (String.ofList s), rest)
    | none => scalar? text

/-- The rest of a list, with its closing bracket. -/
def elements? : (fuel : Nat) → List Char → Option (List Value × List Char)
  | 0, _ => none
  | fuel + 1, text => do
    match ← dropLines? text.length.succ text with
    | ']' :: rest => pure ([], rest)
    | text => do
      let (value, rest) ← value? fuel text
      match ← dropLines? rest.length.succ rest with
      | ',' :: rest => do
        let (values, rest) ← elements? fuel rest
        pure (value :: values, rest)
      | ']' :: rest => pure ([value], rest)
      | _ => none

/-- The rest of a table in braces, with its closing brace. -/
def assignments? : (fuel : Nat) → List Char → Option (List (Path × Value) × List Char)
  | 0, _ => none
  | fuel + 1, text => do
    match ← dropLines? text.length.succ text with
    | '\x7d' :: rest => pure ([], rest)
    | text => do
      let (path, rest) ← path? text.length.succ text
      let (value, rest) ← value? fuel (dropSpaces (← mark? '=' rest))
      match ← dropLines? rest.length.succ rest with
      | ',' :: rest => do
        let (others, rest) ← assignments? fuel rest
        pure ((path, value) :: others, rest)
      | '\x7d' :: rest => pure ([(path, value)], rest)
      | _ => none

end

/-! ### Statements -/

/-- A statement, without what follows it on its line. -/
def statement? (text : List Char) : Option (Statement × List Char) :=
  match text with
  | '[' :: '[' :: rest => do
    let (path, rest) ← path? rest.length.succ rest
    match rest with
    | ']' :: ']' :: rest => pure (.element path, rest)
    | _ => none
  | '[' :: rest => do
    let (path, rest) ← path? rest.length.succ rest
    pure (.table path, ← mark? ']' rest)
  | _ => do
    let (path, rest) ← path? text.length.succ text
    let (value, rest) ← value? text.length.succ (dropSpaces (← mark? '=' rest))
    pure (.assign path value, rest)

/-- The end of a line: blank space, perhaps a comment, and a line break or the end of the text. -/
def endLine? (text : List Char) : Option (List Char) := do
  match ← dropTail? text with
  | [] => pure []
  | rest => newline? rest

/-- **The statements of a text.** -/
def statements? : (fuel : Nat) → List Char → Option (List Statement)
  | 0, _ => none
  | fuel + 1, text => do
    match ← dropLines? text.length.succ text with
    | [] => pure []
    | text => do
      let (statement, rest) ← statement? text
      let others ← statements? fuel (← endLine? rest)
      pure (statement :: others)

end ShortMessage.Toml
