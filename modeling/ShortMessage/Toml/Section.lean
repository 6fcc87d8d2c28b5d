import ShortMessage.Toml.Statement

/-!
# Writing TOML

A document that consists of named sections, each with simple values.

* `Toml.Atom`, `Toml.Section`: what is written;
* `Toml.quote`: a text between quotes; `Toml.Quotes.choose` says which quotes it gets;
* `Toml.render`: the document; `Toml.toTable` is what it stands for.
-/

namespace ShortMessage.Toml

/-- A simple value. -/
inductive Atom
  | bool (value : Bool)
  | integer (value : Int)
  | text (value : String)
deriving DecidableEq

/-- An atom as a value. -/
def Atom.toValue : Atom → Value
  | .bool b => .bool b
  | .integer n => .integer n
  | .text s => .text s

/-- **A section**: a table of its own, with a name. -/
structure Section where
  name : String
  entries : List (String × Atom)
deriving DecidableEq

/-- The table that a list of sections stands for. -/
def toTable (sections : List Section) : Table :=
  sections.map fun s => (s.name, .table (s.entries.map fun (key, atom) => (key, atom.toValue)))

/-! ### Quotes -/

/-- The ways to quote a text: double quotes with escapes or single quotes without, and either of
them once or threefold. -/
inductive Quotes
  | basic
  | literal
  | basicLines
  | literalLines
deriving DecidableEq

/-- The length of the longest run of a character. -/
def longestRun (c : Char) (text : List Char) : Nat :=
  (text.foldl (fun (longest, current) x =>
    if x = c then (max longest (current + 1), current + 1) else (longest, 0)) (0, 0)).1

/-- A control character that only an escape can stand for. -/
def needsEscape (c : Char) : Bool :=
  isForbidden c && c ≠ '\n'

/-- **The choice of quotes**: the plainest that need no escapes; if all do, the double ones,
threefold for a text of many lines. -/
def Quotes.choose (text : List Char) : Quotes :=
  let controls := text.any needsEscape
  let backslash := '\\' ∈ text
  let breaks := '\n' ∈ text
  let doubles := longestRun '"' text
  let singles := longestRun '\'' text
  if !controls ∧ ¬backslash ∧ doubles = 0 ∧ ¬breaks then .basic
  else if !controls ∧ singles = 0 ∧ ¬breaks then .literal
  else if !controls ∧ ¬backslash ∧ doubles ≤ 2 then .basicLines
  else if !controls ∧ singles ≤ 2 then .literalLines
  else if breaks then .basicLines
  else .basic

/-- A character between double quotes; a quote and a line break are another matter. -/
def escapeControl (c : Char) : List Char :=
  if c = '\x08' then ['\\', 'b']
  else if c = '\t' then ['\\', 't']
  else if c = '\n' then ['\\', 'n']
  else if c = '\x0c' then ['\\', 'f']
  else if c = '\r' then ['\\', 'r']
  else if c = '\\' then ['\\', '\\']
  else if isForbidden c then
    ['\\', 'u'] ++ (Text.fixed 16 4 c.toNat).map Char.toUpper
  else [c]

/-- A text between double quotes.  A run of quotes longer than `most` has every next one escaped,
and `quotes` of a run are already written. -/
def escapeBasic (most : Nat) (lines : Bool) : (quotes : Nat) → List Char → List Char
  | _, [] => []
  | quotes, '"' :: rest =>
    if quotes < most then '"' :: escapeBasic most lines (quotes + 1) rest
    else '\\' :: '"' :: escapeBasic most lines 0 rest
  | _, c :: rest =>
    (if lines ∧ c = '\n' then ['\n'] else escapeControl c) ++ escapeBasic most lines 0 rest

/-- A text between quotes of a kind; a line break follows threefold ones. -/
def quoteWith (text : List Char) : Quotes → List Char
  | .basic => '"' :: escapeBasic 0 false 0 text ++ ['"']
  | .literal => '\'' :: text ++ ['\'']
  | .basicLines => ['"', '"', '"', '\n'] ++ escapeBasic 2 true 0 text ++ ['"', '"', '"']
  | .literalLines => ['\'', '\'', '\'', '\n'] ++ text ++ ['\'', '\'', '\'']

/-- A text between the quotes that are chosen for it. -/
def quote (text : List Char) : List Char :=
  quoteWith text (.choose text)

/-! ### Documents -/

/-- An atom as it is written. -/
def Atom.render : Atom → List Char
  | .bool b => if b then "true".toList else "false".toList
  | .integer n => (toString n).toList
  | .text s => quote s.toList

/-- A key; only one of letters, digits, hyphens and underscores needs no quotes. -/
def renderKey (key : String) : List Char :=
  let chars := key.toList
  if chars ≠ [] ∧ chars.all isBareChar then chars
  else quoteWith chars (if chars.any isForbidden ∨ '\'' ∈ chars then .basic else .literal)

/-- An entry, on a line of its own unless its text has many. -/
def renderEntry (entry : String × Atom) : List Char :=
  renderKey entry.1 ++ [' ', '=', ' '] ++ entry.2.render ++ ['\n']

/-- A section: its header, then its entries. -/
def Section.render (s : Section) : List Char :=
  '[' :: renderKey s.name ++ [']', '\n'] ++ s.entries.flatMap renderEntry

/-- **The document**: the sections with an empty line between them. -/
def render (sections : List Section) : String :=
  .ofList (List.intercalate ['\n'] (sections.map Section.render))

end ShortMessage.Toml
