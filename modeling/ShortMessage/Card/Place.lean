import ShortMessage.Octets

/-!
# Where a slot table is kept

A database URL names the place of a slot table: `sqlite:` or `sqlite://`, then a path, then perhaps
options after a question mark.

* `TablePlace`: a table of its own, a named table in memory, or a file;
* `TablePlace.ofUrl?`: reads a URL; it refuses options it does not know and those that forbid
  writing.
-/

namespace ShortMessage

/-- The place of a slot table. -/
inductive TablePlace
  /-- A table that nobody else opens. -/
  | own
  /-- A table in memory that is shared under a name. -/
  | named (name : String)
  | file (path : String)
deriving DecidableEq

namespace TablePlace

/-- Undoes percent escapes; an escape that is not one stands for itself. -/
def unescapeOctets : List Char → Octets
  | [] => []
  | '%' :: high :: low :: rest =>
    match Octets.digitValue? high, Octets.digitValue? low with
    | some h, some l => (16 * h + l) :: unescapeOctets rest
    | _, _ => 0x25 :: unescapeOctets (high :: low :: rest)
  | c :: rest => (String.singleton c).toUTF8.toList ++ unescapeOctets rest

/-- A text without its percent escapes, if the octets spell one. -/
def unescape? (s : List Char) : Option String :=
  String.fromUTF8? (ByteArray.mk (unescapeOctets s).toArray)

/-- The options of a URL: pairs joined by `&`, a plus sign standing for a space. -/
def options? (s : String) : Option (List (String × String)) :=
  ((s.splitOn "&").filter (· ≠ "")).mapM fun item => do
    let chars := item.toList.map fun c => if c = '+' then ' ' else c
    let key ← unescape? (chars.takeWhile (· ≠ '='))
    let value ← unescape? ((chars.dropWhile (· ≠ '=')).drop 1)
    pure (key, value)

/-- The place after one option. -/
def withOption? (path : String) (place : TablePlace) : String × String → Option TablePlace
  | ("mode", "memory") => some (.named path)
  | ("mode", "rw") | ("mode", "rwc") | ("cache", "shared") => some place
  | ("cache", "private") =>
    some <| match place with
      | .named _ => .own
      | other => other
  | ("immutable", "false") | ("immutable", "0") => some place
  | _ => none

/-- Drops a word as often as the text begins with it. -/
def dropLeading (word : List Char) (s : List Char) : List Char :=
  if _h : word ≠ [] ∧ word.isPrefixOf s then dropLeading word (s.drop word.length) else s
termination_by s.length
decreasing_by
  have hw : 0 < word.length := List.length_pos_iff.2 _h.1
  have hle := (List.isPrefixOf_iff_prefix.1 _h.2).length_le
  simp only [List.length_drop]; omega

/-- **Reads a URL.**  Its lead may be missing; in memory is also what has no path. -/
def ofUrl? (url : String) : Option TablePlace := do
  let rest := dropLeading "//".toList (dropLeading "sqlite:".toList url.toList)
  let database := rest.takeWhile (· ≠ '?')
  let path ← unescape? database
  let place : TablePlace :=
    if database = ":memory:".toList ∨ path = "" then .own else .file path
  let options ← options? (String.ofList ((rest.dropWhile (· ≠ '?')).drop 1))
  options.foldlM (withOption? path) place

/-- The directory part of a path: the root keeps its slash, a bare name has none. -/
def directory (path : String) : String :=
  match path.toList.reverse.dropWhile (· ≠ '/') with
  | [] => ""
  | ['/'] => "/"
  | _ :: rest => String.ofList rest.reverse

end TablePlace

end ShortMessage
