import ShortMessage.Settings.Layers
import ShortMessage.Toml.Document

/-!
# Loading settings

Settings come from a file, if there is one, and from the environment, over the standard ones.

* `Surroundings`: the files and the variables that a program finds;
* `Settings.load`: the settings that a program gets.
-/

namespace ShortMessage

open Toml (Value Table)

/-- **What a program finds around it.** -/
structure Surroundings where
  /-- Names of files and their texts. -/
  files : List (String × String)
  environment : List (String × String)

namespace Surroundings

/-- One name further on a way; two dots go back, but not over the beginning of a relative way. -/
def step? (way : List String) (name : String) : Option (List String) :=
  if name = "" ∨ name = "." then some way
  else if name = ".." then
    if way = [] then none else if way = ["/"] then some way else some way.dropLast
  else some (way ++ [name])

/-- The names on the way to a file, from the root or from the current directory. -/
def way? (path : String) : Option (List String) :=
  if path = "" then none
  else
    let root := if path.toList.head? = some '/' then ["/"] else []
    ((path.toList.splitOn '/').map String.ofList).foldlM step? root

/-- Does a path have the form of one to a directory? -/
def endsInSlash (path : String) : Bool :=
  ['/'].isSuffixOf path.toList || ['/', '.'].isSuffixOf path.toList

/-- The text of a file. -/
def file? (s : Surroundings) (path : String) : Option String := do
  let way ← if endsInSlash path then none else way? path
  let (_, text) ← s.files.find? fun (name, _) => way? name = some way
  pure text

/-- A directory is there if a file lies below it; the root and the current one always are. -/
def isDirectory (s : Surroundings) (path : String) : Bool :=
  match way? path with
  | none => false
  | some way =>
    way = [] || way = ["/"] || s.files.any fun (name, _) =>
      match way? name with
      | some below => way.length < below.length && way.isPrefixOf below
      | none => false

/-- A file or a directory has this path. -/
def exists? (s : Surroundings) (path : String) : Bool :=
  (s.file? path).isSome || s.isDirectory path

end Surroundings

namespace Settings

/-- Where settings are looked for if no file is named. -/
def usualPaths : List String :=
  ["config/sms-dispatch.toml", "sms-dispatch.toml", "/etc/sms-dispatch/config.toml"]

/-- The files that settings can come from. -/
def candidates : Option String → List String
  | some path => [path, path ++ ".toml"]
  | none => usualPaths

/-- The file that is taken, if any; one that is named has to be there. -/
def choosePath (s : Surroundings) : Option String → Except SettingsFailure (Option String)
  | some path => if s.exists? path then .ok (some path) else .error (.noFile path)
  | none => .ok (usualPaths.find? s.exists?)

mutual

/-- Do all integers have 64 bits? -/
def fitsWords : Value → Bool
  | .integer n => -0x8000000000000000 ≤ n && n ≤ 0x7FFFFFFFFFFFFFFF
  | .list values => allFitWords values
  | .table fields => fieldsFitWords fields
  | _ => true

/-- Do all integers in a list have 64 bits? -/
def allFitWords : List Value → Bool
  | [] => true
  | value :: rest => fitsWords value && allFitWords rest

/-- Do all integers in a table have 64 bits? -/
def fieldsFitWords : Table → Bool
  | [] => true
  | (_, value) :: rest => fitsWords value && fieldsFitWords rest

end

/-- The table of a file; if there is a directory in its place, the file beside it is meant. -/
def readFile (s : Surroundings) (path : String) : Except SettingsFailure Table :=
  match s.file? path <|> s.file? (path ++ ".toml") with
  | none => .error .badFile
  | some text =>
    match Toml.parse? text with
    | none => .error .badFile
    | some table => if fieldsFitWords table then .ok table else .error .badFile

/-- The settings of a table of layers, checked. -/
def ofLayers (table : Table) : Except SettingsFailure Settings :=
  match ofTable? .lenient table with
  | none => .error .badValue
  | some settings => settings.checked

/-- **Loads settings.** -/
def load (s : Surroundings) (path : Option String) : Except SettingsFailure Settings := do
  let below ←
    match ← choosePath s path with
    | none => pure Layer.standard
    | some path => do pure (Layer.withFile (← readFile s path) Layer.standard)
  ofLayers (Layer.withEnvironment s.environment below)

end Settings

end ShortMessage
