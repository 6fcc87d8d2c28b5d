import ShortMessage.Card.TableText
import ShortMessage.CommandLine.Run

/-!
# The program

Gathers what a run finds outside, runs it, and puts out what it gives: text, tables and a code.
-/

namespace ShortMessage.Program

open CommandLine (Request Report)

/-- What a reading action gives, if it works. -/
def attempt {α : Type} (action : IO α) : IO (Option α) := do
  try
    pure (some (← action))
  catch _ => pure none

/-- The files that settings can come from, and the variables that set something. -/
def surroundings (path : Option String) : IO Surroundings := do
  let files ← (Settings.candidates path).filterMapM fun (path : String) => do
    pure ((← attempt (IO.FS.readFile path)).map (path, ·))
  let environment ← Layer.variableNames.filterMapM fun name => do
    pure ((← IO.getEnv name).map (name, ·))
  pure ⟨files, environment⟩

/-- The shelf with the table that the settings name; a file that holds no table is out of reach. -/
def shelf (settings : Settings) : IO TableShelf := do
  match settings.card.databaseUrl >>= TablePlace.ofUrl? with
  | some (.file path) =>
    let directory := TablePlace.directory path
    let there ← attempt (IO.FS.realPath (if directory.isEmpty then "." else directory))
    let empty := TableShelf.ofDirectories (if there.isSome then [directory] else [])
    match ← attempt (IO.FS.readBinFile path) with
    | none => pure empty
    | some octets =>
      match String.fromUTF8? octets >>= SlotTable.ofText? with
      | some table => pure { empty with tables := empty.tables.insert (.file path) table }
      | none => pure (.ofDirectories [])
  | _ => pure (.ofDirectories [])

/-- Writes the tables that have files. -/
def store (s : TableShelf) : IO Unit :=
  s.tables.entries.forM fun (place, table) =>
    match place with
    | .file path => IO.FS.writeFile path table.toText
    | .own | .named _ => pure ()

/-- A fresh identity. -/
def freshId : IO MessageId := do
  let octets ← IO.getRandomBytes 16
  pure (.ofRandom (octets.toList.foldl (fun bits b => bits <<< 8 ||| BitVec.ofNat 128 b.toNat) 0))

/-- Goes on until the process is told to end. -/
partial def serve : IO Unit := do
  IO.sleep 1000
  serve

/-- Runs the program and answers its code. -/
def run (arguments : List String) : IO UInt32 := do
  let path :=
    match Request.ofArguments? arguments with
    | some (.run i) => i.path
    | _ => none
  let around ← surroundings path
  let shelf ←
    match Settings.load around path with
    | .ok settings => shelf settings
    | .error _ => pure (.ofDirectories [])
  let (report, shelf) := CommandLine.run around shelf (← freshId) arguments
  store shelf
  match report with
  | .done output => IO.print output
  | .failed message => IO.eprintln ("Error: " ++ message)
  | .misused => pure ()
  | .serving => serve
  pure (.ofNat report.code)

end ShortMessage.Program

/-- The entry of the program. -/
def main (arguments : List String) : IO UInt32 :=
  ShortMessage.Program.run arguments
