import ShortMessage.Settings
import ShortMessage.Text.Numeral

/-!
# The arguments of the command line

The program has commands, which may have commands of their own.  At each level stand options with
their values; some options hold at every level, and of those the deepest counts.

* `Command`, `Invocation`: what the program is asked to do;
* `Level`: the levels, with `options` and `child?`;
* `Draft`: what has been read so far;
* `Request.ofArguments?`: reads arguments; it refuses whatever it does not know, what is given
  twice at one level, and what is missing.

An option is written `--name value`, `--name=value`, `-n value`, `-n=value` or `-nvalue`; a value
that stands alone must not begin with a hyphen.
-/

namespace ShortMessage.CommandLine

/-- What the program can do. -/
inductive Command
  | serve
  | segment (text : String)
  | send (destination text : String) (serviceCentre : Option String)
  | listCard
  | writeCard (pdu : String) (status : Int) (smsc : Option String)
  | updateCard (index : Nat) (status : Int) (pdu : String)
  | eraseCard (index : Nat)
deriving DecidableEq

/-- A command, and the settings it runs with. -/
structure Invocation where
  /-- The file that holds the settings. -/
  path : Option String
  command : Command
deriving DecidableEq

/-- What arguments ask for. -/
inductive Request
  | version
  | run (invocation : Invocation)
deriving DecidableEq

/-! ### Levels and options -/

/-- A place in the tree of commands. -/
inductive Level
  | root
  | serve
  | segment
  | send
  | card
  | listCard
  | writeCard
  | updateCard
  | eraseCard
deriving DecidableEq

/-- An option: its names, and the values that it takes. -/
structure CommandOption where
  name : String
  letter : Option Char
  fits : String → Bool

namespace CommandOption

/-- An option that takes any value. -/
def text (name : String) (letter : Option Char) : CommandOption :=
  ⟨name, letter, fun _ => true⟩

/-- An option that takes one of several words. -/
def oneOf (name : String) (letter : Option Char) (words : List String) : CommandOption :=
  ⟨name, letter, fun value => value ∈ words⟩

end CommandOption

/-- Numbers of slots. -/
def index? (text : String) : Option Nat :=
  Text.unsigned? 0xFFFFFFFFFFFFFFFF text

/-- Numbers of statuses, as they are typed. -/
def status? (text : String) : Option Int :=
  Text.signed? (-0x80000000) 0x7FFFFFFF text

namespace Level

/-- The options that hold at every level. -/
def everywhere : List CommandOption :=
  [.text "config" (some 'c'), .oneOf "log-level" (some 'l') LogSettings.levels,
    .oneOf "log-format" none LogSettings.formats]

/-- The number of a slot. -/
def index : CommandOption := ⟨"index", none, fun value => (index? value).isSome⟩

/-- The status to write. -/
def status : CommandOption := ⟨"status", none, fun value => (status? value).isSome⟩

/-- The record to write, in hexadecimal digits. -/
def pdu : CommandOption := .text "pdu-hex" none

/-- The options that may stand at a level. -/
def options (l : Level) : List CommandOption :=
  match l with
  | .root | .serve | .card | .listCard => everywhere
  | .segment => .text "text" (some 't') :: everywhere
  | .send => .text "to" none :: .text "text" (some 't') :: .text "sc" none :: everywhere
  | .writeCard => pdu :: status :: .text "smsc-hex" none :: everywhere
  | .updateCard => index :: status :: pdu :: everywhere
  | .eraseCard => index :: everywhere

/-- The level of a command, seen from the level it is typed at. -/
def child? (l : Level) (name : String) : Option Level :=
  match l, name with
  | .root, "serve" => some .serve
  | .root, "segment" => some .segment
  | .root, "send" => some .send
  | .root, "icc" => some .card
  | .card, "list" => some .listCard
  | .card, "write" => some .writeCard
  | .card, "update" => some .updateCard
  | .card, "erase" => some .eraseCard
  | _, _ => none

end Level

/-! ### Words -/

/-- A word of the command line. -/
inductive Word
  | named (name : String) (value : Option String)
  | lettered (letter : Char) (value : Option String)
  | plain (text : String)
deriving DecidableEq

/-- What follows the letter of an option; nothing, if the value is the next word. -/
def attached : List Char → Option String
  | [] => none
  | '=' :: value => some (.ofList value)
  | value => some (.ofList value)

/-- What a word of the command line is by its hyphens. -/
def Word.ofText (text : String) : Word :=
  match text.toList with
  | '-' :: '-' :: rest =>
    let name := rest.takeWhile (· ≠ '=')
    let value :=
      match rest.dropWhile (· ≠ '=') with
      | [] => none
      | _ :: value => some (String.ofList value)
    .named (.ofList name) value
  | '-' :: letter :: rest => .lettered letter (attached rest)
  | _ => .plain text

/-- May a word that stands alone be the value of an option? -/
def standsAsValue (text : String) : Bool :=
  text = "-" || !text.startsWith "-"

/-! ### Reading -/

/-- Options with the values they were given. -/
abbrev Given := List (String × String)

/-- What has been read so far. -/
structure Draft where
  level : Level
  /-- The options of this level. -/
  here : Given
  /-- The options of the levels above, the deepest first. -/
  above : Given

namespace Draft

/-- Nothing is read. -/
def start : Draft := ⟨.root, [], []⟩

/-- Goes down to a command of this level. -/
def enter? (d : Draft) (name : String) : Option Draft := do
  let level ← d.level.child? name
  pure ⟨level, [], d.here ++ d.above⟩

/-- Takes down a value; it must fit, and no option is given twice at one level. -/
def give? (d : Draft) (o : CommandOption) (value : String) : Option Draft :=
  if o.fits value ∧ (d.here.lookup o.name).isNone then
    some { d with here := d.here ++ [(o.name, value)] }
  else none

/-- The option that a word names. -/
def option? (d : Draft) : Word → Option CommandOption
  | .named name _ => d.level.options.find? (·.name = name)
  | .lettered letter _ => d.level.options.find? (·.letter = some letter)
  | .plain _ => none

/-- The version is asked for at the root only. -/
def asksVersion (d : Draft) : Word → Bool
  | .named name value => d.level = .root && name = "version" && value.isNone
  | .lettered letter _ => d.level = .root && letter = 'V'
  | .plain _ => false

/-- The value of an option that holds everywhere. -/
def value? (d : Draft) (name : String) : Option String :=
  (d.here ++ d.above).lookup name

/-- The value of an option of this level. -/
def own? (d : Draft) (name : String) : Option String :=
  d.here.lookup name

/-- The status if none is given: read. -/
def statusOrRead? (d : Draft) : Option Int :=
  match d.own? "status" with
  | none => some 1
  | some text => status? text

/-- The command that has been read, if nothing is missing. -/
def command? (d : Draft) : Option Command := do
  match d.level with
  | .root | .card => none
  | .serve => pure .serve
  | .segment => pure (.segment (← d.own? "text"))
  | .send => pure (.send (← d.own? "to") (← d.own? "text") (d.own? "sc"))
  | .listCard => pure .listCard
  | .writeCard =>
    pure (.writeCard (← d.own? "pdu-hex") (← d.statusOrRead?) (d.own? "smsc-hex"))
  | .updateCard =>
    pure (.updateCard (← index? (← d.own? "index")) (← d.statusOrRead?)
      ((d.own? "pdu-hex").getD ""))
  | .eraseCard => pure (.eraseCard (← index? (← d.own? "index")))

/-- The request, once all words are read. -/
def finish? (d : Draft) : Option Request := do
  pure (.run ⟨d.value? "config", ← d.command?⟩)

/-- Reads the words that are left.  Two hyphens end the options; nothing may follow them. -/
def read? (d : Draft) : List String → Option Request
  | [] => d.finish?
  | text :: rest =>
    if text = "--" then (if rest.isEmpty then d.finish? else none)
    else
      let word := Word.ofText text
      if d.asksVersion word then some .version
      else
        match word with
        | .plain name =>
          match d.enter? name with
          | some d => d.read? rest
          | none => none
        | .named _ (some value) | .lettered _ (some value) =>
          match d.option? word >>= (d.give? · value) with
          | some d => d.read? rest
          | none => none
        | .named _ none | .lettered _ none =>
          match rest with
          | value :: rest =>
            if standsAsValue value then
              match d.option? word >>= (d.give? · value) with
              | some d => d.read? rest
              | none => none
            else none
          | [] => none

end Draft

/-- **Reads the arguments.** -/
def Request.ofArguments? (arguments : List String) : Option Request :=
  Draft.start.read? arguments

end ShortMessage.CommandLine
