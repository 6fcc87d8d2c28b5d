import ShortMessage.Message
import ShortMessage.Registry
import ShortMessage.Timestamp

/-!
# The message archive

Messages that are kept beyond a send: drafts, imports, and what is sent from store.  A message has a
name, flags that may be unset, and perhaps a conversation that it belongs to.

* `StoredText`, `StoredMultimedia`, `ImportedText`, `ImportedMultimedia`, `Flags`: the nouns;
* `Archive`: an archive in memory, which names new messages by counting;
* `Archive.add`, `importText`, `importMultimedia`, `delete`, `deleteConversation`, `updateFlags`.
-/

namespace ShortMessage

/-- A text as it is kept: to whom, and what. -/
structure StoredText where
  destination : String
  body : String
deriving DecidableEq

/-- A multimedia message as it is kept. -/
structure StoredMultimedia where
  pdu : Octets
  locationUrl : Option String
deriving DecidableEq

/-- Whether a message came in or went out. -/
inductive Direction
  | incoming
  | outgoing
deriving DecidableEq

/-- A text that was sent or received elsewhere. -/
structure ImportedText where
  address : String
  direction : Direction
  body : String
  time : Timestamp
  seen : Bool
  read : Bool
deriving DecidableEq

/-- A multimedia message from elsewhere; it may bring a name and a time. -/
structure ImportedMultimedia where
  pdu : Octets
  name : Option String
  time : Option Timestamp
  seen : Bool
  read : Bool
deriving DecidableEq

/-- The flags of a message; in a change, what is unset stays. -/
structure Flags where
  seen : Option Bool
  read : Option Bool
  archived : Option Bool
deriving DecidableEq

namespace Flags

/-- Nothing is said about a message, or no change is asked for. -/
def unset : Flags := ⟨none, none, none⟩

/-- No flag is set, neither to true nor to false. -/
def isUnset (f : Flags) : Bool :=
  f.seen.isNone && f.read.isNone && f.archived.isNone

/-- The flags after a change. -/
def changedBy (f change : Flags) : Flags :=
  ⟨change.seen <|> f.seen, change.read <|> f.read, change.archived <|> f.archived⟩

end Flags

/-- What the archive keeps under a name. -/
inductive Archive.Message
  | text (text : StoredText)
  | multimedia (message : StoredMultimedia)
deriving DecidableEq

/-- **An archive.** -/
structure Archive where
  messages : Registry String Archive.Message
  conversations : Registry Int (List String)
  flags : Registry String Flags
  autoPersists : Bool
  /-- How many names have been given out. -/
  named : Nat

namespace Archive

/-- An archive with nothing in it, which has given out no name. -/
def empty : Archive := ⟨.empty, .empty, .empty, false, 0⟩

/-- Keeps a message under a name, in place of what had it. -/
def put (a : Archive) (name : String) (m : Message) : Archive :=
  { a with messages := a.messages.insert name m }

/-- The name of the `n`-th new message. -/
def nameOf (n : Nat) : String :=
  s!"msg-{n}"

/-- **Adds a message** under a new name. -/
def add (a : Archive) (m : Message) : String × Archive :=
  let name := nameOf (a.named + 1)
  (name, { a.put name m with named := a.named + 1 })

/-- The text of a name; a multimedia message is none. -/
def text? (a : Archive) (name : String) : Option StoredText :=
  match a.messages.get? name with
  | some (.text t) => some t
  | _ => none

/-- The multimedia message of a name; a text is none. -/
def multimedia? (a : Archive) (name : String) : Option StoredMultimedia :=
  match a.messages.get? name with
  | some (.multimedia m) => some m
  | _ => none

/-- Deletes a message and its flags; says whether there was one. -/
def delete (a : Archive) (name : String) : Bool × Archive :=
  (a.messages.contains name,
    { a with messages := a.messages.erase name, flags := a.flags.erase name })

/-- Deletes a conversation with its messages and their flags; says whether there was one. -/
def deleteConversation (a : Archive) (number : Int) : Bool × Archive :=
  match a.conversations.get? number with
  | none => (false, a)
  | some names =>
    (true,
      { a with
          conversations := a.conversations.erase number
          messages := a.messages.retain fun name _ => name ∉ names
          flags := a.flags.retain fun name _ => name ∉ names })

/-- Changes the flags of a message; says whether there is one. -/
def updateFlags (a : Archive) (name : String) (change : Flags) : Bool × Archive :=
  if a.messages.contains name then
    let old := (a.flags.get? name).getD .unset
    (true, { a with flags := a.flags.insert name (old.changedBy change) })
  else (false, a)

/-- Adds a text from elsewhere with its flags. -/
def importText (a : Archive) (m : ImportedText) : String × Archive :=
  let (name, a) := a.add (.text ⟨m.address, m.body⟩)
  (name, { a with flags := a.flags.insert name ⟨some m.seen, some m.read, none⟩ })

/-- A multimedia message that brings a name keeps it. -/
def importMultimedia (a : Archive) (m : ImportedMultimedia) : String × Archive :=
  let stored : Message := .multimedia ⟨m.pdu, none⟩
  match m.name with
  | some name => (name, a.put name stored)
  | none => a.add stored

/-- Sets whether what is sent and received is kept. -/
def setAutoPersisting (a : Archive) (enabled : Bool) : Archive :=
  { a with autoPersists := enabled }

end Archive

end ShortMessage
