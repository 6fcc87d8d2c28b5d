import ShortMessage.Card.Memory
import ShortMessage.Card.Place
import ShortMessage.Card.Table
import ShortMessage.Registry

/-!
# Cards

A card is kept in memory or in a table; new cards of either kind answer every operation in the same
way.

* `CardSettings`: which of the two, how many slots, how large, and where the table is;
* `Card`, with `write`, `update`, `erase`, `readAll`;
* `TableShelf`: the tables that outlive a card, and the directories they can be in;
* `Card.ofSettings`, `Card.save`: a card from the shelf, and back onto it.
-/

namespace ShortMessage

/-- Where the records of a card are kept. -/
inductive CardBackend
  | memory
  | sqlite
deriving DecidableEq

/-- The backend as it is named in settings. -/
def CardBackend.text : CardBackend → String
  | .memory => "memory"
  | .sqlite => "sqlite"

/-- What a card is opened with; only a table needs a URL. -/
structure CardSettings where
  backend : CardBackend
  capacity : Nat
  recordSize : Nat
  databaseUrl : Option String
deriving DecidableEq

/-- Thirty slots in memory, of the size that the standard gives a record. -/
def CardSettings.standard : CardSettings := ⟨.memory, 30, 175, none⟩

/-- The tables that outlive a card. -/
structure TableShelf where
  tables : Registry TablePlace SlotTable
  directories : List String

namespace TableShelf

/-- A shelf with these directories and no table yet. -/
def ofDirectories (directories : List String) : TableShelf :=
  ⟨.empty, directories⟩

/-- A table of one's own is always new; a file has to lie in a directory that there is. -/
def find? (s : TableShelf) : TablePlace → Option SlotTable
  | .own => some .empty
  | .named name => some ((s.tables.get? (.named name)).getD .empty)
  | .file path =>
    if TablePlace.directory path ∈ s.directories ∧ path ∉ s.directories then
      some ((s.tables.get? (.file path)).getD .empty)
    else none

end TableShelf

/-- **A card**, in memory or in a table. -/
inductive Card
  | memory (card : MemoryCard)
  | table (place : TablePlace) (session : CardSession)

namespace Card

/-- A session over the table that a URL names, if there can be one. -/
def openTable (url : String) (settings : CardSettings) (shelf : TableShelf) :
    Except Failure Card :=
  match TablePlace.ofUrl? url with
  | none => .error .database
  | some place =>
    match shelf.find? place with
    | none => .error .database
    | some kept =>
      .ok (.table place (.openTable kept settings.capacity settings.recordSize))

/-- **Opens a card.** -/
def ofSettings (settings : CardSettings) (shelf : TableShelf) : Except Failure Card :=
  match settings.backend, settings.databaseUrl with
  | .memory, _ => .ok (.memory (.new settings.capacity settings.recordSize))
  | .sqlite, none => .error (.configuration "sqlite 槽位存储缺少 database_url")
  | .sqlite, some url => openTable url settings shelf

/-- Puts the table of a card back onto the shelf. -/
def save (c : Card) (shelf : TableShelf) : TableShelf :=
  match c with
  | .memory _ => shelf
  | .table .own _ => shelf
  | .table place session => { shelf with tables := shelf.tables.insert place session.table }

/-- How many slots a card has. -/
def capacity : Card → Nat
  | .memory c => c.capacity
  | .table _ s => s.capacity

/-- How many octets a slot takes. -/
def recordSize : Card → Nat
  | .memory c => c.recordSize
  | .table _ s => s.recordSize

/-- **Writes** a record to the free slot of the lowest index, which is answered. -/
def write (c : Card) (record : Octets) (status : RecordStatus) : Except Failure Nat × Card :=
  match c with
  | .memory m => let (r, m) := m.write record status; (r, .memory m)
  | .table p s => let (r, s) := s.write record status; (r, .table p s)

/-- **Updates** a slot whatever it holds; with the status free it erases. -/
def update (c : Card) (index : Nat) (status : RecordStatus) (record : Octets) :
    Except Failure Unit × Card :=
  match c with
  | .memory m => let (r, m) := m.update index status record; (r, .memory m)
  | .table p s => let (r, s) := s.update index status record; (r, .table p s)

/-- **Erases** a slot, which is free then. -/
def erase (c : Card) (index : Nat) : Except Failure Unit × Card :=
  match c with
  | .memory m => let (r, m) := m.erase index; (r, .memory m)
  | .table p s => let (r, s) := s.erase index; (r, .table p s)

/-- **Reads** the occupied slots in the order of their indices. -/
def readAll : Card → Except Failure (List CardRecord)
  | .memory m => m.readAll
  | .table _ s => s.readAll

/-- Writes a batch, one record after the other: the indices taken, and how many writes failed. -/
def writeAll (c : Card) (status : RecordStatus) : List Octets → (List Nat × Nat) × Card
  | [] => (([], 0), c)
  | record :: rest =>
    let (r, c) := c.write record status
    let ((taken, failed), c) := writeAll c status rest
    match r with
    | .ok index => ((index :: taken, failed), c)
    | .error _ => ((taken, failed + 1), c)

end Card

end ShortMessage
