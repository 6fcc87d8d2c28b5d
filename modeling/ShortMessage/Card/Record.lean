import ShortMessage.Failure
import ShortMessage.Octets

/-!
# Records on a card

A card keeps messages in numbered slots of one size.  A free slot is filled with the erased octet.

* `RecordStatus`: free, or what kind of message a slot holds, with its number on the card;
* `CardRecord`: a slot as it is read;
* `pad`: a record filled up to the size of a slot;
* `checkRecord`, `checkOccupied`, `checkIndex`: what every write asks first.
-/

namespace ShortMessage

/-- What a slot holds: nothing, or a message of one of four kinds. -/
inductive RecordStatus
  | free
  | read
  | unread
  | sent
  | unsent
deriving DecidableEq

namespace RecordStatus

/-- The number of a status on the card. -/
def code : RecordStatus → Nat
  | .free => 0
  | .read => 1
  | .unread => 3
  | .sent => 5
  | .unsent => 7

/-- The status of a number; most numbers have none. -/
def ofCode? (code : Int) : Option RecordStatus :=
  match code with
  | 0 => some .free
  | 1 => some .read
  | 3 => some .unread
  | 5 => some .sent
  | 7 => some .unsent
  | _ => none

/-- The status of a number that a caller gave. -/
def ofCode (code : Int) : Except Failure RecordStatus :=
  match ofCode? code with
  | some status => .ok status
  | none => .error (.invalidArgument (.unknownStatus code))

/-- The one status of slots that may be written to. -/
def isFree (s : RecordStatus) : Bool :=
  s = .free

/-- The status as it is shown. -/
def text : RecordStatus → String
  | .free => "free"
  | .read => "read"
  | .unread => "unread"
  | .sent => "sent"
  | .unsent => "unsent"

end RecordStatus

/-- A slot and what it holds; slots are numbered from one. -/
structure CardRecord where
  index : Nat
  status : RecordStatus
  data : Octets
deriving DecidableEq

namespace CardRecord

/-- What an erased slot is filled with. -/
def erasedOctet : UInt8 := 0xFF

/-- The data of an erased slot. -/
def erasedData (size : Nat) : Octets :=
  List.replicate size erasedOctet

/-- An erased slot. -/
def erased (index size : Nat) : CardRecord :=
  ⟨index, .free, erasedData size⟩

/-- A slot is free by its status, whatever its data. -/
def isFree (r : CardRecord) : Bool :=
  r.status.isFree

end CardRecord

/-- A record filled up to the size of a slot. -/
def fillUp (record : Octets) (size : Nat) : Octets :=
  record ++ CardRecord.erasedData (size - record.length)

/-- **Padding** fails if the record is longer than the slot. -/
def pad (record : Octets) (size : Nat) : Except Failure Octets :=
  if size < record.length then .error (.invalidArgument (.recordTooLong record.length size))
  else .ok (fillUp record size)

/-- A record is not empty and fits into a slot. -/
def checkRecord (record : Octets) (size : Nat) : Except Failure Unit :=
  if record.isEmpty then .error (.invalidArgument .noRecord)
  else if size < record.length then .error (.invalidArgument (.recordTooLong record.length size))
  else .ok ()

/-- A message cannot be written with the status of a free slot. -/
def checkOccupied (status : RecordStatus) : Except Failure Unit :=
  if status.isFree then .error (.invalidArgument .freeRecord) else .ok ()

/-- The slots of a card are numbered from one to its capacity. -/
def checkIndex (index capacity : Nat) : Except Failure Unit :=
  if index = 0 ∨ capacity < index then .error (.notFound index) else .ok ()

/-- What a write asks of its record and status, and what it then puts down. -/
def acceptWrite (record : Octets) (status : RecordStatus) (size : Nat) : Except Failure Octets := do
  checkOccupied status
  checkRecord record size
  pure (fillUp record size)

/-- What an update asks, and the status and data that it puts down; an update to free erases. -/
def acceptUpdate (index capacity : Nat) (status : RecordStatus) (record : Octets) (size : Nat) :
    Except Failure (RecordStatus × Octets) := do
  checkIndex index capacity
  if status.isFree then pure (.free, CardRecord.erasedData size)
  else do
    checkRecord record size
    pure (status, fillUp record size)

end ShortMessage
