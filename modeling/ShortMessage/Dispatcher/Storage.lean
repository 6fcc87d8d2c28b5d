import ShortMessage.Dispatcher.Send

/-!
# The card and the archive behind a dispatcher

The dispatcher checks what it is given and passes it on.

* `Dispatcher.copyToCard`, `updateOnCard`, `deleteFromCard`, `cardRecords`: the card; a caller's bad
  input is a failure, anything else that goes wrong there is the answer "no";
* `Dispatcher.addTextDraft`, …, `setAutoPersisting`: the archive.
-/

namespace ShortMessage

namespace Dispatcher

variable {σ : Type}

/-! ### The card -/

/-- Stands for a service centre's address where there is none. -/
def noServiceCentre : UInt8 := 0x00

/-- A record on the card: the service centre's address and the PDU. -/
def cardRecord (serviceCentre : Option Octets) (pdu : Octets) : Octets :=
  match serviceCentre with
  | some (a :: address) => a :: address ++ pdu
  | _ => noServiceCentre :: pdu

/-- What a card's answer is to the caller of a dispatcher. -/
def cardAnswer {α : Type} : Except Failure α → Except Failure Bool
  | .ok _ => .ok true
  | .error (.invalidArgument cause) => .error (.invalidArgument cause)
  | .error _ => .ok false

/-- What copying to the card asks. -/
def checkCopy (pdu : Octets) (status : Int) : Except Failure RecordStatus :=
  if pdu.isEmpty then .error (.invalidArgument .noPdu)
  else do
    let status ← RecordStatus.ofCode status
    if status.isFree then .error (.invalidArgument .freeOnCard) else pure status

/-- **Copies a message to the card.** -/
def copyToCard (d : Dispatcher σ) (serviceCentre : Option Octets) (pdu : Octets) (status : Int) :
    Except Failure Bool × Dispatcher σ :=
  match checkCopy pdu status with
  | .error e => (.error e, d)
  | .ok status =>
    let (answer, card) := d.card.write (cardRecord serviceCentre pdu) status
    (cardAnswer answer, { d with card })

/-- **Deletes a message from the card.** -/
def deleteFromCard (d : Dispatcher σ) (index : Nat) : Except Failure Bool × Dispatcher σ :=
  let (answer, card) := d.card.erase index
  (cardAnswer answer, { d with card })

/-- **Updates a message on the card**; with the status free it deletes it. -/
def updateOnCard (d : Dispatcher σ) (index : Nat) (status : Int) (pdu : Octets) :
    Except Failure Bool × Dispatcher σ :=
  match RecordStatus.ofCode status with
  | .error e => (.error e, d)
  | .ok status =>
    if status.isFree then d.deleteFromCard index
    else if pdu.isEmpty then (.error (.invalidArgument .noPdu), d)
    else
      let (answer, card) := d.card.update index status pdu
      (cardAnswer answer, { d with card })

/-- The messages on the card. -/
def cardRecords (d : Dispatcher σ) : Except Failure (List CardRecord) :=
  d.card.readAll

/-! ### The archive -/

/-- Applies an operation to the archive after a check, if there is an archive. -/
def onArchive {α : Type} (d : Dispatcher σ) (check : Except Failure Unit)
    (op : Archive → α × Archive) : Except Failure α × Dispatcher σ :=
  match check, d.archive with
  | .error e, _ => (.error e, d)
  | .ok (), none => (.error (.unavailable .archive), d)
  | .ok (), some a =>
    let (answer, a) := op a
    (.ok answer, { d with archive := some a })

/-- An archive has to give every message a name. -/
def checkNamed : Except Failure String → Except Failure String
  | .ok name => if name.toList.isEmpty then .error (.internal .unnamedMessage) else .ok name
  | .error e => .error e

/-- Keeps a message.  The name is looked at only after it is kept. -/
def addNamed (d : Dispatcher σ) (check : Except Failure Unit) (op : Archive → String × Archive) :
    Except Failure String × Dispatcher σ :=
  let (answer, d) := d.onArchive check op
  (checkNamed answer, d)

/-- Refuses a bad argument. -/
def refuseIf (bad : Bool) (cause : BadArgument) : Except Failure Unit :=
  if bad then .error (.invalidArgument cause) else .ok ()

/-- **Keeps a text draft.** -/
def addTextDraft (d : Dispatcher σ) (destination body : String) :
    Except Failure String × Dispatcher σ :=
  d.addNamed (.ok ()) (·.add (.text ⟨destination, body⟩))

/-- **Keeps a multimedia draft.** -/
def addMultimediaDraft (d : Dispatcher σ) (pdu : Octets) :
    Except Failure String × Dispatcher σ :=
  d.addNamed (refuseIf pdu.isEmpty .noMultimediaPdu) (·.add (.multimedia ⟨pdu, none⟩))

/-- **Imports a text.** -/
def importText (d : Dispatcher σ) (m : ImportedText) : Except Failure String × Dispatcher σ :=
  d.addNamed (refuseIf m.address.toList.isEmpty .noImportAddress) (·.importText m)

/-- **Imports a multimedia message.** -/
def importMultimedia (d : Dispatcher σ) (m : ImportedMultimedia) :
    Except Failure String × Dispatcher σ :=
  d.addNamed (refuseIf m.pdu.isEmpty .noMultimediaPdu) (·.importMultimedia m)

/-- **Deletes a message**; says whether there was one. -/
def deleteStored (d : Dispatcher σ) (name : String) : Except Failure Bool × Dispatcher σ :=
  d.onArchive (refuseIf name.toList.isEmpty .noMessageName) (·.delete name)

/-- **Deletes a conversation**; says whether there was one. -/
def deleteConversation (d : Dispatcher σ) (number : Int) : Except Failure Bool × Dispatcher σ :=
  d.onArchive (.ok ()) (·.deleteConversation number)

/-- What a change of flags asks. -/
def checkFlagChange (name : String) (change : Flags) : Except Failure Unit := do
  refuseIf name.toList.isEmpty .noMessageName
  refuseIf change.isUnset .noFlagChange

/-- **Changes the flags of a message**; says whether there is one. -/
def updateFlags (d : Dispatcher σ) (name : String) (change : Flags) :
    Except Failure Bool × Dispatcher σ :=
  d.onArchive (checkFlagChange name change) (·.updateFlags name change)

/-- **Sets whether the archive keeps what is sent and received by itself.** -/
def setAutoPersisting (d : Dispatcher σ) (enabled : Bool) : Except Failure Unit × Dispatcher σ :=
  d.onArchive (.ok ()) fun a => ((), a.setAutoPersisting enabled)

/-- Whether the archive keeps what is sent and received, if there is an archive. -/
def autoPersists (d : Dispatcher σ) : Except Failure Bool :=
  match d.archive with
  | none => .error (.unavailable .archive)
  | some a => .ok a.autoPersists

end Dispatcher

end ShortMessage
