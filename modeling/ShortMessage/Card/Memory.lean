import ShortMessage.Card.Record

/-!
# A card in memory

The slots of a card as a list of records, lost with the process.

* `MemoryCard.new`: all slots free;
* `write`, `update`, `erase`, `readAll`: the operations, an error beside an unchanged card.
-/

namespace ShortMessage

/-- **A card in memory.** -/
structure MemoryCard where
  capacity : Nat
  recordSize : Nat
  /-- The slots in the order of their indices. -/
  slots : List CardRecord
deriving DecidableEq

namespace MemoryCard

/-- A card whose slots are all erased. -/
def new (capacity recordSize : Nat) : MemoryCard :=
  { capacity
    recordSize
    slots := (List.range capacity).map fun i => .erased (i + 1) recordSize }

/-- Puts a status and data into the slot of an index. -/
def put (c : MemoryCard) (index : Nat) (status : RecordStatus) (data : Octets) : MemoryCard :=
  { c with slots := c.slots.set (index - 1) ⟨index, status, data⟩ }

/-- **Writes** to the free slot of the lowest index, which is answered. -/
def write (c : MemoryCard) (record : Octets) (status : RecordStatus) :
    Except Failure Nat × MemoryCard :=
  match acceptWrite record status c.recordSize with
  | .error e => (.error e, c)
  | .ok data =>
    match c.slots.find? CardRecord.isFree with
    | none => (.error (.capacityExceeded c.capacity), c)
    | some slot => (.ok slot.index, c.put slot.index status data)

/-- **Updates** a slot whatever it holds. -/
def update (c : MemoryCard) (index : Nat) (status : RecordStatus) (record : Octets) :
    Except Failure Unit × MemoryCard :=
  match acceptUpdate index c.capacity status record c.recordSize with
  | .error e => (.error e, c)
  | .ok (status, data) => (.ok (), c.put index status data)

/-- **Erases** a slot; one that is free already stays so. -/
def erase (c : MemoryCard) (index : Nat) : Except Failure Unit × MemoryCard :=
  match checkIndex index c.capacity with
  | .error e => (.error e, c)
  | .ok () => (.ok (), c.put index .free (CardRecord.erasedData c.recordSize))

/-- The occupied slots in the order of their indices. -/
def readAll (c : MemoryCard) : Except Failure (List CardRecord) :=
  .ok (c.slots.filter (!·.isFree))

/-- How many slots are free. -/
def freeCount (c : MemoryCard) : Nat :=
  c.slots.countP CardRecord.isFree

end MemoryCard

end ShortMessage
