import ShortMessage.Card.Record

/-!
# A card in a table

The slots of a card as rows of a table that outlives the process.  The table belongs to nobody: a
session opens it with a capacity and a record size of its own, adds the rows that are missing and
leaves the others as they are.  A row keeps its index and its status as signed 64-bit numbers, which
nothing stops others from changing.

* `SlotTable`: rows in the order of their indices;
* `CardSession`: a table opened with a capacity and a record size;
* `CardSession.write`, `update`, `erase`, `readAll`: the operations, within the capacity;
* `Row.slot`, `Row.record`: a row as a record; its index is read as an unsigned number, its status
  as one of 32 bits.
-/

namespace ShortMessage

/-- One row of the slot table.  Sessions count slots from one; others may have stored any index of 64
bits with a sign.  An index is an integer here, so that no capacity is too large for a table. -/
structure SlotTable.Row where
  index : Int
  status : Int64
  data : Octets
deriving DecidableEq

namespace SlotTable.Row

/-- The free row of an index. -/
def erased (index : Int) (size : Nat) : Row :=
  ⟨index, 0, CardRecord.erasedData size⟩

/-- **The slot of a row** has its index for a number; an index below zero is taken for the unsigned
number of the same 64 bits. -/
def slot (r : Row) : Nat :=
  if 0 ≤ r.index then r.index.toNat else (r.index + 0x10000000000000000).toNat

theorem coe_slot {r : Row} (h : 0 ≤ r.index) : (r.slot : Int) = r.index := by
  unfold slot
  rw [if_pos h, Int.toNat_of_nonneg h]

/-- **A row as a record**: of the stored status the low 32 bits count. -/
def record (r : Row) : Except Failure CardRecord :=
  match RecordStatus.ofCode? r.status.toInt32.toInt with
  | some status => .ok ⟨r.slot, status, r.data⟩
  | none => .error (.internal (.corruptSlot r.index r.status.toInt))

/-- Adds a row unless its index is taken. -/
def insertMissing (r : Row) : List Row → List Row
  | [] => [r]
  | x :: xs =>
    if r.index < x.index then r :: x :: xs
    else if r.index = x.index then x :: xs
    else x :: insertMissing r xs

theorem mem_insertMissing {r x : Row} {rows : List Row} (h : x ∈ insertMissing r rows) :
    x = r ∨ x ∈ rows := by
  induction rows with
  | nil => simpa [insertMissing] using h
  | cons y ys ih =>
    simp only [insertMissing] at h
    split at h
    · simpa using h
    · split at h
      · exact .inr h
      · rcases List.mem_cons.1 h with rfl | h
        · simp
        · rcases ih h with rfl | h
          · exact .inl rfl
          · exact .inr (List.mem_cons_of_mem _ h)

theorem pairwise_insertMissing (r : Row) {rows : List Row}
    (h : rows.Pairwise (·.index < ·.index)) :
    (insertMissing r rows).Pairwise (·.index < ·.index) := by
  induction rows with
  | nil => simp [insertMissing]
  | cons y ys ih =>
    have hy := List.pairwise_cons.1 h
    simp only [insertMissing]
    split
    · rename_i hlt
      refine List.pairwise_cons.2 ⟨?_, h⟩
      intro x hx
      rcases List.mem_cons.1 hx with rfl | hx
      · exact hlt
      · exact Int.lt_trans hlt (hy.1 x hx)
    · split
      · exact h
      · refine List.pairwise_cons.2 ⟨?_, ih hy.2⟩
        intro x hx
        rcases mem_insertMissing hx with rfl | hx
        · omega
        · exact hy.1 x hx

end SlotTable.Row

/-- **The slot table**: rows with distinct indices, in their order. -/
structure SlotTable where
  rows : List SlotTable.Row
  ordered : rows.Pairwise (·.index < ·.index)
deriving DecidableEq

namespace SlotTable

/-- A table with no row. -/
def empty : SlotTable := ⟨[], .nil⟩

/-- Adds a row unless its index is taken. -/
def addMissing (t : SlotTable) (r : Row) : SlotTable :=
  ⟨r.insertMissing t.rows, Row.pairwise_insertMissing r t.ordered⟩

/-- The table with rows for all indices up to a capacity. -/
def cover (t : SlotTable) (capacity recordSize : Nat) : SlotTable :=
  (List.range capacity).foldl (fun t (i : Nat) => t.addMissing (.erased (i + 1) recordSize)) t

/-- Changes the status and data of the row of an index, if there is one. -/
def set (t : SlotTable) (index : Int) (change : Row → Int64 × Octets) : SlotTable where
  rows := t.rows.map fun r =>
    if r.index = index then ⟨r.index, (change r).1, (change r).2⟩ else r
  ordered := by
    refine List.pairwise_map.2 (t.ordered.imp ?_)
    intro a b h
    split <;> split <;> exact h

/-- Stores a status number behind the back of every session; says how many rows changed. -/
def overwriteStatus (t : SlotTable) (index : Int) (status : Int64) : Nat × SlotTable :=
  (t.rows.countP (·.index = index), t.set index fun r => (status, r.data))

end SlotTable

/-- **A session**: a table opened with a capacity and a record size. -/
structure CardSession where
  table : SlotTable
  capacity : Nat
  recordSize : Nat
deriving DecidableEq

namespace CardSession

/-- Opens a table.  Rows are added where they are missing; those that are there stay as they are. -/
def openTable (table : SlotTable) (capacity recordSize : Nat) : CardSession :=
  ⟨table.cover capacity recordSize, capacity, recordSize⟩

/-- The row of the lowest free index within the capacity. -/
def lowestFree? (s : CardSession) : Option SlotTable.Row :=
  s.table.rows.find? fun r => r.status = 0 ∧ r.index ≤ s.capacity

/-- Puts a status and data into the row of an index. -/
def put (s : CardSession) (index : Int) (status : RecordStatus) (data : Octets) : CardSession :=
  { s with table := s.table.set index fun _ => (Int64.ofNat status.code, data) }

/-- **Writes** to the free row of the lowest index; its slot is answered. -/
def write (s : CardSession) (record : Octets) (status : RecordStatus) :
    Except Failure Nat × CardSession :=
  match acceptWrite record status s.recordSize with
  | .error e => (.error e, s)
  | .ok data =>
    match s.lowestFree? with
    | none => (.error (.capacityExceeded s.capacity), s)
    | some row => (.ok row.slot, s.put row.index status data)

/-- **Updates** a row whatever it holds. -/
def update (s : CardSession) (index : Nat) (status : RecordStatus) (record : Octets) :
    Except Failure Unit × CardSession :=
  match acceptUpdate index s.capacity status record s.recordSize with
  | .error e => (.error e, s)
  | .ok (status, data) => (.ok (), s.put index status data)

/-- **Erases** the row of an index, which is free then. -/
def erase (s : CardSession) (index : Nat) : Except Failure Unit × CardSession :=
  match checkIndex index s.capacity with
  | .error e => (.error e, s)
  | .ok () => (.ok (), s.put index .free (CardRecord.erasedData s.recordSize))

/-- The rows within the capacity whose stored status is not zero. -/
def occupiedRows (s : CardSession) : List SlotTable.Row :=
  s.table.rows.filter fun r => r.status ≠ 0 ∧ r.index ≤ s.capacity

/-- **Reads** the occupied rows in the order of their indices; the first corrupt one fails. -/
def readAll (s : CardSession) : Except Failure (List CardRecord) :=
  s.occupiedRows.mapM SlotTable.Row.record

end CardSession

end ShortMessage
