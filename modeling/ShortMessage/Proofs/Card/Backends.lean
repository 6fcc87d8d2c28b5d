import ShortMessage.Card

/-!
# Two backends, one card

A new card in memory and a session that opens an empty table cannot be told apart by calls: each
call is answered alike, whatever was called before and whether it succeeded.  The table mirrors the
slots: it has one row for each of them, in their order, which spells the status as its number.

* `CardRecord.toRow`: the row that spells a slot;
* `rows_cover_empty`: an empty table is covered by erased rows, in the order of their indices;
* `Mirrors`: a session whose rows spell the slots of a card in memory;
* `mirrors_new`, `Mirrors.write`, `Mirrors.update`, `Mirrors.erase`, `Mirrors.readAll`: the two
  start so, every operation keeps it, and its answers are the same;
* `Card.Call`, `Card.ask`, `Card.answers`: calls of a card and what is answered to them;
* `Card.answers_table`: a card in a new table answers like a new card in memory.
-/

namespace ShortMessage

/-! ### Slots and rows -/

theorem RecordStatus.ofCode?_code (status : RecordStatus) :
    ofCode? status.code = some status := by
  cases status <;> rfl

theorem RecordStatus.toInt_code (status : RecordStatus) :
    (Int64.ofNat status.code).toInt32.toInt = status.code := by
  cases status <;> decide

theorem RecordStatus.code_eq_zero_iff (status : RecordStatus) :
    Int64.ofNat status.code = 0 ↔ status.isFree := by
  cases status <;> decide

/-- The row that spells a slot. -/
def CardRecord.toRow (r : CardRecord) : SlotTable.Row :=
  ⟨r.index, Int64.ofNat r.status.code, r.data⟩

@[simp]
theorem CardRecord.index_toRow (r : CardRecord) : r.toRow.index = r.index := rfl

@[simp]
theorem CardRecord.slot_toRow (r : CardRecord) : r.toRow.slot = r.index :=
  Int.ofNat_inj.1 (SlotTable.Row.coe_slot (Int.natCast_nonneg r.index))

theorem CardRecord.record_toRow (r : CardRecord) : r.toRow.record = .ok r := by
  simp only [SlotTable.Row.record, slot_toRow]
  simp only [toRow, RecordStatus.toInt_code, RecordStatus.ofCode?_code]

@[simp]
theorem CardRecord.status_toRow_eq_zero_iff (r : CardRecord) :
    r.toRow.status = 0 ↔ r.isFree :=
  r.status.code_eq_zero_iff

theorem mapM_record_toRow (records : List CardRecord) :
    (records.map CardRecord.toRow).mapM SlotTable.Row.record = .ok records := by
  induction records with
  | nil => rfl
  | cons r records ih =>
    rw [List.map_cons, List.mapM_cons, CardRecord.record_toRow, ih]
    rfl

/-! ### The rows of a new table -/

namespace SlotTable

theorem Row.insertMissing_of_lt {r : Row} {rows : List Row} (h : ∀ x ∈ rows, x.index < r.index) :
    insertMissing r rows = rows ++ [r] := by
  induction rows with
  | nil => rfl
  | cons x rows ih =>
    have hx : x.index < r.index := h x List.mem_cons_self
    rw [insertMissing, if_neg (by omega), if_neg (by omega),
      ih fun y hy => h y (List.mem_cons_of_mem x hy), List.cons_append]

theorem cover_succ (t : SlotTable) (capacity recordSize : Nat) :
    t.cover (capacity + 1) recordSize =
      (t.cover capacity recordSize).addMissing (.erased (capacity + 1) recordSize) := by
  simp only [cover, List.range_succ, List.foldl_append, List.foldl_cons, List.foldl_nil]

/-- **An empty table is covered in order**: each new row goes behind the ones before. -/
theorem rows_cover_empty (capacity recordSize : Nat) :
    (empty.cover capacity recordSize).rows =
      (List.range capacity).map fun (i : Nat) => .erased (i + 1) recordSize := by
  induction capacity with
  | zero => rfl
  | succ capacity ih =>
    have hlast : ∀ x ∈ (empty.cover capacity recordSize).rows, x.index < capacity + 1 := by
      intro x hx
      rw [ih] at hx
      obtain ⟨i, hi, rfl⟩ := List.mem_map.1 hx
      exact Int.add_lt_add_right (Int.ofNat_lt.2 (List.mem_range.1 hi)) 1
    rw [cover_succ]
    show Row.insertMissing _ _ = _
    rw [Row.insertMissing_of_lt hlast, ih, List.range_succ, List.map_append]
    rfl

end SlotTable

/-! ### What is asked first -/

theorem index_pos_of_checkIndex {index capacity : Nat} (h : checkIndex index capacity = .ok ()) :
    0 < index := by
  simp only [checkIndex] at h
  split at h
  · cases h
  · omega

theorem checkIndex_of_acceptUpdate {index capacity size : Nat} {status : RecordStatus}
    {record : Octets} {put : RecordStatus × Octets}
    (h : acceptUpdate index capacity status record size = .ok put) :
    checkIndex index capacity = .ok () := by
  cases hc : checkIndex index capacity with
  | ok => rfl
  | error e =>
    rw [acceptUpdate, hc] at h
    cases h

/-! ### A session that mirrors a card in memory -/

/-- **A session mirrors a card in memory**: its rows spell the slots, which are numbered from one
on. -/
structure Mirrors (m : MemoryCard) (s : CardSession) : Prop where
  capacity : s.capacity = m.capacity
  recordSize : s.recordSize = m.recordSize
  rows : s.table.rows = m.slots.map CardRecord.toRow
  length : m.slots.length = m.capacity
  numbered : ∀ (i : Nat) (hi : i < m.slots.length), m.slots[i].index = i + 1

theorem mirrors_new (capacity recordSize : Nat) :
    Mirrors (.new capacity recordSize) (.openTable .empty capacity recordSize) where
  capacity := rfl
  recordSize := rfl
  rows := by
    simp only [CardSession.openTable, SlotTable.rows_cover_empty, MemoryCard.new, List.map_map]
    rfl
  length := by simp only [MemoryCard.new, List.length_map, List.length_range]
  numbered := by
    intro i hi
    simp only [MemoryCard.new, List.getElem_map, List.getElem_range, CardRecord.erased]

namespace Mirrors

variable {m : MemoryCard} {s : CardSession}

theorem index_mem (h : Mirrors m s) {slot : CardRecord} (hslot : slot ∈ m.slots) :
    0 < slot.index ∧ slot.index ≤ m.capacity := by
  obtain ⟨i, hi, rfl⟩ := List.mem_iff_getElem.1 hslot
  have hnumber := h.numbered i hi
  have hlength := h.length
  omega

theorem put (h : Mirrors m s) {index : Nat} (hindex : 0 < index) (status : RecordStatus)
    (data : Octets) : Mirrors (m.put index status data) (s.put index status data) where
  capacity := h.capacity
  recordSize := h.recordSize
  rows := by
    simp only [CardSession.put, SlotTable.set, MemoryCard.put, h.rows]
    refine List.ext_getElem (by simp only [List.length_map, List.length_set]) ?_
    intro i hi _
    have hslot : i < m.slots.length := by simpa only [List.length_map] using hi
    have hnumber := h.numbered i hslot
    simp only [List.getElem_map, List.getElem_set, CardRecord.toRow, hnumber]
    by_cases hat : index - 1 = i
    · have hat' : i + 1 = index := by omega
      rw [if_pos hat, hat', if_pos rfl]
    · have hat' : ¬ ((i + 1 : Nat) : Int) = index := by omega
      rw [if_neg hat, if_neg hat', hnumber]
  length := by simpa only [MemoryCard.put, List.length_set] using h.length
  numbered := by
    intro i hi
    have hslot : i < m.slots.length := by simpa only [MemoryCard.put, List.length_set] using hi
    simp only [MemoryCard.put, List.getElem_set]
    split
    · next hat => show index = i + 1; omega
    · exact h.numbered i hslot

/-- No slot lies beyond the capacity: of what a session asks of a row the status remains. -/
theorem filter_rows (h : Mirrors m s) {test : SlotTable.Row → Bool} {p : CardRecord → Bool}
    (htest : ∀ slot : CardRecord, slot.index ≤ s.capacity → test slot.toRow = p slot) :
    s.table.rows.filter test = (m.slots.filter p).map CardRecord.toRow := by
  rw [h.rows, List.filter_map]
  congr 1
  refine List.filter_congr ?_
  intro slot hslot
  have hindex := (h.index_mem hslot).2
  exact htest slot (h.capacity ▸ hindex)

/-- **The lowest free row is the first free slot.** -/
theorem lowestFree?_eq (h : Mirrors m s) :
    s.lowestFree? = (m.slots.find? CardRecord.isFree).map CardRecord.toRow := by
  rw [CardSession.lowestFree?, ← List.head?_filter, ← List.head?_filter, ← List.head?_map]
  congr 1
  refine h.filter_rows ?_
  intro slot hslot
  simp [hslot]

theorem occupiedRows_eq (h : Mirrors m s) :
    s.occupiedRows = (m.slots.filter (!·.isFree)).map CardRecord.toRow := by
  refine h.filter_rows ?_
  intro slot hslot
  simp [hslot]

theorem write (h : Mirrors m s) (record : Octets) (status : RecordStatus) :
    (s.write record status).1 = (m.write record status).1 ∧
      Mirrors (m.write record status).2 (s.write record status).2 := by
  simp only [CardSession.write, MemoryCard.write, h.recordSize, h.capacity, h.lowestFree?_eq]
  cases acceptWrite record status m.recordSize with
  | error e => exact ⟨rfl, h⟩
  | ok data =>
    cases hfree : m.slots.find? CardRecord.isFree with
    | none => exact ⟨rfl, h⟩
    | some slot =>
      have hslot := h.index_mem (List.mem_of_find?_eq_some hfree)
      exact ⟨rfl, h.put hslot.1 status data⟩

theorem update (h : Mirrors m s) (index : Nat) (status : RecordStatus) (record : Octets) :
    (s.update index status record).1 = (m.update index status record).1 ∧
      Mirrors (m.update index status record).2 (s.update index status record).2 := by
  simp only [CardSession.update, MemoryCard.update, h.recordSize, h.capacity]
  cases haccept : acceptUpdate index m.capacity status record m.recordSize with
  | error e => exact ⟨rfl, h⟩
  | ok put =>
    have hindex := index_pos_of_checkIndex (checkIndex_of_acceptUpdate haccept)
    exact ⟨rfl, h.put hindex put.1 put.2⟩

theorem erase (h : Mirrors m s) (index : Nat) :
    (s.erase index).1 = (m.erase index).1 ∧ Mirrors (m.erase index).2 (s.erase index).2 := by
  simp only [CardSession.erase, MemoryCard.erase, h.recordSize, h.capacity]
  cases hcheck : checkIndex index m.capacity with
  | error e => exact ⟨rfl, h⟩
  | ok => exact ⟨rfl, h.put (index_pos_of_checkIndex hcheck) .free _⟩

theorem readAll (h : Mirrors m s) : s.readAll = m.readAll := by
  rw [CardSession.readAll, h.occupiedRows_eq, mapM_record_toRow, MemoryCard.readAll]

end Mirrors

/-! ### Calls of a card -/

namespace Card

/-- What a card can be asked. -/
inductive Call
  | write (record : Octets) (status : RecordStatus)
  | update (index : Nat) (status : RecordStatus) (record : Octets)
  | erase (index : Nat)
  | readAll
deriving DecidableEq

/-- What a call is answered: an index that was taken, nothing, or the records. -/
inductive Answer
  | taken (index : Except Failure Nat)
  | done (outcome : Except Failure Unit)
  | records (records : Except Failure (List CardRecord))

/-- **Calls a card once.** -/
def ask (c : Card) : Call → Answer × Card
  | .write record status => (c.write record status).map .taken id
  | .update index status record => (c.update index status record).map .done id
  | .erase index => (c.erase index).map .done id
  | .readAll => (.records c.readAll, c)

/-- What is answered to calls one after the other. -/
def answers (c : Card) : List Call → List Answer
  | [] => []
  | call :: calls => (c.ask call).1 :: (c.ask call).2.answers calls

/-- A card in memory and one in a table that mirrors it. -/
inductive Alike : Card → Card → Prop
  | intro {m : MemoryCard} {s : CardSession} (place : TablePlace) (h : Mirrors m s) :
    Alike (.memory m) (.table place s)

/-- **One call does not tell them apart**, and they stay alike. -/
theorem Alike.ask {c d : Card} (h : Alike c d) (call : Call) :
    (d.ask call).1 = (c.ask call).1 ∧ Alike (c.ask call).2 (d.ask call).2 := by
  obtain ⟨place, h⟩ := h
  cases call with
  | write record status =>
    obtain ⟨hanswer, hcards⟩ := h.write record status
    exact ⟨congrArg Answer.taken hanswer, .intro place hcards⟩
  | update index status record =>
    obtain ⟨hanswer, hcards⟩ := h.update index status record
    exact ⟨congrArg Answer.done hanswer, .intro place hcards⟩
  | erase index =>
    obtain ⟨hanswer, hcards⟩ := h.erase index
    exact ⟨congrArg Answer.done hanswer, .intro place hcards⟩
  | readAll => exact ⟨congrArg Answer.records h.readAll, .intro place h⟩

theorem Alike.answers {c d : Card} (h : Alike c d) (calls : List Call) :
    d.answers calls = c.answers calls := by
  induction calls generalizing c d with
  | nil => rfl
  | cons call calls ih =>
    obtain ⟨hanswer, hcards⟩ := h.ask call
    rw [Card.answers, Card.answers, hanswer, ih hcards]

/-- **A card in a new table answers like a new card in memory**, to any calls. -/
theorem answers_table (place : TablePlace) (capacity recordSize : Nat) (calls : List Call) :
    (table place (.openTable .empty capacity recordSize)).answers calls =
      (memory (.new capacity recordSize)).answers calls :=
  (Alike.intro place (mirrors_new capacity recordSize)).answers calls

-- A write looks at its status before its record, an update at its index before both.
example :
    (memory (.new 2 3)).answers
        [.write [] .free, .update 3 .read [], .write [7] .unread, .update 2 .sent [8, 9],
          .write [5] .read, .update 1 .free [], .readAll] =
      [.taken (.error (.invalidArgument .freeRecord)), .done (.error (.notFound 3)),
        .taken (.ok 1), .done (.ok ()), .taken (.error (.capacityExceeded 2)), .done (.ok ()),
        .records (.ok [⟨2, .sent, [8, 9, 255]⟩])] := rfl

end Card

end ShortMessage
