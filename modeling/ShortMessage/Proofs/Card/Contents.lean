import ShortMessage.Proofs.Card.Rows

/-!
# What a card holds

What a card holds follows from what happened to it: in a slot stands what was last put there by a
call that succeeded, and before that the erased octets with which it was created.

* `CardRecord.Filled`: a slot in order;
* `acceptWrite_eq_ok_iff`, `of_acceptUpdate`: what is accepted, and what it puts down;
* `Event`, `lastPut?`, `contents`: histories, and the slots that follow from one;
* `rows`, `after`, `history`: the slots of a card, the card after calls, and what happened then;
* `ask_cases`, `ask_of_failed`: what a call does, and that a call that fails changes nothing;
* `Serves`: a card whose slots are those of a map, and whose answers are read off it.
-/

namespace ShortMessage

/-! ### What is accepted -/

/-- **A slot in order**: full to its size, and erased if it is free. -/
structure CardRecord.Filled (size : Nat) (r : CardRecord) : Prop where
  length : r.data.length = size
  erased : r.isFree = true → r = .erased r.index size

theorem CardRecord.filled_erased (index size : Nat) : (erased index size).Filled size :=
  ⟨List.length_replicate, fun _ => rfl⟩

theorem length_fillUp {record : Octets} {size : Nat} (h : record.length ≤ size) :
    (fillUp record size).length = size := by
  simp only [fillUp, CardRecord.erasedData, List.length_append, List.length_replicate]
  omega

theorem checkOccupied_eq_ok_iff {status : RecordStatus} :
    checkOccupied status = .ok () ↔ status ≠ .free := by
  cases status <;> simp [checkOccupied, RecordStatus.isFree]

theorem checkRecord_eq_ok_iff {record : Octets} {size : Nat} :
    checkRecord record size = .ok () ↔ record ≠ [] ∧ record.length ≤ size := by
  unfold checkRecord
  split
  · next hempty => simp [List.isEmpty_iff.1 hempty]
  · next hempty =>
    have hne : record ≠ [] := fun h => hempty (List.isEmpty_iff.2 h)
    split
    · next hlong => simp [hne, hlong]
    · next hfits => simp [hne, Nat.not_lt.1 hfits]

theorem checkIndex_eq_ok_iff {index capacity : Nat} :
    checkIndex index capacity = .ok () ↔ 1 ≤ index ∧ index ≤ capacity := by
  unfold checkIndex
  split
  · exact ⟨fun h => (nomatch h), fun h => by omega⟩
  · exact ⟨fun _ => by omega, fun _ => rfl⟩

/-- **What a write accepts**, and what it puts down. -/
theorem acceptWrite_eq_ok_iff {record : Octets} {status : RecordStatus} {size : Nat}
    {data : Octets} :
    acceptWrite record status size = .ok data ↔
      (status ≠ .free ∧ record ≠ [] ∧ record.length ≤ size) ∧ data = fillUp record size := by
  rw [← checkRecord_eq_ok_iff, ← checkOccupied_eq_ok_iff]
  unfold acceptWrite
  cases checkOccupied status with
  | error e => exact ⟨fun h => (nomatch h), fun h => (nomatch h.1.1)⟩
  | ok =>
    cases checkRecord record size with
    | error e => exact ⟨fun h => (nomatch h), fun h => (nomatch h.1.2)⟩
    | ok => exact ⟨fun h => ⟨⟨rfl, rfl⟩, (Except.ok.inj h).symm⟩, fun h => h.2 ▸ rfl⟩

theorem filled_fillUp {record : Octets} {size : Nat} (h : record.length ≤ size)
    {status : RecordStatus} (hs : status ≠ .free) (index : Nat) :
    CardRecord.Filled size ⟨index, status, fillUp record size⟩ := by
  refine ⟨length_fillUp h, fun hfree => absurd ?_ hs⟩
  simpa [CardRecord.isFree, RecordStatus.isFree] using hfree

/-- **What an update accepts**; one to free does not look at its record. -/
theorem acceptUpdate_eq_ok_iff {index capacity size : Nat} {status : RecordStatus}
    {record : Octets} :
    (∃ put, acceptUpdate index capacity status record size = .ok put) ↔
      (1 ≤ index ∧ index ≤ capacity) ∧
        (status = .free ∨ (record ≠ [] ∧ record.length ≤ size)) := by
  have hfree : status.isFree = true ↔ status = .free := by simp [RecordStatus.isFree]
  rw [← checkIndex_eq_ok_iff, ← checkRecord_eq_ok_iff, ← hfree]
  unfold acceptUpdate
  cases checkIndex index capacity with
  | error e => exact ⟨fun ⟨_, h⟩ => (nomatch h), fun h => (nomatch h.1)⟩
  | ok =>
    cases status.isFree with
    | true => exact ⟨fun _ => ⟨rfl, Or.inl rfl⟩, fun _ => ⟨_, rfl⟩⟩
    | false =>
      cases checkRecord record size with
      | error e => exact ⟨fun ⟨_, h⟩ => (nomatch h), fun h => by simp at h⟩
      | ok => exact ⟨fun _ => ⟨rfl, Or.inr rfl⟩, fun _ => ⟨_, rfl⟩⟩

theorem of_acceptUpdate {index capacity size : Nat} {status : RecordStatus} {record : Octets}
    {put : RecordStatus × Octets}
    (h : acceptUpdate index capacity status record size = .ok put) :
    CardRecord.Filled size ⟨index, put.1, put.2⟩ ∧
      (⟨index, put.1, put.2⟩ : CardRecord) =
        if status.isFree then .erased index size else ⟨index, status, fillUp record size⟩ := by
  have hcheck := checkIndex_of_acceptUpdate h
  unfold acceptUpdate at h
  rw [hcheck] at h
  cases hfree : status.isFree with
  | true =>
    simp only [hfree] at h
    obtain rfl := Except.ok.inj h
    exact ⟨CardRecord.filled_erased index size, rfl⟩
  | false =>
    simp only [hfree] at h
    cases hrecord : checkRecord record size with
    | error e =>
      rw [hrecord] at h
      cases h
    | ok =>
      rw [hrecord] at h
      obtain rfl := Except.ok.inj h
      have hs : status ≠ .free := by
        rintro rfl
        cases hfree
      exact ⟨filled_fillUp (checkRecord_eq_ok_iff.1 hrecord).2 hs index, rfl⟩

namespace Card

/-! ### Histories -/

/-- What happens to a card: it is opened, or it is called and answers. -/
inductive Event
  | opened (capacity recordSize : Nat)
  | asked (recordSize : Nat) (call : Call) (answer : Answer)

/-- The slot of an index, if an opening creates it. -/
def Event.created? (i : Nat) : Event → Option CardRecord
  | .opened capacity recordSize =>
    if 1 ≤ i ∧ i ≤ capacity then some (.erased i recordSize) else none
  | .asked .. => none

/-- What a call that succeeded put down; an update to free erases. -/
def Event.put? : Event → Option CardRecord
  | .asked size (.write record status) (.taken (.ok index)) =>
    some ⟨index, status, fillUp record size⟩
  | .asked size (.update index status record) (.done (.ok ())) =>
    some (if status.isFree then .erased index size else ⟨index, status, fillUp record size⟩)
  | .asked size (.erase index) (.done (.ok ())) => some (.erased index size)
  | _ => none

/-- What was last put into the slot of an index. -/
def lastPut? (h : List Event) (i : Nat) : Option CardRecord :=
  (h.filterMap Event.put?).reverse.find? (·.index = i)

/-- **The contents** after a history: what was last put into a slot, or what it was created with. -/
def contents (h : List Event) (i : Nat) : Option CardRecord :=
  (lastPut? h i).or (h.findSome? (Event.created? i))

theorem contents_opened (h : List Event) (capacity recordSize i : Nat) :
    contents (h ++ [.opened capacity recordSize]) i =
      (contents h i).or
        (if 1 ≤ i ∧ i ≤ capacity then some (.erased i recordSize) else none) := by
  have hlast : lastPut? (h ++ [.opened capacity recordSize]) i = lastPut? h i := by
    unfold lastPut?
    rw [List.filterMap_append]
    show ((h.filterMap Event.put?) ++ []).reverse.find? _ = _
    rw [List.append_nil]
  unfold contents
  rw [hlast, List.findSome?_append, Option.or_assoc]
  congr 2
  simp only [List.findSome?_cons, List.findSome?_nil, Event.created?]
  split <;> simp_all

/-- **The last one counts**: a call that puts nothing down leaves the contents. -/
theorem contents_of_put?_eq_none {h : List Event} {size : Nat} {call : Call} {answer : Answer}
    (hput : Event.put? (.asked size call answer) = none) (i : Nat) :
    contents (h ++ [.asked size call answer]) i = contents h i := by
  unfold contents lastPut?
  rw [List.filterMap_append, List.findSome?_append]
  simp [hput, Event.created?]

theorem contents_of_put?_eq_some {h : List Event} {size : Nat} {call : Call} {answer : Answer}
    {r : CardRecord} (hput : Event.put? (.asked size call answer) = some r) (i : Nat) :
    contents (h ++ [.asked size call answer]) i = if r.index = i then some r else contents h i := by
  unfold contents lastPut?
  rw [List.filterMap_append, List.findSome?_append]
  simp only [List.filterMap_cons, hput, List.filterMap_nil, List.reverse_append,
    List.reverse_singleton, List.singleton_append, List.findSome?_cons, List.findSome?_nil,
    Event.created?, Option.or_none]
  by_cases hi : r.index = i
  · rw [List.find?_cons_of_pos (by simpa using hi), if_pos hi, Option.some_or]
  · rw [List.find?_cons_of_neg (by simpa using hi), if_neg hi]

/-! ### Calls one after the other -/

/-- The slots of a card, spelled as rows. -/
def rows : Card → List SlotTable.Row
  | .memory m => m.slots.map CardRecord.toRow
  | .table _ s => s.table.rows

/-- The row of an index. -/
def row? (c : Card) (i : Int) : Option SlotTable.Row :=
  c.rows.find? (·.index = i)

/-- How many slots are free. -/
def freeSlots : Card → Nat
  | .memory m => m.freeCount
  | .table _ s => s.table.rows.countP (·.status = 0)

/-- A card after calls. -/
def after (c : Card) (calls : List Call) : Card :=
  calls.foldl (fun c call => (c.ask call).2) c

/-- The calls of a card and its answers. -/
def asked (c : Card) (calls : List Call) : List Event :=
  List.zipWith (.asked c.recordSize) calls (c.answers calls)

/-- **What happens to a card** that is opened and then called. -/
def history (c : Card) (calls : List Call) : List Event :=
  .opened c.capacity c.recordSize :: c.asked calls

/-! ### What a call does -/

/-- A failed call of any kind. -/
def Answer.failed : Answer → Bool
  | .taken (.error _) | .done (.error _) | .records (.error _) => true
  | _ => false

/-- The first free slot within the capacity. -/
def lowestFree? : Card → Option SlotTable.Row
  | .memory m => (m.slots.find? CardRecord.isFree).map CardRecord.toRow
  | .table _ s => s.lowestFree?

/-- Puts a status and data into the slot of an index. -/
def put (c : Card) (index : Int) (status : RecordStatus) (data : Octets) : Card :=
  match c with
  | .memory m => .memory (m.put index.toNat status data)
  | .table place s => .table place (s.put index status data)

variable (c : Card)

/-- **What a write does**: it is refused, finds no slot, or takes the lowest free one. -/
theorem write_eq (record : Octets) (status : RecordStatus) :
    c.write record status =
      match acceptWrite record status c.recordSize with
      | .error e => (.error e, c)
      | .ok data =>
        match c.lowestFree? with
        | none => (.error (.capacityExceeded c.capacity), c)
        | some x => (.ok x.slot, c.put x.index status data) := by
  cases c with
  | memory m =>
    simp only [write, MemoryCard.write, recordSize, capacity, lowestFree?, put]
    cases acceptWrite record status m.recordSize with
    | error e => rfl
    | ok data =>
      cases m.slots.find? CardRecord.isFree with
      | none => rfl
      | some slot => simp only [Option.map_some, CardRecord.slot_toRow, CardRecord.index_toRow,
          Int.toNat_natCast]
  | table place s =>
    simp only [write, CardSession.write, recordSize, capacity, lowestFree?, put]
    cases acceptWrite record status s.recordSize with
    | error e => rfl
    | ok data => cases s.lowestFree? <;> rfl

theorem write_cases (record : Octets) (status : RecordStatus) :
    (∃ e, c.write record status = (.error e, c) ∧
      ((∀ data, acceptWrite record status c.recordSize ≠ .ok data) ∨ c.lowestFree? = none)) ∨
    ∃ x data, acceptWrite record status c.recordSize = .ok data ∧ c.lowestFree? = some x ∧
      c.write record status = (.ok x.slot, c.put x.index status data) := by
  rw [write_eq]
  cases acceptWrite record status c.recordSize with
  | error e => exact Or.inl ⟨e, rfl, Or.inl fun data h => (nomatch h)⟩
  | ok data =>
    cases c.lowestFree? with
    | none => exact Or.inl ⟨_, rfl, Or.inr rfl⟩
    | some x => exact Or.inr ⟨x, data, rfl, rfl, rfl⟩

theorem update_cases (index : Nat) (status : RecordStatus) (record : Octets) :
    (∃ e, acceptUpdate index c.capacity status record c.recordSize = .error e ∧
      c.update index status record = (.error e, c)) ∨
    ∃ p, acceptUpdate index c.capacity status record c.recordSize = .ok p ∧
      c.update index status record = (.ok (), c.put index p.1 p.2) := by
  cases c with
  | memory m =>
    simp only [update, MemoryCard.update, recordSize, capacity, put]
    cases acceptUpdate index m.capacity status record m.recordSize with
    | error e => exact Or.inl ⟨e, rfl, rfl⟩
    | ok p => exact Or.inr ⟨p, rfl, rfl⟩
  | table place s =>
    simp only [update, CardSession.update, recordSize, capacity, put]
    cases acceptUpdate index s.capacity status record s.recordSize with
    | error e => exact Or.inl ⟨e, rfl, rfl⟩
    | ok p => exact Or.inr ⟨p, rfl, rfl⟩

theorem erase_cases (index : Nat) :
    (∃ e, checkIndex index c.capacity = .error e ∧ c.erase index = (.error e, c)) ∨
    (checkIndex index c.capacity = .ok () ∧
      c.erase index = (.ok (), c.put index .free (CardRecord.erasedData c.recordSize))) := by
  cases c with
  | memory m =>
    simp only [erase, MemoryCard.erase, recordSize, capacity, put]
    cases checkIndex index m.capacity with
    | error e => exact Or.inl ⟨e, rfl, rfl⟩
    | ok => exact Or.inr ⟨rfl, rfl⟩
  | table place s =>
    simp only [erase, CardSession.erase, recordSize, capacity, put]
    cases checkIndex index s.capacity with
    | error e => exact Or.inl ⟨e, rfl, rfl⟩
    | ok => exact Or.inr ⟨rfl, rfl⟩

/-- **What a call does**: it changes nothing, or it succeeds and puts one slot down, in order, at
the lowest free index or at one within the capacity. -/
theorem ask_cases (call : Call) :
    ((c.ask call).2 = c ∧ Event.put? (.asked c.recordSize call (c.ask call).1) = none) ∨
    ∃ (i : Int) (r : CardRecord), (c.ask call).1.failed = false ∧
      Event.put? (.asked c.recordSize call (c.ask call).1) = some r ∧
      (c.ask call).2 = c.put i r.status r.data ∧ r.Filled c.recordSize ∧
      ((∃ x, c.lowestFree? = some x ∧ x.index = i ∧ x.slot = r.index) ∨
        (i = r.index ∧ 1 ≤ r.index ∧ r.index ≤ c.capacity)) := by
  cases call with
  | write record status =>
    rcases c.write_cases record status with ⟨e, h, -⟩ | ⟨x, data, haccept, hfree, h⟩
    · simp only [ask, h]
      exact Or.inl ⟨rfl, rfl⟩
    · obtain ⟨⟨hs, -, hlen⟩, rfl⟩ := acceptWrite_eq_ok_iff.1 haccept
      simp only [ask, h]
      exact Or.inr ⟨x.index, ⟨x.slot, status, _⟩, rfl, rfl, rfl, filled_fillUp hlen hs _,
        Or.inl ⟨x, hfree, rfl, rfl⟩⟩
  | update index status record =>
    rcases c.update_cases index status record with ⟨e, -, h⟩ | ⟨p, haccept, h⟩
    · simp only [ask, h]
      exact Or.inl ⟨rfl, rfl⟩
    · obtain ⟨hfilled, hput⟩ := of_acceptUpdate haccept
      have hindex := checkIndex_eq_ok_iff.1 (checkIndex_of_acceptUpdate haccept)
      simp only [ask, h]
      exact Or.inr ⟨index, ⟨index, p.1, p.2⟩, rfl, congrArg some hput.symm, rfl, hfilled,
        Or.inr ⟨rfl, hindex⟩⟩
  | erase index =>
    rcases c.erase_cases index with ⟨e, -, h⟩ | ⟨hcheck, h⟩
    · simp only [ask, h]
      exact Or.inl ⟨rfl, rfl⟩
    · simp only [ask, h]
      exact Or.inr ⟨index, .erased index c.recordSize, rfl, rfl, rfl, CardRecord.filled_erased _ _,
        Or.inr ⟨rfl, checkIndex_eq_ok_iff.1 hcheck⟩⟩
  | readAll => exact Or.inl ⟨rfl, rfl⟩

variable {c}

theorem update_eq_ok_iff (c : Card) (index : Nat) (status : RecordStatus) (record : Octets) :
    (c.update index status record).1 = .ok () ↔
      (1 ≤ index ∧ index ≤ c.capacity) ∧
        (status = .free ∨ (record ≠ [] ∧ record.length ≤ c.recordSize)) := by
  rw [← acceptUpdate_eq_ok_iff]
  rcases c.update_cases index status record with ⟨e, haccept, h⟩ | ⟨p, haccept, h⟩
  · rw [h, haccept]
    exact ⟨fun hok => (nomatch hok), fun ⟨_, hok⟩ => (nomatch hok)⟩
  · rw [h, haccept]
    exact ⟨fun _ => ⟨p, rfl⟩, fun _ => rfl⟩

theorem erase_eq_ok_iff (c : Card) (index : Nat) :
    (c.erase index).1 = .ok () ↔ 1 ≤ index ∧ index ≤ c.capacity := by
  rw [← checkIndex_eq_ok_iff]
  rcases c.erase_cases index with ⟨e, hcheck, h⟩ | ⟨hcheck, h⟩
  · rw [h, hcheck]
  · rw [h, hcheck]

/-- **A call that fails changes nothing.** -/
theorem ask_of_failed {call : Call} (h : (c.ask call).1.failed = true) : (c.ask call).2 = c := by
  rcases c.ask_cases call with ⟨hsame, -⟩ | ⟨i, r, hok, -⟩
  · exact hsame
  · rw [hok] at h
    cases h

@[simp] theorem capacity_ask (c : Card) (call : Call) :
    (c.ask call).2.capacity = c.capacity := by
  rcases c.ask_cases call with ⟨hsame, -⟩ | ⟨i, r, -, -, hput, -⟩
  · rw [hsame]
  · rw [hput]
    cases c <;> rfl

@[simp] theorem recordSize_ask (c : Card) (call : Call) :
    (c.ask call).2.recordSize = c.recordSize := by
  rcases c.ask_cases call with ⟨hsame, -⟩ | ⟨i, r, -, -, hput, -⟩
  · rw [hsame]
  · rw [hput]
    cases c <;> rfl

/-! ### Serving a map -/

/-- A slot of a map that is free and lies within a capacity. -/
def FreeAt (f : Nat → Option CardRecord) (capacity i : Nat) : Prop :=
  i ≤ capacity ∧ ∃ r, f i = some r ∧ r.isFree = true

/-- **A card serves a map** from indices to slots: its slots are those of the map, in their order,
and its answers are read off them. -/
structure Serves (c : Card) (f : Nat → Option CardRecord) : Prop where
  ordered : c.rows.Pairwise (·.index < ·.index)
  numbered : ∀ x ∈ c.rows, 0 ≤ x.index
  row : ∀ i : Nat, c.row? i = (f i).map CardRecord.toRow
  /-- What is read are the occupied slots within the capacity, in strictly ascending order. -/
  read : ∃ records, c.readAll = .ok records ∧ records.Pairwise (·.index < ·.index) ∧
    ∀ r, r ∈ records ↔ f r.index = some r ∧ ¬ r.isFree ∧ r.index ≤ c.capacity
  /-- A write asks for an occupied status, a record of a fitting length, and a free slot. -/
  writes : ∀ record status, (∃ i, (c.write record status).1 = .ok i) ↔
    (status ≠ .free ∧ record ≠ [] ∧ record.length ≤ c.recordSize) ∧ ∃ i, FreeAt f c.capacity i
  /-- A write that succeeds takes the lowest free slot. -/
  lowest : ∀ record status i, (c.write record status).1 = .ok i →
    FreeAt f c.capacity i ∧ ∀ j, FreeAt f c.capacity j → i ≤ j
  updates : ∀ index status record, (c.update index status record).1 = .ok () ↔
    (1 ≤ index ∧ index ≤ c.capacity) ∧
      (status = .free ∨ (record ≠ [] ∧ record.length ≤ c.recordSize))
  erases : ∀ index, (c.erase index).1 = .ok () ↔ 1 ≤ index ∧ index ≤ c.capacity
  failed : ∀ call, (c.ask call).1.failed = true → (c.ask call).2 = c

end Card

end ShortMessage
