import Mathlib.Order.Bounds.Defs
import ShortMessage.Proofs.Card.Fresh
import ShortMessage.Proofs.Registry

/-!
# The slots of any card

What a write does is told by the slots of a card and by nothing else, whichever backend keeps them
and whatever was called before.  A card in memory puts a record down by the place of its slot, so
its slots have to be numbered by their places; the rows of a table carry their numbers themselves,
which only must not lie below zero, as no session makes them.

* `Card.Numbered`: the slots of a card have the numbers that sessions give them;
  `numbered_after_ofSettings`: those of a card that was opened do, after any calls;
* `TableShelf.Numbered.save`: and it leaves tables to others that are so numbered;
* `Card.Mirrored`: a session with the slots of a card;
* `Card.freeIndices`: the free slots within the capacity, in ascending order;
* `Card.Replaces`, `replaces_put`: one slot is put down, and nothing else changes;
* `Card.Write`, `write_of_invalid`, `write_of_full`, `write_of_free`: what a write does.
-/

namespace ShortMessage

/-- A record that is not accepted is the caller's fault. -/
theorem exists_cause_of_acceptWrite {record : Octets} {status : RecordStatus} {size : Nat}
    {e : Failure} (h : acceptWrite record status size = .error e) :
    ∃ cause, e = .invalidArgument cause := by
  unfold acceptWrite checkOccupied checkRecord at h
  split at h
  · exact ⟨_, (Except.error.inj h).symm⟩
  · split at h
    · exact ⟨_, (Except.error.inj h).symm⟩
    · split at h
      · exact ⟨_, (Except.error.inj h).symm⟩
      · cases h

namespace Card

/-- **Numbered slots**: in memory a slot has the number of its place, counted from one; in a table
none has a number below zero. -/
def Numbered : Card → Prop
  | .memory m => m.slots.length = m.capacity ∧
      ∀ (i : Nat) (hi : i < m.slots.length), m.slots[i].index = i + 1
  | .table _ s => s.table.Numbered

/-- A session with the slots of a card. -/
inductive Mirrored : Card → CardSession → Prop
  | memory {m : MemoryCard} {s : CardSession} (h : Mirrors m s) : Mirrored (.memory m) s
  | table (place : TablePlace) {s : CardSession} (h : s.table.Numbered) :
    Mirrored (.table place s) s

variable {c : Card} {s : CardSession}

namespace Mirrored

theorem rows (h : c.Mirrored s) : c.rows = s.table.rows := by
  cases h with
  | memory h => exact h.rows.symm
  | table => rfl

theorem capacity (h : c.Mirrored s) : c.capacity = s.capacity := by
  cases h with
  | memory h => exact h.capacity.symm
  | table => rfl

theorem row? (h : c.Mirrored s) (i : Int) : c.row? i = s.table.row? i := by
  unfold Card.row?
  rw [h.rows]
  rfl

theorem lowestFree? (h : c.Mirrored s) : c.lowestFree? = s.lowestFree? := by
  cases h with
  | memory h => exact h.lowestFree?_eq.symm
  | table => rfl

/-- Only a slot in memory has to have a number to be put down. -/
theorem put (h : c.Mirrored s) {index : Int}
    (hindex : 0 < index ∨ ∃ x ∈ c.rows, x.index = index) (status : RecordStatus) (data : Octets) :
    (c.put index status data).Mirrored (s.put index status data) := by
  cases h with
  | table place h => exact .table place (CardSession.numbered_put h _ _ _)
  | @memory m s h =>
    have hpos : 0 < index := by
      rcases hindex with hpos | ⟨x, hx, rfl⟩
      · exact hpos
      · obtain ⟨slot, hslot, rfl⟩ := List.mem_map.1 hx
        exact Int.ofNat_lt.2 (h.index_mem hslot).1
    have hplace : Mirrors (m.put index.toNat status data) (s.put index.toNat status data) :=
      h.put (by omega) status data
    rw [Int.toNat_of_nonneg (Int.le_of_lt hpos)] at hplace
    exact .memory hplace

theorem numbered (h : c.Mirrored s) : c.Numbered := by
  cases h with
  | memory h => exact ⟨h.length, h.numbered⟩
  | table _ h => exact h

end Mirrored

theorem Numbered.exists_mirrored (hc : c.Numbered) : ∃ s, c.Mirrored s := by
  cases c with
  | table place s => exact ⟨s, .table place hc⟩
  | memory m =>
    obtain ⟨hlength, hnumber⟩ := hc
    have hordered : (m.slots.map CardRecord.toRow).Pairwise (·.index < ·.index) := by
      refine List.pairwise_map.2 (List.pairwise_iff_getElem.2 fun i j hi hj hij => ?_)
      have hi' := hnumber i hi
      have hj' := hnumber j hj
      simp only [CardRecord.index_toRow]
      omega
    exact ⟨⟨⟨m.slots.map CardRecord.toRow, hordered⟩, m.capacity, m.recordSize⟩,
      .memory ⟨rfl, rfl, rfl, hlength, hnumber⟩⟩

theorem Numbered.nonneg (hc : c.Numbered) {x : SlotTable.Row} (hx : x ∈ c.rows) :
    0 ≤ x.index := by
  cases c with
  | table place s => exact hc x hx
  | memory m =>
    obtain ⟨slot, -, rfl⟩ := List.mem_map.1 hx
    exact Int.natCast_nonneg slot.index

theorem Numbered.coe_slot (hc : c.Numbered) {x : SlotTable.Row} (hx : x ∈ c.rows) :
    (x.slot : Int) = x.index :=
  SlotTable.Row.coe_slot (hc.nonneg hx)

/-! ### Cards that were opened -/

theorem New.numbered {capacity recordSize : Nat} (h : New capacity recordSize c) : c.Numbered := by
  cases h with
  | memory => exact (Mirrored.memory (mirrors_new capacity recordSize)).numbered
  | table place => exact SlotTable.numbered_empty.cover capacity recordSize

end Card

namespace TableShelf

/-- **A shelf of numbered tables.** -/
def Numbered (shelf : TableShelf) : Prop :=
  ∀ place t, shelf.tables.get? place = some t → t.Numbered

variable {shelf : TableShelf}

theorem numbered_ofDirectories (directories : List String) :
    (ofDirectories directories).Numbered :=
  fun _ _ ht => (nomatch ht)

theorem Numbered.find? (h : shelf.Numbered) {place : TablePlace} {t : SlotTable}
    (ht : shelf.find? place = some t) : t.Numbered := by
  have hget : ∀ place, ((shelf.tables.get? place).getD .empty).Numbered := by
    intro place
    cases hplace : shelf.tables.get? place with
    | none => exact SlotTable.numbered_empty
    | some kept => exact h place kept hplace
  cases place with
  | own => exact Option.some.inj ht ▸ SlotTable.numbered_empty
  | named name => exact Option.some.inj ht ▸ hget (.named name)
  | file path =>
    simp only [TableShelf.find?] at ht
    split at ht
    · exact Option.some.inj ht ▸ hget (.file path)
    · cases ht

/-- **A card leaves numbered tables** to the sessions after it. -/
theorem Numbered.save (h : shelf.Numbered) {c : Card} (hc : c.Numbered) :
    (c.save shelf).Numbered := by
  cases c with
  | memory m => exact h
  | table place s =>
    have hinsert : ∀ place',
        TableShelf.Numbered { shelf with tables := shelf.tables.insert place' s.table } := by
      intro place' place t ht
      rw [Registry.get?_insert] at ht
      split at ht
      · exact Option.some.inj ht ▸ hc
      · exact h place t ht
    cases place with
    | own => exact h
    | named name => exact hinsert (.named name)
    | file path => exact hinsert (.file path)

end TableShelf

namespace Card

variable {c : Card} {s : CardSession}

theorem numbered_ofSettings {settings : CardSettings} {shelf : TableShelf} (hshelf : shelf.Numbered)
    (h : ofSettings settings shelf = .ok c) : c.Numbered := by
  unfold ofSettings at h
  split at h
  · obtain rfl := Except.ok.inj h
    exact (New.memory : New settings.capacity settings.recordSize _).numbered
  · cases h
  · unfold openTable at h
    split at h
    · cases h
    · next place _ =>
      split at h
      · cases h
      · next kept hkept =>
        obtain rfl := Except.ok.inj h
        exact (hshelf.find? hkept).cover settings.capacity settings.recordSize

theorem Numbered.put (hc : c.Numbered) {index : Int}
    (hindex : 0 < index ∨ ∃ x ∈ c.rows, x.index = index) (status : RecordStatus) (data : Octets) :
    (c.put index status data).Numbered := by
  obtain ⟨s, hs⟩ := hc.exists_mirrored
  exact (hs.put hindex status data).numbered

theorem mem_rows_of_lowestFree? (hc : c.Numbered) {x : SlotTable.Row}
    (h : c.lowestFree? = some x) : x ∈ c.rows := by
  obtain ⟨s, hs⟩ := hc.exists_mirrored
  rw [hs.lowestFree?] at h
  rw [hs.rows]
  exact List.mem_of_find?_eq_some h

theorem Numbered.ask (hc : c.Numbered) (call : Call) : (c.ask call).2.Numbered := by
  rcases c.ask_cases call with ⟨hsame, -⟩ | ⟨index, r, -, -, hput, -, hwhere⟩
  · rwa [hsame]
  · rw [hput]
    refine hc.put ?_ _ _
    rcases hwhere with ⟨x, hx, hindex, -⟩ | ⟨rfl, hpos, -⟩
    · exact Or.inr ⟨x, mem_rows_of_lowestFree? hc hx, hindex⟩
    · exact Or.inl (Int.ofNat_lt.2 hpos)

theorem Numbered.after (hc : c.Numbered) (calls : List Call) : (c.after calls).Numbered := by
  induction calls generalizing c with
  | nil => exact hc
  | cons call calls ih => exact ih (hc.ask call)

/-- **The slots of a card that was opened are numbered**, after any calls. -/
theorem numbered_after_ofSettings {settings : CardSettings} {shelf : TableShelf}
    (hshelf : shelf.Numbered) (h : ofSettings settings shelf = .ok c) (calls : List Call) :
    (c.after calls).Numbered :=
  (numbered_ofSettings hshelf h).after calls

/-! ### Free slots -/

/-- **The free slots** within the capacity, in ascending order. -/
def freeIndices (c : Card) : List Nat :=
  (c.rows.filter fun x : SlotTable.Row => x.status = 0 ∧ x.index ≤ c.capacity).map (·.slot)

theorem Numbered.ordered (hc : c.Numbered) : c.rows.Pairwise (·.index < ·.index) := by
  obtain ⟨s, hs⟩ := hc.exists_mirrored
  rw [hs.rows]
  exact s.table.ordered

theorem Numbered.pairwise_freeIndices (hc : c.Numbered) : c.freeIndices.Pairwise (· < ·) := by
  refine List.pairwise_map.2 ((hc.ordered.filter _).imp_of_mem fun hx hy hlt => ?_)
  rw [← hc.coe_slot (List.mem_filter.1 hx).1, ← hc.coe_slot (List.mem_filter.1 hy).1] at hlt
  exact Int.ofNat_lt.1 hlt

theorem Numbered.nodup_freeIndices (hc : c.Numbered) : c.freeIndices.Nodup :=
  hc.pairwise_freeIndices.imp Nat.ne_of_lt

theorem Numbered.isLeast_freeIndices (hc : c.Numbered) {k : Nat} {ks : List Nat}
    (hfree : c.freeIndices = k :: ks) : IsLeast {i | i ∈ c.freeIndices} k := by
  have hord := hc.pairwise_freeIndices
  rw [hfree] at hord ⊢
  refine ⟨List.mem_cons_self, fun i hi => ?_⟩
  rcases List.mem_cons.1 hi with rfl | hi
  · exact Nat.le_refl _
  · exact Nat.le_of_lt ((List.pairwise_cons.1 hord).1 i hi)

theorem Numbered.exists_row?_of_mem_freeIndices (hc : c.Numbered) {i : Nat}
    (h : i ∈ c.freeIndices) : ∃ x, c.row? i = some x := by
  obtain ⟨x, hx, rfl⟩ := List.mem_map.1 h
  have hmem := (List.mem_filter.1 hx).1
  rw [hc.coe_slot hmem]
  exact Option.isSome_iff_exists.1 (List.find?_isSome.2 ⟨x, hmem, decide_eq_true rfl⟩)

theorem Numbered.lowestFree?_map_slot (hc : c.Numbered) :
    c.lowestFree?.map SlotTable.Row.slot = c.freeIndices.head? := by
  obtain ⟨s, hs⟩ := hc.exists_mirrored
  rw [hs.lowestFree?, freeIndices, List.head?_map, List.head?_filter, hs.rows, hs.capacity]
  rfl

/-! ### A slot that is put down -/

/-- **One slot is replaced**, and nothing else of a card changes. -/
structure Replaces (c : Card) (r : CardRecord) (c' : Card) : Prop where
  capacity : c'.capacity = c.capacity
  recordSize : c'.recordSize = c.recordSize
  rows : c'.rows = c.rows.map fun x : SlotTable.Row => if x.index = r.index then r.toRow else x

/-- **Putting a slot down** replaces it. -/
theorem Numbered.replaces_put (hc : c.Numbered) {index : Nat}
    (hindex : 0 < index ∨ ∃ x ∈ c.rows, x.index = index) (status : RecordStatus) (data : Octets) :
    c.Replaces ⟨index, status, data⟩ (c.put index status data) where
  capacity := by cases c <;> rfl
  recordSize := by cases c <;> rfl
  rows := by
    obtain ⟨s, hs⟩ := hc.exists_mirrored
    rw [(hs.put (hindex.imp_left Int.ofNat_lt.2) status data).rows, hs.rows]
    refine List.map_congr_left fun x _ => ?_
    by_cases hx : x.index = index
    · rw [if_pos hx, if_pos hx, hx]
      rfl
    · rw [if_neg hx, if_neg hx]

theorem index_replaced (r : CardRecord) (x : SlotTable.Row) :
    (if x.index = r.index then r.toRow else x).index = x.index := by
  split
  · next hx => exact hx.symm
  · rfl

theorem slot_replaced (r : CardRecord) (x : SlotTable.Row) :
    (if x.index = r.index then r.toRow else x).slot = x.slot := by
  unfold SlotTable.Row.slot
  rw [index_replaced]

section replaces

variable {c' : Card} {r : CardRecord} (h : c.Replaces r c')
include h

theorem Replaces.row? (i : Int) :
    c'.row? i = if r.index = i then (c.row? i).map fun _ => r.toRow else c.row? i := by
  unfold Card.row?
  rw [h.rows, List.find?_map]
  have htest : ((fun x : SlotTable.Row => decide (x.index = i)) ∘
      fun x : SlotTable.Row => if x.index = r.index then r.toRow else x) =
        fun x => decide (x.index = i) := by
    funext x
    simp only [Function.comp_apply, index_replaced]
  rw [htest]
  cases hfind : c.rows.find? (·.index = i) with
  | none => split <;> rfl
  | some x =>
    have hx : x.index = i := by simpa using List.find?_some hfind
    simp only [Option.map_some, hx, eq_comm (a := i)]
    split <;> rfl

theorem Replaces.freeIndices (hc : c.Numbered) (hr : ¬ r.isFree) :
    c'.freeIndices = c.freeIndices.filter (· ≠ r.index) := by
  have hocc : ¬ r.toRow.status = 0 := fun hzero => hr (r.status_toRow_eq_zero_iff.1 hzero)
  have hstatus : ∀ x ∈ c.rows, ((if x.index = r.index then r.toRow else x).status = 0 ↔
      x.slot ≠ r.index ∧ x.status = 0) := by
    intro x hx
    rw [ne_eq, ← Int.ofNat_inj, hc.coe_slot hx]
    split
    · next heq => exact ⟨fun hzero => absurd hzero hocc, fun hboth => absurd heq hboth.1⟩
    · next hne => exact ⟨fun hzero => ⟨hne, hzero⟩, fun hboth => hboth.2⟩
  have hmap : ((·.slot) ∘ fun x : SlotTable.Row => if x.index = r.index then r.toRow else x) =
      (·.slot) := funext (slot_replaced r)
  unfold Card.freeIndices
  rw [h.rows, h.capacity, List.filter_map, List.map_map, List.filter_map, List.filter_filter, hmap]
  congr 1
  refine List.filter_congr fun x hx => ?_
  simp [index_replaced, hstatus x hx, Bool.and_assoc]

end replaces

/-! ### Writes -/

/-- What a write is given. -/
structure Write where
  record : Octets
  status : RecordStatus
deriving DecidableEq

/-- A write that can succeed: an occupied status, and a record that fits into a slot. -/
def Write.Valid (size : Nat) (w : Write) : Prop :=
  w.status ≠ .free ∧ w.record ≠ [] ∧ w.record.length ≤ size

instance (size : Nat) : DecidablePred (Write.Valid size) := fun w =>
  inferInstanceAs (Decidable (w.status ≠ .free ∧ w.record ≠ [] ∧ w.record.length ≤ size))

/-- What a write puts into the slot that it takes: its record, filled up to the size of a slot. -/
def Write.slot (size index : Nat) (w : Write) : CardRecord :=
  ⟨index, w.status, fillUp w.record size⟩

@[simp]
theorem Write.index_slot (size index : Nat) (w : Write) : (w.slot size index).index = index := rfl

section write

variable {w : Write}

/-- **A write that is not valid** is refused, whatever is free. -/
theorem write_of_invalid (hw : ¬ w.Valid c.recordSize) :
    ∃ cause, c.write w.record w.status = (.error (.invalidArgument cause), c) := by
  rw [write_eq]
  cases haccept : acceptWrite w.record w.status c.recordSize with
  | ok data => exact absurd (acceptWrite_eq_ok_iff.1 haccept).1 hw
  | error e =>
    obtain ⟨cause, rfl⟩ := exists_cause_of_acceptWrite haccept
    exact ⟨cause, rfl⟩

variable (hw : w.Valid c.recordSize)
include hw

theorem Write.Valid.accepted :
    acceptWrite w.record w.status c.recordSize = .ok (fillUp w.record c.recordSize) :=
  acceptWrite_eq_ok_iff.2 ⟨hw, rfl⟩

/-- **A valid write fails on a full card**, and changes nothing. -/
theorem write_of_full (hc : c.Numbered) (hfull : c.freeIndices = []) :
    c.write w.record w.status = (.error (.capacityExceeded c.capacity), c) := by
  have hnone : c.lowestFree? = none := by
    have hhead := hc.lowestFree?_map_slot
    rw [hfull] at hhead
    exact Option.map_eq_none_iff.1 hhead
  simp only [write_eq, hw.accepted, hnone]

/-- **A valid write takes the lowest free slot**, and leaves the others free. -/
theorem write_of_free (hc : c.Numbered) {k : Nat} {ks : List Nat}
    (hfree : c.freeIndices = k :: ks) :
    ∃ c', c.write w.record w.status = (.ok k, c') ∧ c.Replaces (w.slot c.recordSize k) c' ∧
      c'.Numbered ∧ c'.freeIndices = ks := by
  obtain ⟨x, hx, rfl⟩ : ∃ x, c.lowestFree? = some x ∧ x.slot = k := by
    have hhead := hc.lowestFree?_map_slot
    rw [hfree] at hhead
    exact Option.map_eq_some_iff.1 hhead
  have hmem := mem_rows_of_lowestFree? hc hx
  have hindex : 0 < x.slot ∨ ∃ y ∈ c.rows, y.index = x.slot :=
    Or.inr ⟨x, hmem, (hc.coe_slot hmem).symm⟩
  have hwrite : c.write w.record w.status =
      (.ok x.slot, c.put x.slot w.status (fillUp w.record c.recordSize)) := by
    simp only [write_eq, hw.accepted, hx, hc.coe_slot hmem]
  have hreplaces : c.Replaces (w.slot c.recordSize x.slot) _ := hc.replaces_put hindex _ _
  have hocc : ¬ (w.slot c.recordSize x.slot).isFree :=
    fun hfree => hw.1 (of_decide_eq_true hfree)
  refine ⟨_, hwrite, hreplaces, hc.put (hindex.imp_left Int.ofNat_lt.2) _ _, ?_⟩
  -- the indices are distinct, so only the first of them goes
  have hne : ∀ i ∈ ks, i ≠ x.slot := by
    intro i hi
    have hnodup := hc.nodup_freeIndices
    rw [hfree] at hnodup
    rintro rfl
    exact (List.nodup_cons.1 hnodup).1 hi
  rw [hreplaces.freeIndices hc hocc, hfree, List.filter_cons_of_neg (by simp)]
  exact List.filter_eq_self.2 fun i hi => decide_eq_true (hne i hi)

end write

end Card

end ShortMessage
