import ShortMessage.Proofs.Card.Backends

/-!
# A table as a map

Rows lie in the order of their indices and no two share one, so a table is a map from indices to
rows.  Every operation is an equation about that map, and the first row that passes a test is the
one of the lowest index.

* `SlotTable.row?`: the row of an index;
* `SlotTable.Numbered`: a table as sessions leave it, without an index below zero;
* `row?_cover`, `row?_put`: a table that is opened, and one with a slot put down;
* `lowestFree?_eq_some`, `lowestFree?_eq_none`: the row that a write takes;
* `readAll_of_spelled`: what is read from rows that spell records.
-/

namespace ShortMessage

namespace SlotTable

variable {t : SlotTable} {i : Int}

/-- The row of an index, if the table has it. -/
def row? (t : SlotTable) (i : Int) : Option Row :=
  t.rows.find? (·.index = i)

theorem Row.eq_of_index_eq {rows : List Row} (hord : rows.Pairwise (·.index < ·.index)) {x y : Row}
    (hx : x ∈ rows) (hy : y ∈ rows) (h : x.index = y.index) : x = y := by
  induction rows with
  | nil => cases hx
  | cons r rows ih =>
    obtain ⟨hr, hrows⟩ := List.pairwise_cons.1 hord
    rcases List.mem_cons.1 hx with rfl | hx' <;> rcases List.mem_cons.1 hy with rfl | hy'
    · rfl
    · exact absurd h (Int.ne_of_lt (hr y hy'))
    · exact absurd h (Int.ne_of_gt (hr x hx'))
    · exact ih hrows hx' hy'

theorem row?_eq_some_iff {r : Row} : t.row? i = some r ↔ r ∈ t.rows ∧ r.index = i := by
  constructor
  · intro h
    exact ⟨List.mem_of_find?_eq_some h, by simpa using List.find?_some h⟩
  · rintro ⟨hmem, rfl⟩
    cases hfind : t.row? r.index with
    | none =>
      have hne := List.find?_eq_none.1 hfind r hmem
      simp at hne
    | some x =>
      have hindex : x.index = r.index := by simpa using List.find?_some hfind
      rw [Row.eq_of_index_eq t.ordered (List.mem_of_find?_eq_some hfind) hmem hindex]

theorem index_of_row? {r : Row} (h : t.row? i = some r) : r.index = i :=
  (row?_eq_some_iff.1 h).2

theorem mem_of_row? {r : Row} (h : t.row? i = some r) : r ∈ t.rows :=
  (row?_eq_some_iff.1 h).1

theorem row?_of_mem {r : Row} (h : r ∈ t.rows) : t.row? r.index = some r :=
  row?_eq_some_iff.2 ⟨h, rfl⟩

theorem row?_eq_none_iff : t.row? i = none ↔ i ∉ t.rows.map Row.index := by
  unfold row?
  simp [List.find?_eq_none]

/-! ### Opening -/

theorem Row.find?_insertMissing (r : Row) {rows : List Row}
    (hord : rows.Pairwise (·.index < ·.index)) (i : Int) :
    (insertMissing r rows).find? (·.index = i) =
      (rows.find? (·.index = i)).or (if r.index = i then some r else none) := by
  induction rows with
  | nil =>
    by_cases hi : r.index = i <;> simp [insertMissing, hi]
  | cons x rows ih =>
    obtain ⟨hx, hrows⟩ := List.pairwise_cons.1 hord
    rw [insertMissing]
    split
    · next hlt =>
      -- in front: every row of the table comes later
      by_cases hi : r.index = i
      · have hnone : (x :: rows).find? (·.index = i) = none := by
          refine List.find?_eq_none.2 fun y hy => ?_
          have hy' : r.index < y.index := by
            rcases List.mem_cons.1 hy with rfl | hy
            · exact hlt
            · exact Int.lt_trans hlt (hx y hy)
          simp only [decide_eq_true_eq]
          omega
        rw [hnone, List.find?_cons_of_pos (by simpa using hi), if_pos hi, Option.none_or]
      · rw [List.find?_cons_of_neg (by simpa using hi), if_neg hi, Option.or_none]
    · split
      · next heq =>
        by_cases hi : r.index = i
        · rw [List.find?_cons_of_pos (by simp [← heq, hi]), Option.some_or]
        · rw [if_neg hi, Option.or_none]
      · by_cases hi : x.index = i
        · rw [List.find?_cons_of_pos (by simpa using hi),
            List.find?_cons_of_pos (by simpa using hi), Option.some_or]
        · rw [List.find?_cons_of_neg (by simpa using hi),
            List.find?_cons_of_neg (by simpa using hi), ih hrows]

theorem row?_addMissing (t : SlotTable) (r : Row) (i : Int) :
    (t.addMissing r).row? i = (t.row? i).or (if r.index = i then some r else none) :=
  r.find?_insertMissing t.ordered i

/-- **Opening adds the missing rows** up to the capacity, and changes none. -/
theorem row?_cover (t : SlotTable) (capacity recordSize : Nat) (i : Int) :
    (t.cover capacity recordSize).row? i =
      (t.row? i).or (if 1 ≤ i ∧ i ≤ capacity then some (.erased i recordSize) else none) := by
  induction capacity with
  | zero =>
    rw [if_neg (by omega), Option.or_none]
    rfl
  | succ capacity ih =>
    rw [cover_succ, row?_addMissing, ih, Option.or_assoc]
    congr 1
    by_cases hlast : capacity + 1 = i
    · have hnot : ¬ (1 ≤ i ∧ i ≤ capacity) := by omega
      rw [if_neg hnot, if_pos (show (Row.erased (capacity + 1) recordSize).index = i from hlast),
        if_pos (by omega), Option.none_or, hlast]
    · have hiff : (1 ≤ i ∧ i ≤ (capacity + 1 : Nat)) ↔ (1 ≤ i ∧ i ≤ capacity) := by omega
      rw [if_neg (show ¬ (Row.erased (capacity + 1) recordSize).index = i from hlast),
        Option.or_none]
      simp only [hiff]

/-! ### Changing a row -/

theorem row?_set (t : SlotTable) (index : Int) (change : Row → Int64 × Octets) (i : Int) :
    (t.set index change).row? i =
      (t.row? i).map fun r =>
        if r.index = index then ⟨r.index, (change r).1, (change r).2⟩ else r := by
  have hsame : ∀ r : Row, (if r.index = index then
      (⟨r.index, (change r).1, (change r).2⟩ : Row) else r).index = r.index := by
    intro r
    split <;> rfl
  unfold row? set
  rw [List.find?_map]
  congr 2
  funext r
  simp only [Function.comp_apply, hsame]

theorem map_index_set (t : SlotTable) (index : Int) (change : Row → Int64 × Octets) :
    (t.set index change).rows.map Row.index = t.rows.map Row.index := by
  simp only [set, List.map_map]
  refine List.map_congr_left fun r _ => ?_
  simp only [Function.comp_apply]
  split <;> rfl

/-! ### Tables without an index below zero -/

/-- **A numbered table** has no index below zero: sessions count from one, and add no other. -/
def Numbered (t : SlotTable) : Prop :=
  ∀ x ∈ t.rows, 0 ≤ x.index

namespace Numbered

variable {t' : SlotTable}

theorem coe_slot (h : t.Numbered) {x : Row} (hx : x ∈ t.rows) : (x.slot : Int) = x.index :=
  Row.coe_slot (h x hx)

theorem of_indices (h : t.Numbered)
    (hsame : t'.rows.map Row.index = t.rows.map Row.index) : t'.Numbered := by
  intro x hx
  have hindex : x.index ∈ t.rows.map Row.index := hsame ▸ List.mem_map_of_mem hx
  obtain ⟨y, hy, heq⟩ := List.mem_map.1 hindex
  exact heq ▸ h y hy

theorem cover (h : t.Numbered) (capacity recordSize : Nat) :
    (t.cover capacity recordSize).Numbered := by
  induction capacity with
  | zero => exact h
  | succ capacity ih =>
    rw [cover_succ]
    intro x hx
    rcases Row.mem_insertMissing hx with rfl | hx
    · exact Int.natCast_nonneg (capacity + 1)
    · exact ih x hx

end Numbered

theorem numbered_empty : empty.Numbered :=
  fun _ hx => (nomatch hx)

end SlotTable

namespace CardSession

variable {s : CardSession}

/-- **Putting a slot down** changes the row of its index, if there is one, and no other. -/
theorem row?_put (s : CardSession) (index : Int) (status : RecordStatus) (data : Octets) (i : Int) :
    (s.put index status data).table.row? i =
      if index = i then (s.table.row? i).map fun _ => ⟨index, Int64.ofNat status.code, data⟩
      else s.table.row? i := by
  show (s.table.set index _).row? i = _
  rw [SlotTable.row?_set]
  cases hrow : s.table.row? i with
  | none => split <;> rfl
  | some r =>
    have hindex := SlotTable.index_of_row? hrow
    simp only [Option.map_some, hindex]
    by_cases hi : index = i
    · rw [if_pos hi.symm, if_pos hi, hi]
    · rw [if_neg (fun h => hi h.symm), if_neg hi]

theorem numbered_put (h : s.table.Numbered) (index : Int) (status : RecordStatus) (data : Octets) :
    (s.put index status data).table.Numbered :=
  h.of_indices (SlotTable.map_index_set _ _ _)

/-! ### The lowest free row -/

/-- **The row that a write takes** is free, lies within the capacity, and comes before every other
such row. -/
theorem lowestFree?_eq_some {r : SlotTable.Row} (h : s.lowestFree? = some r) :
    (s.table.row? r.index = some r ∧ r.status = 0 ∧ r.index ≤ s.capacity) ∧
      ∀ x ∈ s.table.rows, x.status = 0 → r.index ≤ x.index := by
  have hmem := List.mem_of_find?_eq_some h
  obtain ⟨htest, before, after, hrows, hno⟩ := List.find?_eq_some_iff_append.1 h
  simp only [decide_eq_true_eq] at htest
  refine ⟨⟨SlotTable.row?_of_mem hmem, htest⟩, fun x hx hfree => ?_⟩
  have hord := s.table.ordered
  rw [hrows] at hx hord
  rcases List.mem_append.1 hx with hx | hx
  · -- an earlier row that is free lies beyond the capacity, and rows are ordered
    have hfail := hno x hx
    have hlt := (List.pairwise_append.1 hord).2.2 x hx r List.mem_cons_self
    simp only [Bool.not_eq_true', decide_eq_false_iff_not, not_and] at hfail
    exact absurd (Int.le_trans (Int.le_of_lt hlt) htest.2) (hfail hfree)
  · rcases List.mem_cons.1 hx with rfl | hx
    · exact Int.le_refl _
    · have htail := (List.pairwise_append.1 hord).2.1
      exact Int.le_of_lt ((List.pairwise_cons.1 htail).1 x hx)

theorem lowestFree?_eq_none (h : s.lowestFree? = none) {x : SlotTable.Row} (hx : x ∈ s.table.rows)
    (hfree : x.status = 0) : s.capacity < x.index := by
  have hfail := List.find?_eq_none.1 h x hx
  simp only [decide_eq_true_eq, not_and] at hfail
  exact Int.not_le.1 (hfail hfree)

end CardSession

/-! ### Reading -/

theorem CardRecord.toRow_injective {r r' : CardRecord} (h : r.toRow = r'.toRow) : r = r' := by
  have hrecord := r.record_toRow
  rw [h, r'.record_toRow] at hrecord
  exact (Except.ok.inj hrecord).symm

theorem exists_map_toRow {rows : List SlotTable.Row}
    (h : ∀ x ∈ rows, ∃ r : CardRecord, r.toRow = x) :
    ∃ records : List CardRecord, rows = records.map CardRecord.toRow := by
  induction rows with
  | nil => exact ⟨[], rfl⟩
  | cons x rows ih =>
    obtain ⟨r, rfl⟩ := h x List.mem_cons_self
    obtain ⟨records, rfl⟩ := ih fun y hy => h y (List.mem_cons_of_mem _ hy)
    exact ⟨r :: records, rfl⟩

/-- **Reading** rows that all spell records answers the occupied ones within the capacity, in the
order of their indices. -/
theorem CardSession.readAll_of_spelled {s : CardSession}
    (h : ∀ x ∈ s.table.rows, ∃ r : CardRecord, r.toRow = x) :
    ∃ records, s.readAll = .ok records ∧ records.Pairwise (·.index < ·.index) ∧
      ∀ r : CardRecord, r ∈ records ↔
        r.toRow ∈ s.table.rows ∧ ¬ r.isFree ∧ r.index ≤ s.capacity := by
  have hspelled : ∀ x ∈ s.occupiedRows, ∃ r : CardRecord, r.toRow = x :=
    fun x hx => h x (List.mem_filter.1 hx).1
  obtain ⟨records, hrecords⟩ := exists_map_toRow hspelled
  refine ⟨records, ?_, ?_, fun r => ?_⟩
  · rw [readAll, hrecords, mapM_record_toRow]
  · have hord : s.occupiedRows.Pairwise (·.index < ·.index) := s.table.ordered.filter _
    rw [hrecords, List.pairwise_map] at hord
    exact hord.imp Int.ofNat_lt.1
  · have hmem : r ∈ records ↔ r.toRow ∈ s.occupiedRows := by
      rw [hrecords]
      refine ⟨List.mem_map_of_mem, fun hrow => ?_⟩
      obtain ⟨r', hr', heq⟩ := List.mem_map.1 hrow
      exact CardRecord.toRow_injective heq ▸ hr'
    rw [hmem, occupiedRows, List.mem_filter]
    simp

end ShortMessage
