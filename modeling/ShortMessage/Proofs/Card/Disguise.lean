import Mathlib.Data.List.Forall2
import ShortMessage.Proofs.Card.Rows

/-!
# Status numbers that are none

A row keeps its status as a 64-bit number, which nothing stops others from changing.  Whether a row
is occupied is asked of the whole number, and which status it has of its low 32 bits alone.  So a
number that is no status may pass for one: the row is in disguise.  In the same way nothing stops
others from storing an index below zero, which is read as a large one.

* `Row.Defined`, `Row.Readable`, `Row.Disguised`: what a row's number is, and what it passes for;
* `Row.Misnumbered`: an occupied row of an index below zero; `slot_of_int64`: what it is read as;
* `readAll_of_readable`, `readAll_of_not_readable`: what is read from any table;
* `CardSession.Faithful`: a reading that passes no corrupt row off as a record;
* `readAll_faithful_iff`: when readings are faithful; `readAll_passes_disguised`: one that is not.
-/

namespace ShortMessage

namespace SlotTable.Row

variable {r : Row}

/-- The stored number is that of a status. -/
def Defined (r : Row) : Prop :=
  r.status ∈ ([0, 1, 3, 5, 7] : List Int64)

/-- The low 32 bits of the stored number are those of a status. -/
def Readable (r : Row) : Prop :=
  r.status.toInt32 ∈ ([0, 1, 3, 5, 7] : List Int32)

/-- The stored number is that of no status, but its low 32 bits are. -/
def Disguised (r : Row) : Prop :=
  r.Readable ∧ ¬ r.Defined

instance : DecidablePred Defined := fun r => inferInstanceAs (Decidable (r.status ∈ _))

instance : DecidablePred Readable := fun r => inferInstanceAs (Decidable (r.status.toInt32 ∈ _))

/-- An occupied row whose index lies below zero: no slot has such a number. -/
def Misnumbered (r : Row) : Prop :=
  r.status ≠ 0 ∧ r.index < 0

instance : DecidablePred Misnumbered := fun r =>
  inferInstanceAs (Decidable (r.status ≠ 0 ∧ r.index < 0))

/-- **The number of a row's slot** is the machine's cast of its index to an unsigned number. -/
theorem slot_of_int64 (index status : Int64) (data : Octets) :
    (Row.mk index.toInt status data).slot = index.toUInt64.toNat := by
  have hcast : index.toInt = index.toUInt64.toBitVec.toInt := rfl
  have hsmall := index.toUInt64.toBitVec.isLt
  rw [slot, hcast, ← UInt64.toNat_toBitVec]
  simp only [BitVec.toInt_eq_toNat_cond]
  split <;> split <;> omega

/-- A row whose number is that of a status spells a record, unless its index lies below zero. -/
theorem Defined.exists_toRow (h : r.Defined) (hindex : 0 ≤ r.index) :
    ∃ x : CardRecord, x.toRow = r ∧ r.record = .ok x := by
  have hstatus : ∃ s : RecordStatus, Int64.ofNat s.code = r.status := by
    simp only [Defined, List.mem_cons, List.not_mem_nil, or_false] at h
    rcases h with h | h | h | h | h <;> rw [h]
    · exact ⟨.free, rfl⟩
    · exact ⟨.read, rfl⟩
    · exact ⟨.unread, rfl⟩
    · exact ⟨.sent, rfl⟩
    · exact ⟨.unsent, rfl⟩
  obtain ⟨s, hs⟩ := hstatus
  have hrow : CardRecord.toRow ⟨r.slot, s, r.data⟩ = r := by
    unfold CardRecord.toRow
    rw [hs, coe_slot hindex]
  exact ⟨_, hrow, hrow ▸ CardRecord.record_toRow _⟩

theorem Defined.readable (h : r.Defined) : r.Readable := by
  unfold Readable
  simp only [Defined, List.mem_cons, List.not_mem_nil, or_false] at h
  rcases h with h | h | h | h | h <;> rw [h] <;> decide

/-- What a readable row is read as: of its number the low 32 bits count. -/
def Shows (r : Row) (x : CardRecord) : Prop :=
  x.index = r.slot ∧ Int32.ofNat x.status.code = r.status.toInt32 ∧ x.data = r.data

theorem exists_record_of_readable (h : r.Readable) : ∃ x, r.record = .ok x ∧ r.Shows x := by
  unfold record Shows
  simp only [Readable, List.mem_cons, List.not_mem_nil, or_false] at h
  rcases h with h | h | h | h | h <;> rw [h]
  · exact ⟨⟨r.slot, .free, r.data⟩, rfl, rfl, rfl, rfl⟩
  · exact ⟨⟨r.slot, .read, r.data⟩, rfl, rfl, rfl, rfl⟩
  · exact ⟨⟨r.slot, .unread, r.data⟩, rfl, rfl, rfl, rfl⟩
  · exact ⟨⟨r.slot, .sent, r.data⟩, rfl, rfl, rfl, rfl⟩
  · exact ⟨⟨r.slot, .unsent, r.data⟩, rfl, rfl, rfl, rfl⟩

theorem record_of_not_readable (h : ¬ r.Readable) :
    r.record = .error (.internal (.corruptSlot r.index r.status.toInt)) := by
  have hnone : RecordStatus.ofCode? r.status.toInt32.toInt = none := by
    have hne : ∀ n : Int32, n ∈ ([0, 1, 3, 5, 7] : List Int32) →
        r.status.toInt32.toInt ≠ n.toInt := by
      rintro n hn heq
      obtain rfl := Int32.toInt_inj.1 heq
      exact h hn
    have h0 : r.status.toInt32.toInt ≠ 0 := hne 0 (by decide)
    have h1 : r.status.toInt32.toInt ≠ 1 := hne 1 (by decide)
    have h3 : r.status.toInt32.toInt ≠ 3 := hne 3 (by decide)
    have h5 : r.status.toInt32.toInt ≠ 5 := hne 5 (by decide)
    have h7 : r.status.toInt32.toInt ≠ 7 := hne 7 (by decide)
    unfold RecordStatus.ofCode?
    split <;> first | rfl | contradiction
  unfold record
  rw [hnone]

end SlotTable.Row

namespace CardSession

open SlotTable (Row)

variable {s : CardSession}

/-! ### What is read -/

theorem mem_occupiedRows {r : Row} :
    r ∈ s.occupiedRows ↔ r ∈ s.table.rows ∧ r.status ≠ 0 ∧ r.index ≤ s.capacity := by
  unfold occupiedRows
  rw [List.mem_filter, decide_eq_true_eq]

/-- Only readable rows can be free. -/
theorem forall_occupiedRows_iff :
    (∀ r ∈ s.occupiedRows, r.Readable) ↔
      ∀ r ∈ s.table.rows, r.index ≤ s.capacity → r.Readable := by
  constructor
  · intro h r hr hi
    by_cases h0 : r.status = 0
    · unfold Row.Readable
      rw [h0]
      decide
    · exact h r (mem_occupiedRows.2 ⟨hr, h0, hi⟩)
  · intro h r hr
    obtain ⟨hmem, -, hi⟩ := mem_occupiedRows.1 hr
    exact h r hmem hi

theorem mapM_record_of_readable {rows : List Row} (h : ∀ r ∈ rows, r.Readable) :
    ∃ records, rows.mapM Row.record = .ok records ∧ List.Forall₂ Row.Shows rows records := by
  induction rows with
  | nil => exact ⟨[], rfl, .nil⟩
  | cons r rows ih =>
    obtain ⟨records, hrecords, hshows⟩ := ih fun x hx => h x (List.mem_cons_of_mem _ hx)
    obtain ⟨x, hx, hshow⟩ := Row.exists_record_of_readable (h r List.mem_cons_self)
    refine ⟨x :: records, ?_, .cons hshow hshows⟩
    rw [List.mapM_cons, hx, hrecords]
    rfl

theorem mapM_record_of_not_readable {before after : List Row} {r : Row}
    (hbefore : ∀ x ∈ before, x.Readable) (hr : ¬ r.Readable) :
    (before ++ r :: after).mapM Row.record =
      .error (.internal (.corruptSlot r.index r.status.toInt)) := by
  induction before with
  | nil =>
    rw [List.nil_append, List.mapM_cons, Row.record_of_not_readable hr]
    rfl
  | cons x before ih =>
    obtain ⟨y, hx, -⟩ := Row.exists_record_of_readable (hbefore x List.mem_cons_self)
    rw [List.cons_append, List.mapM_cons, hx,
      ih fun y hy => hbefore y (List.mem_cons_of_mem _ hy)]
    rfl

theorem readAll_of_readable (h : ∀ r ∈ s.table.rows, r.index ≤ s.capacity → r.Readable) :
    ∃ records, s.readAll = .ok records ∧ List.Forall₂ Row.Shows s.occupiedRows records :=
  mapM_record_of_readable (forall_occupiedRows_iff.2 h)

theorem readAll_of_not_readable
    (h : ¬ ∀ r ∈ s.table.rows, r.index ≤ s.capacity → r.Readable) :
    ∃ r ∈ s.table.rows, r.index ≤ s.capacity ∧ ¬ r.Readable ∧
      s.readAll = .error (.internal (.corruptSlot r.index r.status.toInt)) := by
  rw [← forall_occupiedRows_iff] at h
  cases hfind : s.occupiedRows.find? (fun r => ¬ r.Readable) with
  | none =>
    refine absurd (fun r hr => ?_) h
    simpa using List.find?_eq_none.1 hfind r hr
  | some r =>
    obtain ⟨hr, before, after, hrows, hbefore⟩ := List.find?_eq_some_iff_append.1 hfind
    obtain ⟨hmem, -, hi⟩ := mem_occupiedRows.1 (List.mem_of_find?_eq_some hfind)
    have hr : ¬ r.Readable := of_decide_eq_true hr
    refine ⟨r, hmem, hi, hr, ?_⟩
    rw [readAll, hrows]
    exact mapM_record_of_not_readable (fun x hx => by simpa using hbefore x hx) hr

theorem readAll_of_defined (h : ∀ r ∈ s.table.rows, r.index ≤ s.capacity → r.Defined)
    (hnumber : ∀ r ∈ s.table.rows, r.index ≤ s.capacity → ¬ r.Misnumbered) :
    ∃ records, s.readAll = .ok records ∧ records.map CardRecord.toRow = s.occupiedRows := by
  have hspelled : ∀ r ∈ s.occupiedRows, ∃ x, CardRecord.toRow x = r := fun r hr => by
    obtain ⟨hmem, hocc, hi⟩ := mem_occupiedRows.1 hr
    have hindex : 0 ≤ r.index := Int.not_lt.1 fun hlt => hnumber r hmem hi ⟨hocc, hlt⟩
    obtain ⟨x, hx, -⟩ := (h r hmem hi).exists_toRow hindex
    exact ⟨x, hx⟩
  obtain ⟨records, hrecords⟩ := exists_map_toRow hspelled
  exact ⟨records, by rw [readAll, hrecords, mapM_record_toRow], hrecords.symm⟩

/-! ### Faithful readings -/

/-- **A faithful reading**: it succeeds exactly if the number of every row within the capacity is
that of a status, and then it lists the rows that are not free, in the order of their indices; else
it reports a row whose number is none. -/
structure Faithful (s : CardSession) : Prop where
  succeeds_iff : (∃ records, s.readAll = .ok records) ↔
    ∀ r ∈ s.table.rows, r.index ≤ s.capacity → r.Defined
  lists : ∀ records, s.readAll = .ok records →
    records.map CardRecord.toRow =
        s.table.rows.filter (fun r : Row => r.status ≠ 0 ∧ r.index ≤ s.capacity) ∧
      ∀ x ∈ records, ¬ x.isFree
  reports : ∀ f, s.readAll = .error f → ∃ r ∈ s.table.rows, r.index ≤ s.capacity ∧
    ¬ r.Defined ∧ f = .internal (.corruptSlot r.index r.status.toInt)

theorem faithful_of_defined (h : ∀ r ∈ s.table.rows, r.index ≤ s.capacity → r.Defined)
    (hnumber : ∀ r ∈ s.table.rows, r.index ≤ s.capacity → ¬ r.Misnumbered) : s.Faithful := by
  obtain ⟨records, hok, hrows⟩ := readAll_of_defined h hnumber
  refine ⟨⟨fun _ => h, fun _ => ⟨records, hok⟩⟩, fun records' hok' => ?_, fun f hf => ?_⟩
  · obtain rfl := Except.ok.inj (hok.symm.trans hok')
    refine ⟨hrows, fun x hx => ?_⟩
    have hmem : x.toRow ∈ s.occupiedRows := hrows ▸ List.mem_map_of_mem hx
    simpa using (mem_occupiedRows.1 hmem).2.1
  · rw [hok] at hf
    cases hf

theorem faithful_of_not_readable (h : ¬ ∀ r ∈ s.table.rows, r.index ≤ s.capacity → r.Readable) :
    s.Faithful := by
  obtain ⟨r, hmem, hi, hr, herror⟩ := readAll_of_not_readable h
  have hr : ¬ r.Defined := fun hdef => hr hdef.readable
  refine ⟨⟨?_, fun hall => absurd (hall r hmem hi) hr⟩, fun records hok => ?_, fun f hf => ?_⟩
  · rintro ⟨records, hok⟩
    rw [herror] at hok
    cases hok
  · rw [herror] at hok
    cases hok
  · exact ⟨r, hmem, hi, hr, Except.error.inj (hf.symm.trans herror)⟩

/-- A row in disguise among readable ones is passed off as a record. -/
theorem not_faithful_of_disguised
    (h : ∀ r ∈ s.table.rows, r.index ≤ s.capacity → r.Readable) {r : Row}
    (hmem : r ∈ s.table.rows) (hi : r.index ≤ s.capacity) (hr : r.Disguised) : ¬ s.Faithful :=
  fun hfaithful => by
    obtain ⟨records, hok, -⟩ := readAll_of_readable h
    exact hr.2 (hfaithful.succeeds_iff.1 ⟨records, hok⟩ r hmem hi)

/-- A record does not spell the row below zero that it is read from. -/
theorem not_faithful_of_misnumbered
    (h : ∀ r ∈ s.table.rows, r.index ≤ s.capacity → r.Readable) {r : Row}
    (hmem : r ∈ s.table.rows) (hi : r.index ≤ s.capacity) (hr : r.Misnumbered) : ¬ s.Faithful :=
  fun hfaithful => by
    obtain ⟨records, hok, -⟩ := readAll_of_readable h
    have hoccupied : r ∈ s.occupiedRows := mem_occupiedRows.2 ⟨hmem, hr.1, hi⟩
    have hrows : records.map CardRecord.toRow = s.occupiedRows := (hfaithful.lists records hok).1
    rw [← hrows] at hoccupied
    obtain ⟨x, -, rfl⟩ := List.mem_map.1 hoccupied
    exact absurd hr.2 (Int.not_lt.2 (Int.natCast_nonneg x.index))

/-- **When a reading is faithful.**  A reading succeeds exactly if every row within the capacity is
readable, and then shows the occupied ones by the low 32 bits of their numbers.  So it is faithful
exactly if among the rows within the capacity none is in disguise and no occupied one has an index
below zero, or one of them is not readable at all. -/
theorem readAll_faithful_iff (s : CardSession) :
    ((∃ records, s.readAll = .ok records) ↔
      ∀ r ∈ s.table.rows, r.index ≤ s.capacity → r.Readable) ∧
    (∀ records, s.readAll = .ok records → List.Forall₂ Row.Shows s.occupiedRows records) ∧
    (s.Faithful ↔
      (∀ r ∈ s.table.rows, r.index ≤ s.capacity → ¬ r.Disguised ∧ ¬ r.Misnumbered) ∨
        ¬ ∀ r ∈ s.table.rows, r.index ≤ s.capacity → r.Readable) := by
  by_cases hall : ∀ r ∈ s.table.rows, r.index ≤ s.capacity → r.Readable
  · obtain ⟨records, hok, hshows⟩ := readAll_of_readable hall
    refine ⟨⟨fun _ => hall, fun _ => ⟨records, hok⟩⟩, fun records' hok' => ?_,
      fun hfaithful => Or.inl fun r hmem hi => ⟨?_, ?_⟩, ?_⟩
    · obtain rfl := Except.ok.inj (hok.symm.trans hok')
      exact hshows
    · exact fun hr => not_faithful_of_disguised hall hmem hi hr hfaithful
    · exact fun hr => not_faithful_of_misnumbered hall hmem hi hr hfaithful
    · rintro (hnone | hnot)
      · refine faithful_of_defined (fun r hmem hi => Decidable.byContradiction fun hr => ?_)
          fun r hmem hi => (hnone r hmem hi).2
        exact (hnone r hmem hi).1 ⟨hall r hmem hi, hr⟩
      · exact absurd hall hnot
  · obtain ⟨r, -, -, -, herror⟩ := readAll_of_not_readable hall
    have hfail : ∀ records, s.readAll ≠ .ok records := fun records hok => by
      rw [herror] at hok
      cases hok
    exact ⟨⟨fun ⟨records, hok⟩ => absurd hok (hfail records), fun h => absurd h hall⟩,
      fun records hok => absurd hok (hfail records),
      fun _ => Or.inr hall, fun _ => faithful_of_not_readable hall⟩

-- A row below zero is listed, before all others, under the number of its 64 bits.
example :
    (CardSession.mk ⟨[⟨-1, 1, [7]⟩, ⟨1, 3, [8]⟩], by decide⟩ 1 1).readAll =
      .ok [⟨0xFFFFFFFFFFFFFFFF, .read, [7]⟩, ⟨1, .unread, [8]⟩] := rfl

/-- A new table of one row, whose status number somebody has overwritten. -/
def overwritten (status : Int64) : CardSession :=
  { openTable .empty 1 2 with
    table := ((openTable .empty 1 2).table.overwriteStatus 1 status).2 }

/-- **A corrupt row is passed off as a record**: 2³² + 1 reads as the status read, and 2³² even as
free. -/
theorem readAll_passes_disguised :
    (overwritten 4294967297).readAll = .ok [⟨1, .read, [255, 255]⟩] ∧
      ¬ (overwritten 4294967297).Faithful ∧
      (overwritten 4294967296).readAll = .ok [⟨1, .free, [255, 255]⟩] ∧
      ¬ (overwritten 4294967296).Faithful := by
  refine ⟨rfl, ?_, rfl, ?_⟩
  · exact not_faithful_of_disguised (r := ⟨1, 4294967297, [255, 255]⟩) (by decide) (by decide)
      (by decide) ⟨by decide, by decide⟩
  · exact not_faithful_of_disguised (r := ⟨1, 4294967296, [255, 255]⟩) (by decide) (by decide)
      (by decide) ⟨by decide, by decide⟩

end CardSession

end ShortMessage
