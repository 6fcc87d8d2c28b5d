import ShortMessage.Proofs.Card.Contents

/-!
# Sessions on one table

Sessions open a table one after the other, each with a capacity and a record size of its own.  The
table keeps one map over all indices that any of them created: an opening adds what is missing, and
a call changes one slot within the capacity of its session.

* `SlotTable.Holds`: a table whose rows are those of a map;
* `Holds`, `Holds.ask`, `Holds.serves`: a session that holds a map, and what one call does to it;
* `Within`: sessions that differ within the capacity only;
* `holds_openTable`, `holds_after`: what a session holds at first, and after calls;
* `Visit`, `tableAfter`, `historyAfter`: sessions one after the other;
* `visits_serve`: any session serves the contents of the whole history.
-/

namespace ShortMessage

/-- **A table holds a map** from indices to slots: its rows are those of the map, and no other. -/
structure SlotTable.Holds (t : SlotTable) (f : Nat → Option CardRecord) : Prop where
  numbered : t.Numbered
  row : ∀ i : Nat, t.row? i = (f i).map CardRecord.toRow

theorem SlotTable.holds_empty : empty.Holds (Card.contents []) :=
  ⟨numbered_empty, fun _ => rfl⟩

namespace CardSession

variable {s s' : CardSession} {f : Nat → Option CardRecord}

/-- **A session holds a map**: its table does, and no slot is missing within the capacity. -/
structure Holds (s : CardSession) (f : Nat → Option CardRecord) : Prop
    extends s.table.Holds f where
  covered : ∀ i, 1 ≤ i → i ≤ s.capacity → f i ≠ none

theorem Holds.toRow_mem_iff (h : s.Holds f) {r : CardRecord} :
    r.toRow ∈ s.table.rows ↔ f r.index = some r := by
  constructor
  · intro hmem
    have hrow : s.table.row? r.index = some r.toRow := SlotTable.row?_of_mem hmem
    rw [h.row] at hrow
    obtain ⟨r', hr', heq⟩ := Option.map_eq_some_iff.1 hrow
    rw [hr', CardRecord.toRow_injective heq]
  · intro hr
    refine SlotTable.mem_of_row? (i := r.index) ?_
    rw [h.row, hr, Option.map_some]

theorem Holds.spelled (h : s.Holds f) {x : SlotTable.Row} (hx : x ∈ s.table.rows) :
    ∃ r : CardRecord, r.toRow = x := by
  have hrow := SlotTable.row?_of_mem hx
  rw [← h.numbered.coe_slot hx, h.row] at hrow
  obtain ⟨r, -, heq⟩ := Option.map_eq_some_iff.1 hrow
  exact ⟨r, heq⟩

theorem Holds.freeAt_iff (h : s.Holds f) {i : Nat} :
    Card.FreeAt f s.capacity i ↔
      ∃ x ∈ s.table.rows, x.slot = i ∧ x.status = 0 ∧ i ≤ s.capacity := by
  constructor
  · rintro ⟨hi, r, hr, hfree⟩
    have hrow : s.table.row? i = some r.toRow := by rw [h.row, hr, Option.map_some]
    have hindex := Int.ofNat_inj.1 (SlotTable.index_of_row? hrow)
    exact ⟨r.toRow, SlotTable.mem_of_row? hrow, r.slot_toRow.trans hindex,
      r.status_toRow_eq_zero_iff.2 hfree, hi⟩
  · rintro ⟨x, hx, rfl, hfree, hi⟩
    obtain ⟨r, rfl⟩ := h.spelled hx
    rw [r.slot_toRow] at hi ⊢
    exact ⟨hi, r, h.toRow_mem_iff.1 hx, r.status_toRow_eq_zero_iff.1 hfree⟩

theorem Holds.lowest (h : s.Holds f) {x : SlotTable.Row} (hx : s.lowestFree? = some x) :
    Card.FreeAt f s.capacity x.slot ∧ ∀ j, Card.FreeAt f s.capacity j → x.slot ≤ j := by
  obtain ⟨⟨hrow, hfree, hi⟩, hleast⟩ := lowestFree?_eq_some hx
  have hmem := SlotTable.mem_of_row? hrow
  rw [← h.numbered.coe_slot hmem] at hi
  refine ⟨h.freeAt_iff.2 ⟨x, hmem, rfl, hfree, Int.ofNat_le.1 hi⟩, fun j hj => ?_⟩
  obtain ⟨y, hy, rfl, hyfree, -⟩ := h.freeAt_iff.1 hj
  have hle := hleast y hy hyfree
  rw [← h.numbered.coe_slot hmem, ← h.numbered.coe_slot hy] at hle
  exact Int.ofNat_le.1 hle

/-- **A session that holds a map serves it.** -/
theorem Holds.serves (h : s.Holds f) (place : TablePlace) : (Card.table place s).Serves f where
  ordered := s.table.ordered
  numbered := h.numbered
  row := h.row
  read := by
    obtain ⟨records, hread, hord, hmem⟩ := s.readAll_of_spelled fun x hx => h.spelled hx
    refine ⟨records, hread, hord, fun r => ?_⟩
    rw [hmem, h.toRow_mem_iff]
    rfl
  writes := by
    intro record status
    rcases (Card.table place s).write_cases record status with ⟨e, heq, hwhy⟩ |
      ⟨x, data, haccept, hfree, heq⟩
    · rw [heq]
      refine ⟨fun hok => ?_, fun hall => ?_⟩
      · obtain ⟨i, hok⟩ := hok
        cases hok
      · obtain ⟨hfits, i, hi⟩ := hall
        rcases hwhy with hno | hnone
        · exact absurd (acceptWrite_eq_ok_iff.2 ⟨hfits, rfl⟩) (hno _)
        · obtain ⟨x, hx, rfl, hxfree, hle⟩ := h.freeAt_iff.1 hi
          have hlt := lowestFree?_eq_none hnone hx hxfree
          rw [← h.numbered.coe_slot hx] at hlt
          exact absurd hle (Nat.not_le.2 (Int.ofNat_lt.1 hlt))
    · rw [heq]
      exact ⟨fun _ => ⟨(acceptWrite_eq_ok_iff.1 haccept).1, x.slot, (h.lowest hfree).1⟩,
        fun _ => ⟨x.slot, rfl⟩⟩
  lowest := by
    intro record status i hok
    rcases (Card.table place s).write_cases record status with ⟨e, heq, -⟩ |
      ⟨x, data, -, hfree, heq⟩
    · rw [heq] at hok
      cases hok
    · rw [heq] at hok
      obtain rfl := Except.ok.inj hok
      exact h.lowest hfree
  updates := Card.update_eq_ok_iff _
  erases := Card.erase_eq_ok_iff _
  failed := fun _ => Card.ask_of_failed

/-! ### Sessions -/

/-- **Changes within the capacity** of a session: no row comes or goes, and those beyond it stay as
they are. -/
structure Within (s s' : CardSession) : Prop where
  capacity : s'.capacity = s.capacity
  recordSize : s'.recordSize = s.recordSize
  indices : s'.table.rows.map SlotTable.Row.index = s.table.rows.map SlotTable.Row.index
  beyond : ∀ i : Int, s.capacity < i → s'.table.row? i = s.table.row? i

theorem Within.refl (s : CardSession) : s.Within s :=
  ⟨rfl, rfl, rfl, fun _ _ => rfl⟩

theorem Within.trans {s'' : CardSession} (h : s.Within s') (h' : s'.Within s'') :
    s.Within s'' := by
  refine ⟨h'.capacity.trans h.capacity, h'.recordSize.trans h.recordSize,
    h'.indices.trans h.indices, fun i hi => ?_⟩
  rw [h'.beyond i (h.capacity ▸ hi), h.beyond i hi]

theorem within_put {index : Int} (hindex : index ≤ s.capacity) (status : RecordStatus)
    (data : Octets) : s.Within (s.put index status data) := by
  refine ⟨rfl, rfl, SlotTable.map_index_set _ _ _, fun i hi => ?_⟩
  rw [row?_put, if_neg (by omega)]

/-- **One call of a session** that holds the contents of a history: it holds those of the longer
history. -/
theorem Holds.ask {h : List Card.Event} (hs : s.Holds (Card.contents h)) (place : TablePlace)
    (call : Card.Call) :
    ∃ s', ((Card.table place s).ask call).2 = .table place s' ∧ s.Within s' ∧
      s'.Holds (Card.contents
        (h ++
          [.asked (Card.table place s).recordSize call ((Card.table place s).ask call).1])) := by
  rcases (Card.table place s).ask_cases call with ⟨hsame, hnone⟩ |
    ⟨index, r, -, hsome, hput, -, hwhere⟩
  · refine ⟨s, hsame, .refl s, ⟨hs.numbered, fun i => ?_⟩, fun i => ?_⟩
    · rw [Card.contents_of_put?_eq_none hnone, hs.row]
    · rw [Card.contents_of_put?_eq_none hnone]
      exact hs.covered i
  · have hthere : index = r.index ∧ r.index ≤ s.capacity ∧ Card.contents h r.index ≠ none := by
      rcases hwhere with ⟨x, hx, rfl, hslot⟩ | ⟨hindex, hpos, hle⟩
      · obtain ⟨hle, r', hr', -⟩ := (hs.lowest hx).1
        have hmem := SlotTable.mem_of_row? (lowestFree?_eq_some hx).1.1
        rw [← hslot, hs.numbered.coe_slot hmem, hr']
        exact ⟨rfl, hle, Option.some_ne_none r'⟩
      · exact ⟨hindex, hle, hs.covered r.index hpos hle⟩
    obtain ⟨rfl, hle, hsome'⟩ := hthere
    refine ⟨s.put r.index r.status r.data, hput, within_put (Int.ofNat_le.2 hle) _ _,
      ⟨numbered_put hs.numbered _ _ _, fun i => ?_⟩, fun i => ?_⟩
    · rw [Card.contents_of_put?_eq_some hsome, row?_put, hs.row]
      by_cases hi : r.index = i
      · subst hi
        obtain ⟨r', hr'⟩ := Option.ne_none_iff_exists'.1 hsome'
        rw [if_pos rfl, if_pos rfl, hr']
        rfl
      · rw [if_neg (mt Int.ofNat_inj.1 hi), if_neg hi]
    · intro hpos hle
      rw [Card.contents_of_put?_eq_some hsome]
      split
      · exact Option.some_ne_none r
      · exact hs.covered i hpos hle

end CardSession

namespace Card

/-- **A session after calls** holds the contents of its history, and has changed nothing beyond its
capacity. -/
theorem holds_after {h : List Event} {s : CardSession} (hs : s.Holds (contents h))
    (place : TablePlace) (calls : List Call) :
    ∃ s', (table place s).after calls = .table place s' ∧ s.Within s' ∧
      s'.Holds (contents (h ++ (table place s).asked calls)) := by
  induction calls generalizing h s with
  | nil =>
    refine ⟨s, rfl, .refl s, ?_⟩
    show s.Holds (contents (h ++ []))
    rwa [List.append_nil]
  | cons call calls ih =>
    obtain ⟨s₁, hask, hwithin, hs₁⟩ := hs.ask place call
    obtain ⟨s₂, hafter, hwithin', hs₂⟩ := ih hs₁
    refine ⟨s₂, ?_, hwithin.trans hwithin', ?_⟩
    · rw [after, List.foldl_cons, hask]
      exact hafter
    · have hasked : (table place s).asked (call :: calls) =
          Event.asked (table place s).recordSize call ((table place s).ask call).1 ::
            (table place s₁).asked calls := by
        have hsize : (table place s₁).recordSize = (table place s).recordSize := hwithin.recordSize
        unfold asked
        rw [answers, List.zipWith_cons_cons, hask, hsize]
      rw [hasked, List.append_cons]
      exact hs₂

theorem holds_openTable {h : List Event} {t : SlotTable} (ht : t.Holds (contents h))
    (capacity recordSize : Nat) :
    (CardSession.openTable t capacity recordSize).Holds
      (contents (h ++ [.opened capacity recordSize])) := by
  refine ⟨⟨ht.numbered.cover capacity recordSize, fun i => ?_⟩, fun i hpos hle => ?_⟩
  · show (t.cover capacity recordSize).row? i = _
    rw [SlotTable.row?_cover, ht.row, contents_opened, Option.map_or]
    congr 1
    by_cases hi : 1 ≤ i ∧ i ≤ capacity
    · rw [if_pos hi, if_pos (by omega)]
      rfl
    · rw [if_neg hi, if_neg (by omega)]
      rfl
  · rw [contents_opened, if_pos ⟨hpos, hle⟩]
    cases contents h i <;> simp

/-! ### Sessions one after the other -/

/-- One session: how it opens the table, and its calls. -/
structure Visit where
  capacity : Nat
  recordSize : Nat
  calls : List Call

/-- The table that a card leaves behind; a card in memory leaves none. -/
def kept : Card → SlotTable
  | .memory _ => .empty
  | .table _ s => s.table

section visits

variable (place : TablePlace)

/-- The card of a session that has just opened a table. -/
def Visit.card (v : Visit) (t : SlotTable) : Card :=
  .table place (.openTable t v.capacity v.recordSize)

/-- The table when a session is over. -/
def Visit.leave (v : Visit) (t : SlotTable) : SlotTable :=
  ((v.card place t).after v.calls).kept

/-- The table after visits to a given one. -/
def tableFrom (t : SlotTable) (vs : List Visit) : SlotTable :=
  vs.foldl (fun t v => v.leave place t) t

/-- What happens to the slots in visits to a given table. -/
def historyFrom (t : SlotTable) : List Visit → List Event
  | [] => []
  | v :: vs => (v.card place t).history v.calls ++ historyFrom (v.leave place t) vs

/-- **The table after sessions** one after the other on a new database. -/
def tableAfter (vs : List Visit) : SlotTable :=
  tableFrom place .empty vs

/-- What happened to the table in sessions one after the other. -/
def historyAfter (vs : List Visit) : List Event :=
  historyFrom place .empty vs

theorem Visit.holds {t : SlotTable} {h : List Event} (v : Visit) (ht : t.Holds (contents h)) :
    ∃ s, (v.card place t).after v.calls = .table place s ∧ v.leave place t = s.table ∧
      (CardSession.openTable t v.capacity v.recordSize).Within s ∧
      s.Holds (contents (h ++ (v.card place t).history v.calls)) := by
  obtain ⟨s, hafter, hwithin, hs⟩ :=
    holds_after (holds_openTable ht v.capacity v.recordSize) place v.calls
  refine ⟨s, hafter, congrArg kept hafter, hwithin, ?_⟩
  rw [history, List.append_cons]
  exact hs

variable {place}

/-- **Opening** adds the missing rows within the capacity, free and erased, and changes none. -/
theorem Visit.row?_card (v : Visit) (t : SlotTable) (i : Int) :
    (v.card place t).row? i =
      (t.row? i).or (if 1 ≤ i ∧ i ≤ v.capacity then some (.erased i v.recordSize) else none) :=
  t.row?_cover v.capacity v.recordSize i

theorem Visit.row?_card_of_lt (v : Visit) (t : SlotTable) {i : Int} (hi : v.capacity < i) :
    (v.card place t).row? i = t.row? i := by
  rw [v.row?_card, if_neg (by omega), Option.or_none]

theorem Visit.holds_leave {t : SlotTable} {h : List Event} (v : Visit)
    (ht : t.Holds (contents h)) :
    (v.leave place t).Holds (contents (h ++ (v.card place t).history v.calls)) := by
  obtain ⟨s, -, hleave, -, hs⟩ := v.holds place ht
  exact hleave ▸ hs.toHolds

/-- **The table has the contents of the whole history.** -/
theorem holds_tableFrom {t : SlotTable} {h : List Event} (ht : t.Holds (contents h))
    (vs : List Visit) :
    (tableFrom place t vs).Holds (contents (h ++ historyFrom place t vs)) := by
  induction vs generalizing t h with
  | nil =>
    rw [historyFrom, List.append_nil]
    exact ht
  | cons v vs ih =>
    show (tableFrom place (v.leave place t) vs).Holds _
    rw [historyFrom, ← List.append_assoc]
    exact ih (v.holds_leave ht)

theorem holds_tableAfter (vs : List Visit) :
    (tableAfter place vs).Holds (contents (historyAfter place vs)) :=
  holds_tableFrom (h := []) SlotTable.holds_empty vs

theorem tableAfter_append (vs ws : List Visit) :
    tableAfter place (vs ++ ws) = tableFrom place (tableAfter place vs) ws := by
  unfold tableAfter tableFrom
  exact List.foldl_append

theorem row?_tableFrom_of_lt {t : SlotTable} {h : List Event} (ht : t.Holds (contents h))
    {ws : List Visit} {i : Int}
    (hi : ∀ w ∈ ws, w.capacity < i) : (tableFrom place t ws).row? i = t.row? i := by
  induction ws generalizing t h with
  | nil => rfl
  | cons w ws ih =>
    obtain ⟨s, -, hleave, hwithin, -⟩ := w.holds place ht
    have hsmall : w.capacity < i := hi w List.mem_cons_self
    have hopen : (w.card place t).row? i = t.row? i := w.row?_card_of_lt t hsmall
    show (tableFrom place (w.leave place t) ws).row? i = _
    rw [ih (w.holds_leave ht) fun w' hw' => hi w' (List.mem_cons_of_mem _ hw'), hleave,
      hwithin.beyond i hsmall]
    exact hopen

/-- A row as a session leaves it is still there after sessions of a smaller capacity. -/
theorem row?_tableAfter_of_lt (vs : List Visit) (v : Visit) {ws : List Visit} {i : Int}
    (hi : ∀ w ∈ ws, w.capacity < i) :
    (tableAfter place (vs ++ v :: ws)).row? i = (v.leave place (tableAfter place vs)).row? i := by
  rw [tableAfter_append]
  exact row?_tableFrom_of_lt (v.holds_leave (holds_tableAfter vs)) hi

theorem Serves.mem_readAll_iff {c : Card} {f : Nat → Option CardRecord} (h : c.Serves f)
    {records : List CardRecord} (hread : c.readAll = .ok records) (r : CardRecord) :
    r ∈ records ↔ c.row? r.index = some r.toRow ∧ ¬ r.isFree ∧ r.index ≤ c.capacity := by
  obtain ⟨records', hread', -, hmem⟩ := h.read
  obtain rfl := Except.ok.inj (hread.symm.trans hread')
  have hrow : c.row? r.index = some r.toRow ↔ f r.index = some r := by
    rw [h.row, Option.map_eq_some_iff]
    exact ⟨fun ⟨r', hr', heq⟩ => CardRecord.toRow_injective heq ▸ hr', fun hr => ⟨r, hr, rfl⟩⟩
  rw [hmem, hrow]

/-- **What a session reads at first** was there before: what its opening has added is free. -/
theorem Visit.mem_readAll_card {t : SlotTable} {h : List Event} (v : Visit)
    (ht : t.Holds (contents h)) {records : List CardRecord}
    (hread : (v.card place t).readAll = .ok records) (r : CardRecord) :
    r ∈ records ↔ t.row? r.index = some r.toRow ∧ ¬ r.isFree ∧ r.index ≤ v.capacity := by
  have hserves := (holds_openTable ht v.capacity v.recordSize).serves place
  rw [hserves.mem_readAll_iff hread r]
  refine and_congr_left fun hocc => ?_
  have hopen : (Card.table place (.openTable t v.capacity v.recordSize)).row? r.index = _ :=
    v.row?_card t r.index
  rw [hopen]
  cases hrow : t.row? r.index with
  | some x => rw [Option.some_or]
  | none =>
    rw [Option.none_or]
    refine ⟨fun hadded => ?_, fun hnone => (nomatch hnone)⟩
    split at hadded
    · have heq : (CardRecord.erased r.index v.recordSize).toRow = r.toRow :=
        Option.some.inj hadded
      rw [← CardRecord.toRow_injective heq] at hocc
      exact absurd rfl hocc.1
    · cases hadded

/-- **Sessions on one table.**  After any sessions, a session with any calls serves the contents of
the whole history.  Opening has added the missing rows within the capacity, free and erased, and
changed none; the calls have changed nothing beyond the capacity; and a record that sessions of a
smaller capacity cannot reach is read again as it was when the capacity has grown. -/
theorem visits_serve (place : TablePlace) (vs : List Visit) (v : Visit) :
    let t := tableAfter place vs
    let c := (v.card place t).after v.calls
    (c.capacity = v.capacity ∧ c.recordSize = v.recordSize) ∧
    c.Serves (contents (historyAfter place vs ++ (v.card place t).history v.calls)) ∧
    (∀ i : Int, (v.card place t).row? i =
      (t.row? i).or (if 1 ≤ i ∧ i ≤ v.capacity then some (.erased i v.recordSize) else none)) ∧
    (∀ i : Int, v.capacity < i → c.row? i = t.row? i) ∧
    ∀ (ws : List Visit) (v' : Visit) (r : CardRecord) (records records' : List CardRecord),
      r.index ≤ v.capacity → (∀ w ∈ ws, w.capacity < r.index) → r.index ≤ v'.capacity →
      c.readAll = .ok records →
      (v'.card place (tableAfter place (vs ++ v :: ws))).readAll = .ok records' →
      (r ∈ records' ↔ r ∈ records) := by
  intro t c
  have ht : t.Holds (contents (historyAfter place vs)) := holds_tableAfter vs
  obtain ⟨s, hafter, hleave, hwithin, hs⟩ := v.holds place ht
  have hc : c = .table place s := hafter
  have hsize : c.capacity = v.capacity ∧ c.recordSize = v.recordSize :=
    hc ▸ ⟨hwithin.capacity, hwithin.recordSize⟩
  have hserves : c.Serves
      (contents (historyAfter place vs ++ (v.card place t).history v.calls)) :=
    hc ▸ hs.serves place
  refine ⟨hsize, hserves, v.row?_card t, fun i hi => ?_, ?_⟩
  · have hbeyond : c.row? i = (v.card place t).row? i := hc ▸ hwithin.beyond i hi
    rw [hbeyond, v.row?_card_of_lt t hi]
  · intro ws v' r records records' hle hsmall hle' hread hread'
    have hback : (tableAfter place (vs ++ v :: ws)).row? r.index = c.row? r.index := by
      rw [row?_tableAfter_of_lt vs v fun w hw => Int.ofNat_lt.2 (hsmall w hw), hleave, hc]
      rfl
    rw [v'.mem_readAll_card (holds_tableAfter _) hread', hserves.mem_readAll_iff hread, hback]
    simp only [hle, hle', hsize.1]

/-- A record in the second slot outlives a session that knows one slot only and erases it. -/
theorem visits_serve_regrown :
    let wide : Visit := ⟨2, 1, [.write [7] .read, .write [8] .sent]⟩
    let narrow : Visit := ⟨1, 3, [.erase 1]⟩
    let again : Visit := ⟨2, 1, []⟩
    ((wide.card (.named "slots") .empty).after wide.calls).readAll =
        .ok [⟨1, .read, [7]⟩, ⟨2, .sent, [8]⟩] ∧
      (again.card (.named "slots") (tableAfter (.named "slots") [wide, narrow])).readAll =
        .ok [⟨2, .sent, [8]⟩] ∧
      ((⟨2, .sent, [8]⟩ : CardRecord) ∈ [(⟨2, .sent, [8]⟩ : CardRecord)] ↔
        (⟨2, .sent, [8]⟩ : CardRecord) ∈
          [(⟨1, .read, [7]⟩ : CardRecord), ⟨2, .sent, [8]⟩]) := by
  intro wide narrow again
  have hread : ((wide.card (.named "slots") .empty).after wide.calls).readAll =
      .ok [⟨1, .read, [7]⟩, ⟨2, .sent, [8]⟩] := rfl
  have hagain : (again.card (.named "slots") (tableAfter (.named "slots") [wide, narrow])).readAll =
      .ok [⟨2, .sent, [8]⟩] := rfl
  have hkept := (visits_serve (.named "slots") [] wide).2.2.2.2 [narrow] again ⟨2, .sent, [8]⟩
  refine ⟨hread, hagain, hkept _ _ (by decide) ?_ (by decide) hread hagain⟩
  intro w hw
  obtain rfl := List.mem_singleton.1 hw
  decide

end visits

/-! ### The shelf between two sessions -/

theorem after_table (place : TablePlace) (s : CardSession) (calls : List Call) :
    ∃ s', (table place s).after calls = .table place s' := by
  induction calls generalizing s with
  | nil => exact ⟨s, rfl⟩
  | cons call calls ih =>
    rw [after, List.foldl_cons]
    rcases (table place s).ask_cases call with ⟨hsame, -⟩ | ⟨i, r, -, -, hput, -⟩
    · rw [hsame]
      exact ih s
    · rw [hput]
      exact ih _

/-- **A shelf gives the next session the table that the last one left.** -/
theorem save_reopens {url : String} {place : TablePlace} {shelf : TableShelf} {t : SlotTable}
    (hurl : TablePlace.ofUrl? url = some place) (hown : place ≠ .own)
    (ht : shelf.find? place = some t) (v : Visit) :
    ofSettings ⟨.sqlite, v.capacity, v.recordSize, some url⟩ shelf = .ok (v.card place t) ∧
      (((v.card place t).after v.calls).save shelf).find? place = some (v.leave place t) := by
  obtain ⟨s, hafter⟩ := after_table place (.openTable t v.capacity v.recordSize) v.calls
  have hcard : (v.card place t).after v.calls = .table place s := hafter
  have hleave : v.leave place t = s.table := congrArg kept hafter
  refine ⟨?_, ?_⟩
  · simp only [ofSettings, openTable, hurl, ht]
    rfl
  · rw [hcard, hleave]
    cases place with
    | own => exact absurd rfl hown
    | named name => simp only [save, TableShelf.find?, Registry.get?_insert_self, Option.getD_some]
    | file path =>
      simp only [TableShelf.find?] at ht
      split at ht
      · next hdir =>
        simp only [save, TableShelf.find?, if_pos hdir, Registry.get?_insert_self, Option.getD_some]
      · cases ht

end Card

end ShortMessage
