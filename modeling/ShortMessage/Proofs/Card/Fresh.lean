import ShortMessage.Proofs.Card.Sessions

/-!
# A new card is a map

A card that is new, of either backend, is a map from the indices 1 to its capacity, whatever is
called and whether it succeeds: in a slot stands what was last put there, and a slot in which
nothing was put, or which was erased last, is free and full of the erased octet.

* `New`, `New.of_ofSettings`: a card in memory, or one in an empty table;
* `Mirrors.serves`: a card in memory serves what the session that mirrors it holds;
* `freeSlots_add_length`: the free slots and the records that are read are all slots;
* `put?_asked`: what is put into a card is in order;
* `exists_mirrored`, `New.exists_session`: a new card after calls, and a session that mirrors it;
* `new_serves`: a new card after any calls.
-/

namespace ShortMessage

/-! ### The card in memory -/

namespace Mirrors

variable {m : MemoryCard} {s : CardSession}

/-- **A card in memory serves** what the session that mirrors it holds. -/
theorem serves (h : Mirrors m s) {f : Nat → Option CardRecord} (hs : s.Holds f) :
    (Card.memory m).Serves f := by
  have hserves := hs.serves .own
  have hrows : (Card.memory m).rows = (Card.table .own s).rows := h.rows.symm
  have hwrite : ∀ record status, ((Card.memory m).write record status).1 =
      ((Card.table .own s).write record status).1 :=
    fun record status => (h.write record status).1.symm
  have hread : (Card.memory m).readAll = (Card.table .own s).readAll := h.readAll.symm
  have hcapacity : (Card.memory m).capacity = (Card.table .own s).capacity := h.capacity.symm
  have hsize : (Card.memory m).recordSize = (Card.table .own s).recordSize := h.recordSize.symm
  refine ⟨hrows ▸ hserves.ordered, hrows ▸ hserves.numbered, fun i => ?_, ?_,
    fun record status => ?_, fun record status i => ?_,
    Card.update_eq_ok_iff _, Card.erase_eq_ok_iff _, fun _ => Card.ask_of_failed⟩
  · unfold Card.row?
    rw [hrows]
    exact hserves.row i
  · rw [hread, hcapacity]
    exact hserves.read
  · rw [hwrite, hcapacity, hsize]
    exact hserves.writes record status
  · rw [hwrite, hcapacity]
    exact hserves.lowest record status i

theorem freeSlots_eq (h : Mirrors m s) (place : TablePlace) :
    (Card.table place s).freeSlots = (Card.memory m).freeSlots := by
  show s.table.rows.countP _ = m.slots.countP _
  rw [h.rows, List.countP_map]
  refine List.countP_congr fun slot _ => ?_
  simp

/-- **The free slots and the records that are read** are all slots. -/
theorem freeSlots_add_length (h : Mirrors m s) {records : List CardRecord}
    (hread : (Card.memory m).readAll = .ok records) :
    (Card.memory m).freeSlots + records.length = m.capacity := by
  have hrecords : m.slots.filter (!·.isFree) = records := Except.ok.inj hread
  rw [← h.length, ← hrecords, ← List.countP_eq_length_filter]
  show m.slots.countP CardRecord.isFree + _ = _
  rw [List.length_eq_countP_add_countP CardRecord.isFree]
  congr 2
  funext slot
  simp

end Mirrors

namespace Card

/-- **A new card**: in memory, or in an empty table. -/
inductive New (capacity recordSize : Nat) : Card → Prop
  | memory : New capacity recordSize (.memory (.new capacity recordSize))
  | table (place : TablePlace) :
    New capacity recordSize (.table place (.openTable .empty capacity recordSize))

theorem eq_empty_of_find?_ofDirectories {directories : List String} {place : TablePlace}
    {t : SlotTable} (h : (TableShelf.ofDirectories directories).find? place = some t) :
    t = .empty := by
  cases place with
  | own => exact (Option.some.inj h).symm
  | named name => exact (Option.some.inj h).symm
  | file path =>
    simp only [TableShelf.find?] at h
    split at h
    · exact (Option.some.inj h).symm
    · cases h

/-- The cards that are opened while there is no table yet. -/
theorem New.of_ofSettings {settings : CardSettings} {directories : List String} {c : Card}
    (h : ofSettings settings (.ofDirectories directories) = .ok c) :
    New settings.capacity settings.recordSize c := by
  unfold ofSettings at h
  split at h
  · obtain rfl := Except.ok.inj h
    exact .memory
  · cases h
  · unfold openTable at h
    split at h
    · cases h
    · next place _ =>
      split at h
      · cases h
      · next kept hkept =>
        obtain rfl := Except.ok.inj h
        rw [eq_empty_of_find?_ofDirectories hkept]
        exact .table place

/-! ### Calls of cards that are alike -/

theorem Alike.after {c d : Card} (h : Alike c d) (calls : List Call) :
    Alike (c.after calls) (d.after calls) := by
  induction calls generalizing c d with
  | nil => exact h
  | cons call calls ih => exact ih (h.ask call).2

theorem Alike.history {c d : Card} (h : Alike c d) (calls : List Call) :
    c.history calls = d.history calls := by
  have hanswers := h.answers calls
  obtain ⟨place, hm⟩ := h
  have hcapacity : (Card.table place _).capacity = (Card.memory _).capacity := hm.capacity
  have hsize : (Card.table place _).recordSize = (Card.memory _).recordSize := hm.recordSize
  unfold Card.history asked
  rw [hanswers, hcapacity, hsize]

/-- **What is put into a card is in order.** -/
theorem put?_asked {c : Card} {calls : List Call} {e : Event} {r : CardRecord}
    (he : e ∈ c.asked calls) (hr : e.put? = some r) : r.Filled c.recordSize := by
  induction calls generalizing c with
  | nil => cases he
  | cons call calls ih =>
    have hsize := recordSize_ask c call
    unfold asked at he ih
    rw [answers, List.zipWith_cons_cons] at he
    rcases List.mem_cons.1 he with rfl | he
    · rcases c.ask_cases call with ⟨-, hnone⟩ | ⟨-, r', -, hsome, -, hfilled, -⟩
      · rw [hnone] at hr
        cases hr
      · rw [hsome] at hr
        exact Option.some.inj hr ▸ hfilled
    · rw [← hsize] at he ⊢
      exact ih he

theorem filled_contents {c : Card} {calls : List Call} {i : Nat} {r : CardRecord}
    (hr : contents (c.history calls) i = some r) : r.Filled c.recordSize := by
  unfold contents at hr
  rcases Option.or_eq_some_iff.1 hr with hlast | ⟨-, hcreated⟩
  · have hmem := List.mem_reverse.1 (List.mem_of_find?_eq_some hlast)
    obtain ⟨e, he, hput⟩ := List.mem_filterMap.1 hmem
    rcases List.mem_cons.1 he with rfl | he
    · cases hput
    · exact put?_asked he hput
  · obtain ⟨e, he, hcreated⟩ := List.exists_of_findSome?_eq_some hcreated
    rcases List.mem_cons.1 he with rfl | he
    · simp only [Event.created?] at hcreated
      split at hcreated
      · exact Option.some.inj hcreated ▸ CardRecord.filled_erased i c.recordSize
      · cases hcreated
    · obtain ⟨n, hn, rfl⟩ := List.mem_iff_getElem.1 he
      simp only [asked, List.getElem_zipWith, Event.created?] at hcreated
      cases hcreated

/-! ### A new card after calls -/

theorem alike_new (place : TablePlace) (capacity recordSize : Nat) :
    Alike (.memory (.new capacity recordSize))
      (.table place (.openTable .empty capacity recordSize)) :=
  .intro place (mirrors_new capacity recordSize)

theorem exists_mirrored (place : TablePlace) (capacity recordSize : Nat) (calls : List Call) :
    ∃ m s, Mirrors m s ∧ (Card.memory (.new capacity recordSize)).after calls = .memory m ∧
      (Card.table place (.openTable .empty capacity recordSize)).after calls = .table place s ∧
      (CardSession.openTable .empty capacity recordSize).Within s ∧
      s.Holds (contents
        ((Card.table place (.openTable .empty capacity recordSize)).history calls)) := by
  obtain ⟨s, hafter, -, hwithin, hs⟩ :=
    (Visit.mk capacity recordSize calls).holds place (h := []) SlotTable.holds_empty
  have hafter' : (Card.table place (.openTable .empty capacity recordSize)).after calls =
    .table place s := hafter
  have halike := (alike_new place capacity recordSize).after calls
  generalize (Card.memory (.new capacity recordSize)).after calls = c at halike
  rw [hafter'] at halike
  obtain ⟨_, hmirrors⟩ := halike
  exact ⟨_, s, hmirrors, rfl, hafter', hwithin, hs⟩

/-- A new card after calls, beside a session that mirrors it and holds the contents of its
history. -/
theorem New.exists_session {capacity recordSize : Nat} {c₀ : Card} (h : New capacity recordSize c₀)
    (calls : List Call) :
    ∃ m s place, Mirrors m s ∧
      (c₀.after calls = .memory m ∨ c₀.after calls = .table place s) ∧
      (CardSession.openTable .empty capacity recordSize).Within s ∧
      s.Holds (contents (c₀.history calls)) := by
  cases h with
  | memory =>
    obtain ⟨m, s, hmirrors, hmemory, -, hwithin, hs⟩ :=
      exists_mirrored .own capacity recordSize calls
    rw [← (alike_new .own capacity recordSize).history calls] at hs
    exact ⟨m, s, .own, hmirrors, Or.inl hmemory, hwithin, hs⟩
  | table place =>
    obtain ⟨m, s, hmirrors, -, htable, hwithin, hs⟩ :=
      exists_mirrored place capacity recordSize calls
    exact ⟨m, s, place, hmirrors, Or.inr htable, hwithin, hs⟩

theorem New.size {capacity recordSize : Nat} {c : Card} (h : New capacity recordSize c) :
    c.capacity = capacity ∧ c.recordSize = recordSize := by
  cases h <;> exact ⟨rfl, rfl⟩

theorem size_after (c : Card) (calls : List Call) :
    (c.after calls).capacity = c.capacity ∧ (c.after calls).recordSize = c.recordSize := by
  induction calls generalizing c with
  | nil => exact ⟨rfl, rfl⟩
  | cons call calls ih =>
    obtain ⟨hcapacity, hsize⟩ := ih (c.ask call).2
    exact ⟨hcapacity.trans (capacity_ask c call), hsize.trans (recordSize_ask c call)⟩

theorem contents_eq_some_iff {H : List Event} {i : Nat} {r : CardRecord} (hocc : ¬ r.isFree) :
    contents H i = some r ↔ lastPut? H i = some r := by
  have hcreated : ¬ H.findSome? (Event.created? i) = some r := by
    intro h
    obtain ⟨e, -, he⟩ := List.exists_of_findSome?_eq_some h
    cases e with
    | asked size call answer => cases he
    | opened capacity recordSize =>
      simp only [Event.created?] at he
      split at he
      · rw [← Option.some.inj he] at hocc
        exact hocc rfl
      · cases he
  simp [contents, Option.or_eq_some_iff, hcreated]

section new

variable {capacity recordSize : Nat} {c₀ : Card} (h : New capacity recordSize c₀)
  (calls : List Call)
include h

theorem New.serves : (c₀.after calls).Serves (contents (c₀.history calls)) := by
  obtain ⟨m, s, place, hmirrors, hc | hc, -, hs⟩ := h.exists_session calls
  · rw [hc]
    exact hmirrors.serves hs
  · rw [hc]
    exact hs.serves place

/-- **There are slots from 1 to the capacity**, and in one of them stands what was last put there,
if anything. -/
theorem New.contents_eq (i : Nat) :
    contents (c₀.history calls) i =
      if 1 ≤ i ∧ i ≤ capacity then
        some ((lastPut? (c₀.history calls) i).getD (.erased i recordSize))
      else none := by
  obtain ⟨rfl, rfl⟩ := h.size
  split
  · next hi =>
    have hcreated : (c₀.history calls).findSome? (Event.created? i) =
        some (.erased i c₀.recordSize) := by
      rw [history, List.findSome?_cons_of_isSome] <;> simp only [Event.created?, if_pos hi]
      rfl
    rw [contents, hcreated]
    cases lastPut? (c₀.history calls) i <;> rfl
  · next hi =>
    -- no row comes or goes after the opening
    obtain ⟨m, s, place, -, -, hwithin, hs⟩ := h.exists_session calls
    have hopen : (SlotTable.cover .empty c₀.capacity c₀.recordSize).row? i = none := by
      rw [SlotTable.row?_cover, if_neg (by omega)]
      rfl
    have hnone : s.table.row? i = none := by
      rw [SlotTable.row?_eq_none_iff, hwithin.indices]
      exact SlotTable.row?_eq_none_iff.1 hopen
    rw [hs.row] at hnone
    exact Option.map_eq_none_iff.1 hnone

theorem New.freeSlots_add_length {records : List CardRecord}
    (hread : (c₀.after calls).readAll = .ok records) :
    (c₀.after calls).freeSlots + records.length = capacity := by
  obtain ⟨m, s, place, hmirrors, hc, hwithin, -⟩ := h.exists_session calls
  have hm : m.capacity = capacity := hmirrors.capacity ▸ hwithin.capacity
  rw [← hm]
  rcases hc with hc | hc
  · rw [hc] at hread ⊢
    exact hmirrors.freeSlots_add_length hread
  · rw [hc] at hread ⊢
    have hread' : (Card.memory m).readAll = .ok records := hmirrors.readAll.symm.trans hread
    rw [hmirrors.freeSlots_eq]
    exact hmirrors.freeSlots_add_length hread'

end new

/-- **A new card is a map** from the indices 1 to its capacity, after any calls.  In a slot stands
what was last put there by a call that succeeded, padded to the size of a slot; any other slot is
free and full of the erased octet.  The records that are read are those put last into occupied
slots, in strictly ascending order, and with the free slots they are all slots. -/
theorem new_serves {capacity recordSize : Nat} {c₀ : Card} (h : New capacity recordSize c₀)
    (calls : List Call) :
    let c := c₀.after calls
    let H := c₀.history calls
    (c.capacity = capacity ∧ c.recordSize = recordSize) ∧
    c.Serves (contents H) ∧
    (∀ i, contents H i =
      if 1 ≤ i ∧ i ≤ capacity then some ((lastPut? H i).getD (.erased i recordSize)) else none) ∧
    (∀ i r, contents H i = some r → r.Filled recordSize) ∧
    ∃ records, c.readAll = .ok records ∧ records.Pairwise (·.index < ·.index) ∧
      (∀ r, r ∈ records ↔ lastPut? H r.index = some r ∧ ¬ r.isFree) ∧
      c.freeSlots + records.length = capacity := by
  intro c H
  obtain ⟨hcapacity, hsize⟩ := h.size
  obtain ⟨hcapacity', hsize'⟩ := c₀.size_after calls
  have hserves : c.Serves (contents H) := h.serves calls
  obtain ⟨records, hread, hord, hmem⟩ := hserves.read
  refine ⟨⟨hcapacity'.trans hcapacity, hsize'.trans hsize⟩, hserves, h.contents_eq calls,
    fun i r hr => hsize ▸ filled_contents hr, records, hread, hord, fun r => ?_,
    h.freeSlots_add_length calls hread⟩
  rw [hmem, show c.capacity = capacity from hcapacity'.trans hcapacity]
  constructor
  · rintro ⟨hr, hocc, -⟩
    exact ⟨(contents_eq_some_iff hocc).1 hr, hocc⟩
  · rintro ⟨hlast, hocc⟩
    have hr := (contents_eq_some_iff hocc).2 hlast
    refine ⟨hr, hocc, ?_⟩
    have hcontents := h.contents_eq calls r.index
    rw [hr] at hcontents
    split at hcontents
    · next hi => exact hi.2
    · cases hcontents

/-- A card of two slots: the second is updated while it is free, the first is written and erased. -/
theorem new_serves_erased :
    let c₀ : Card := .memory (.new 2 3)
    let calls : List Call := [.update 2 .sent [8, 9], .write [7] .unread, .update 1 .free [],
      .erase 3, .write [] .read]
    New 2 3 c₀ ∧ (c₀.after calls).Serves (contents (c₀.history calls)) ∧
      contents (c₀.history calls) 1 = some ⟨1, .free, [255, 255, 255]⟩ ∧
      contents (c₀.history calls) 2 = some ⟨2, .sent, [8, 9, 255]⟩ := by
  intro c₀ calls
  have hnew : New 2 3 c₀ := .memory
  have hserves := new_serves hnew calls
  exact ⟨hnew, hserves.2.1, rfl, rfl⟩

end Card

end ShortMessage
