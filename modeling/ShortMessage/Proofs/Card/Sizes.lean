import Mathlib.Data.List.Induction
import ShortMessage.Proofs.Card.Fresh

/-!
# Records of several sizes

A table does not keep the size of its records: each session brings one of its own, and opening
leaves the rows that are there as they are.  So a record is read in the size of the session that put
it there last, which need not be the size of the session that reads it.

* `lastPut?_append`: of two histories the later one counts;
* `PutLastBy`: the session that put a record into its slot, after which no other did;
* `exists_putLastBy`: every record that was put was put last by some session;
* `records_keep_size`: what a session reads has the size of the session that put it last;
* `reads_earlier_size`: a record that is longer than the session reading it would write.
-/

namespace ShortMessage.Card

/-! ### The session that put a record last -/

theorem lastPut?_append (h h' : List Event) (i : Nat) :
    lastPut? (h ++ h') i = (lastPut? h' i).or (lastPut? h i) := by
  unfold lastPut?
  rw [List.filterMap_append, List.reverse_append, List.find?_append]

theorem filled_of_lastPut? {c : Card} {calls : List Call} {i : Nat} {r : CardRecord}
    (h : lastPut? (c.history calls) i = some r) : r.index = i ∧ r.Filled c.recordSize := by
  have hmem := List.mem_reverse.1 (List.mem_of_find?_eq_some h)
  obtain ⟨e, he, hput⟩ := List.mem_filterMap.1 hmem
  refine ⟨by simpa using List.find?_some h, ?_⟩
  rcases List.mem_cons.1 he with rfl | he
  · cases hput
  · exact put?_asked he hput

section visits

variable (place : TablePlace)

/-- What happens in a session on a table. -/
def Visit.events (v : Visit) (t : SlotTable) : List Event :=
  (v.card place t).history v.calls

/-- **The session that put a record last** into the slot of an index: it left the record there, and
the sessions after it put nothing there. -/
def PutLastBy (vs : List Visit) (i : Nat) (r : CardRecord) (w : Visit) : Prop :=
  ∃ before after, vs = before ++ w :: after ∧
    lastPut? (w.events place (tableAfter place before)) i = some r ∧
    lastPut? (historyFrom place (tableAfter place (before ++ [w])) after) i = none

variable {place}

theorem historyFrom_append (t : SlotTable) (vs ws : List Visit) :
    historyFrom place t (vs ++ ws) =
      historyFrom place t vs ++ historyFrom place (tableFrom place t vs) ws := by
  induction vs generalizing t with
  | nil => rfl
  | cons v vs ih =>
    rw [List.cons_append, historyFrom, historyFrom, ih, List.append_assoc]
    rfl

theorem historyAfter_concat (vs : List Visit) (v : Visit) :
    historyAfter place (vs ++ [v]) =
      historyAfter place vs ++ v.events place (tableAfter place vs) := by
  unfold historyAfter
  rw [historyFrom_append, historyFrom, historyFrom, List.append_nil]
  rfl

/-- A session in which nothing was put there changes nothing about it. -/
theorem PutLastBy.concat {vs : List Visit} {v w : Visit} {i : Nat} {r : CardRecord}
    (h : PutLastBy place vs i r w)
    (hv : lastPut? (v.events place (tableAfter place vs)) i = none) :
    PutLastBy place (vs ++ [v]) i r w := by
  obtain ⟨before, after, rfl, hw, hafter⟩ := h
  refine ⟨before, after ++ [v], by simp, hw, ?_⟩
  have htable : tableFrom place (tableAfter place (before ++ [w])) after =
      tableAfter place (before ++ w :: after) := by
    rw [List.append_cons before w after, tableAfter_append (before ++ [w]) after]
  rw [historyFrom_append, lastPut?_append, hafter, Option.or_none, htable, historyFrom, historyFrom,
    List.append_nil]
  exact hv

/-- **Every record that was put was put last by some session.** -/
theorem exists_putLastBy {vs : List Visit} {i : Nat} {r : CardRecord}
    (h : lastPut? (historyAfter place vs) i = some r) : ∃ w, PutLastBy place vs i r w := by
  induction vs using List.reverseRecOn with
  | nil => cases h
  | append_singleton vs v ih =>
    rw [historyAfter_concat, lastPut?_append] at h
    cases hv : lastPut? (v.events place (tableAfter place vs)) i with
    | some x =>
      rw [hv, Option.some_or] at h
      exact ⟨v, vs, [], rfl, hv.trans h, rfl⟩
    | none =>
      rw [hv, Option.none_or] at h
      obtain ⟨w, hw⟩ := ih h
      exact ⟨w, hw.concat hv⟩

theorem PutLastBy.length_eq {vs : List Visit} {i : Nat} {r : CardRecord} {w : Visit}
    (h : PutLastBy place vs i r w) : w ∈ vs ∧ r.data.length = w.recordSize := by
  obtain ⟨before, after, rfl, hw, -⟩ := h
  exact ⟨by simp, (filled_of_lastPut? hw).2.length⟩

/-! ### What is read -/

/-- **Records keep their size.**  What a session reads has the size of the session that put it last,
be it this one or an earlier one.  So a record that this session itself has put there has its size,
and all records have it if the sessions before were of the same size. -/
theorem records_keep_size (place : TablePlace) (vs : List Visit) (v : Visit) :
    let c := (v.card place (tableAfter place vs)).after v.calls
    ∃ records, c.readAll = .ok records ∧ ∀ r ∈ records,
      (∃ w, PutLastBy place (vs ++ [v]) r.index r w ∧ r.data.length = w.recordSize) ∧
      (lastPut? (v.events place (tableAfter place vs)) r.index ≠ none →
        r.data.length = c.recordSize) ∧
      ((∀ w ∈ vs, w.recordSize = v.recordSize) → r.data.length = c.recordSize) := by
  intro c
  obtain ⟨s, hafter, -, hwithin, hs⟩ := v.holds place (holds_tableAfter vs)
  have hc : c = .table place s := hafter
  have hsize : c.recordSize = v.recordSize := hc ▸ hwithin.recordSize
  obtain ⟨records, hread, -, hmem⟩ := (hs.serves place).read
  refine ⟨records, hc ▸ hread, fun r hr => ?_⟩
  obtain ⟨hcontents, hocc, -⟩ := (hmem r).1 hr
  have hlast : lastPut? (historyAfter place (vs ++ [v])) r.index = some r := by
    rw [historyAfter_concat]
    exact (contents_eq_some_iff hocc).1 hcontents
  obtain ⟨w, hw⟩ := exists_putLastBy hlast
  refine ⟨⟨w, hw, hw.length_eq.2⟩, fun hown => ?_, fun hall => ?_⟩
  · -- what this session puts counts before everything earlier
    obtain ⟨x, hx⟩ := Option.ne_none_iff_exists'.1 hown
    rw [historyAfter_concat, lastPut?_append, hx, Option.some_or] at hlast
    obtain rfl := Option.some.inj hlast
    exact (filled_of_lastPut? hx).2.length.trans hsize.symm
  · obtain ⟨hmem, hlength⟩ := hw.length_eq
    rw [hlength, hsize]
    rcases List.mem_append.1 hmem with hmem | hmem
    · exact hall w hmem
    · rw [List.mem_singleton.1 hmem]

/-- **A record of an earlier size**: three octets, read in a session whose records have two. -/
theorem reads_earlier_size :
    let wide : Visit := ⟨1, 3, [.write [7] .read]⟩
    let narrow : Visit := ⟨1, 2, []⟩
    let c := (narrow.card (.named "slots") (tableAfter (.named "slots") [wide])).after narrow.calls
    (c.recordSize = 2 ∧ c.readAll = .ok [⟨1, .read, [7, 255, 255]⟩]) ∧
      ¬ ∀ (vs : List Visit) (v : Visit) (records : List CardRecord),
        ((v.card (.named "slots") (tableAfter (.named "slots") vs)).after v.calls).readAll =
          .ok records →
        ∀ r ∈ records, r.data.length = v.recordSize := by
  intro wide narrow c
  have hread : c.readAll = .ok [⟨1, .read, [7, 255, 255]⟩] := rfl
  refine ⟨⟨rfl, hread⟩, fun hall => ?_⟩
  have hlength := hall [wide] narrow _ hread ⟨1, .read, [7, 255, 255]⟩ List.mem_cons_self
  cases hlength

end visits

end ShortMessage.Card
