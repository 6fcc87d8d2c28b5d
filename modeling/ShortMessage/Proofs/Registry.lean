import Mathlib.Data.List.Perm.Basic
import ShortMessage.Registry

/-!
# Registries: entries and look-up

A registry is a finite map, so an entry is in the list exactly when a look-up finds it
(`mem_entries_iff`), and taking one entry out leaves the others (`entries_perm_of_get?`).

* `get?_retain`: what a look-up finds after a test has been applied to all entries;
* `entries_perm_of_get?`, `entries_erase_of_get?_none`: the entries without one key;
* `entries_perm_of_get?_eq`: the look-ups say what the entries are;
* `erase_insert_self`, `insert_insert_self`: of two changes under one key the second counts.
-/

namespace ShortMessage.Registry

variable {κ α : Type}

theorem length_keys (r : Registry κ α) : r.keys.length = r.size :=
  List.length_map _

theorem nodup_entries (r : Registry κ α) : r.entries.Nodup :=
  r.distinct.imp fun hne heq => hne (congrArg Prod.fst heq)

variable [DecidableEq κ]

theorem mem_entries_iff {r : Registry κ α} {k : κ} {a : α} :
    (k, a) ∈ r.entries ↔ r.get? k = some a := by
  obtain ⟨entries, distinct⟩ := r
  induction entries with
  | nil => simp [get?]
  | cons e es ih =>
    obtain ⟨hhead, htail⟩ := List.pairwise_cons.1 distinct
    have ih := ih htail
    simp only [get?] at ih ⊢
    by_cases hk : e.1 = k
    · rw [List.find?_cons_of_pos (by simpa using hk), List.mem_cons]
      constructor
      · rintro (rfl | he)
        · rfl
        · exact absurd hk (hhead _ he)
      · intro h
        left
        simp only [Option.map_some, Option.some.injEq] at h
        rw [← hk, ← h]
    · rw [List.find?_cons_of_neg (by simpa using hk), List.mem_cons, ih]
      constructor
      · rintro (rfl | h)
        · exact absurd rfl hk
        · exact h
      · exact Or.inr

theorem mem_of_get? {r : Registry κ α} {k : κ} {a : α} (h : r.get? k = some a) :
    (k, a) ∈ r.entries :=
  mem_entries_iff.2 h

theorem get?_of_mem {r : Registry κ α} {e : κ × α} (h : e ∈ r.entries) :
    r.get? e.1 = some e.2 :=
  mem_entries_iff.1 h

theorem contains_eq_true_iff {r : Registry κ α} {k : κ} :
    r.contains k = true ↔ ∃ a, r.get? k = some a := by
  unfold contains
  rw [Option.isSome_iff_exists]

theorem contains_eq_false_iff {r : Registry κ α} {k : κ} :
    r.contains k = false ↔ r.get? k = none := by
  unfold contains
  rw [Option.isSome_eq_false_iff, Option.isNone_iff_eq_none]

/-- Registries with the same look-ups have the same entries in some order. -/
theorem entries_perm_of_get?_eq {r s : Registry κ α} (h : ∀ k, r.get? k = s.get? k) :
    r.entries.Perm s.entries := by
  refine (List.perm_ext_iff_of_nodup (nodup_entries r) (nodup_entries s)).2 fun ⟨k, a⟩ => ?_
  rw [mem_entries_iff, mem_entries_iff, h]

/-! ### Look-up after a change -/

theorem get?_insert (r : Registry κ α) (k j : κ) (a : α) :
    (r.insert k a).get? j = if j = k then some a else r.get? j := by
  split
  · next h => rw [h, get?_insert_self]
  · next h => rw [get?_insert_of_ne r a h]

theorem get?_erase (r : Registry κ α) (k j : κ) :
    (r.erase k).get? j = if j = k then none else r.get? j := by
  split
  · next h => rw [h, get?_erase_self]
  · next h => rw [get?_erase_of_ne r h]

theorem get?_retain (keep : κ → α → Bool) (r : Registry κ α) (k : κ) :
    (r.retain keep).get? k = (r.get? k).filter (keep k) := by
  ext a
  rw [Option.filter_eq_some_iff, ← mem_entries_iff, ← mem_entries_iff]
  simp only [retain, List.mem_filter]

/-! ### The entries without one key -/

theorem entries_erase_of_get?_none {r : Registry κ α} {k : κ} (h : r.get? k = none) :
    (r.erase k).entries = r.entries := by
  simp only [erase, retain]
  refine List.filter_eq_self.2 fun e he => ?_
  have hne : e.1 ≠ k := fun hk => by
    rw [← hk, get?_of_mem he] at h
    cases h
  simpa using hne

theorem mem_entries_erase {r : Registry κ α} {k : κ} {e : κ × α} :
    e ∈ (r.erase k).entries ↔ e ∈ r.entries ∧ e.1 ≠ k := by
  simp only [erase, retain, List.mem_filter, decide_eq_true_eq]

theorem entries_perm_of_get? {r : Registry κ α} {k : κ} {a : α} (h : r.get? k = some a) :
    r.entries.Perm ((k, a) :: (r.erase k).entries) := by
  have hnd : ((k, a) :: (r.erase k).entries).Nodup :=
    List.nodup_cons.2 ⟨fun hm => (mem_entries_erase.1 hm).2 rfl, nodup_entries _⟩
  refine (List.perm_ext_iff_of_nodup (nodup_entries r) hnd).2 fun e => ?_
  rw [List.mem_cons, mem_entries_erase]
  constructor
  · intro he
    by_cases hk : e.1 = k
    · have hget := get?_of_mem he
      rw [hk, h, Option.some.injEq] at hget
      exact Or.inl (Prod.ext hk hget.symm)
    · exact Or.inr ⟨he, hk⟩
  · rintro (rfl | ⟨he, -⟩)
    · exact mem_of_get? h
    · exact he

theorem size_insert_le (r : Registry κ α) (k : κ) (a : α) : (r.insert k a).size ≤ r.size + 1 := by
  have herase : (r.erase k).entries.length ≤ r.entries.length := List.length_filter_le _ _
  unfold size
  rw [show (r.insert k a).entries = (r.erase k).entries ++ [(k, a)] from rfl, List.length_append,
    List.length_singleton]
  omega

theorem entries_insert (r : Registry κ α) (k : κ) (a : α) :
    (r.insert k a).entries = (r.erase k).entries ++ [(k, a)] := rfl

/-! ### Changes under one key -/

omit [DecidableEq κ] in
theorem ext_entries {r s : Registry κ α} (h : r.entries = s.entries) : r = s := by
  cases r
  cases s
  cases h
  rfl

theorem erase_insert_self (r : Registry κ α) (k : κ) (a : α) :
    (r.insert k a).erase k = r.erase k := by
  refine ext_entries ?_
  simp [erase, retain, insert, List.filter_append, List.filter_filter]

theorem insert_insert_self (r : Registry κ α) (k : κ) (a b : α) :
    (r.insert k a).insert k b = r.insert k b := by
  refine ext_entries ?_
  rw [entries_insert, entries_insert, erase_insert_self]

end ShortMessage.Registry
