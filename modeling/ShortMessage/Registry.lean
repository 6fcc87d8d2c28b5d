/-!
# Registries

A finite map as a list of entries with distinct keys.  Order is the order of insertion, and an entry
that is replaced moves to the end.

* `get?`, `insert`, `erase`, `retain`: the operations;
* `get?_insert_self`, `get?_insert_of_ne`, `get?_erase_self`, `get?_erase_of_ne`: what they do to a
  look-up.
-/

namespace ShortMessage

/-- **A registry**: entries with distinct keys. -/
structure Registry (κ : Type) (α : Type) where
  entries : List (κ × α)
  distinct : entries.Pairwise (·.1 ≠ ·.1)

namespace Registry

variable {κ α : Type} [DecidableEq κ]

/-- A registry with no entry. -/
def empty : Registry κ α := ⟨[], .nil⟩

instance : Inhabited (Registry κ α) := ⟨empty⟩

/-- How many entries there are. -/
def size (r : Registry κ α) : Nat :=
  r.entries.length

/-- The value at a key. -/
def get? (r : Registry κ α) (k : κ) : Option α :=
  (r.entries.find? (·.1 = k)).map (·.2)

/-- A key has a value. -/
def contains (r : Registry κ α) (k : κ) : Bool :=
  (r.get? k).isSome

/-- The keys, in the order of their entries. -/
def keys (r : Registry κ α) : List κ :=
  r.entries.map (·.1)

/-- Keeps the entries that pass a test. -/
def retain (keep : κ → α → Bool) (r : Registry κ α) : Registry κ α :=
  ⟨r.entries.filter fun e => keep e.1 e.2, r.distinct.filter _⟩

/-- Removes the entry of a key. -/
def erase (r : Registry κ α) (k : κ) : Registry κ α :=
  r.retain fun k' _ => k' ≠ k

/-- The value at a key, in place of the one that was there. -/
def insert (r : Registry κ α) (k : κ) (a : α) : Registry κ α :=
  ⟨(r.erase k).entries ++ [(k, a)], by
    refine List.pairwise_append.2 ⟨(r.erase k).distinct, List.pairwise_singleton _ _, ?_⟩
    intro e he f hf
    simp only [List.mem_singleton] at hf
    simp only [erase, retain, List.mem_filter, decide_eq_true_eq] at he
    rw [hf]
    exact he.2⟩

/-- The registry that a list fills; of two entries with one key the later counts. -/
def ofList (entries : List (κ × α)) : Registry κ α :=
  entries.foldl (fun r e => r.insert e.1 e.2) empty

/-! ### Look-up -/

theorem find?_filter_ne_self (entries : List (κ × α)) (k : κ) :
    (entries.filter (·.1 ≠ k)).find? (·.1 = k) = none := by
  rw [List.find?_eq_none]
  intro e he
  simpa using (List.mem_filter.1 he).2

theorem find?_filter_ne_of_ne (entries : List (κ × α)) {k j : κ} (h : j ≠ k) :
    (entries.filter (·.1 ≠ k)).find? (·.1 = j) = entries.find? (·.1 = j) := by
  induction entries with
  | nil => rfl
  | cons e es ih =>
    by_cases hk : e.1 = k
    · have hj : ¬ e.1 = j := fun hj => h (hj ▸ hk)
      simp only [List.filter_cons, hk, ne_eq, not_true_eq_false, decide_false,
        Bool.false_eq_true, if_false]
      rw [List.find?_cons_of_neg (by simpa using hj)]
      exact ih
    · simp only [List.filter_cons, ne_eq, hk, not_false_eq_true, decide_true, if_true]
      by_cases hj : e.1 = j
      · rw [List.find?_cons_of_pos (by simpa using hj), List.find?_cons_of_pos (by simpa using hj)]
      · rw [List.find?_cons_of_neg (by simpa using hj), List.find?_cons_of_neg (by simpa using hj)]
        exact ih

@[simp] theorem get?_erase_self (r : Registry κ α) (k : κ) : (r.erase k).get? k = none := by
  simp only [get?, erase, retain]
  rw [find?_filter_ne_self]
  rfl

theorem get?_erase_of_ne (r : Registry κ α) {k j : κ} (h : j ≠ k) :
    (r.erase k).get? j = r.get? j := by
  simp only [get?, erase, retain]
  rw [find?_filter_ne_of_ne _ h]

@[simp] theorem get?_insert_self (r : Registry κ α) (k : κ) (a : α) :
    (r.insert k a).get? k = some a := by
  have h : (r.erase k).entries.find? (·.1 = k) = none := find?_filter_ne_self _ _
  simp [get?, insert, List.find?_append, h]

theorem get?_insert_of_ne (r : Registry κ α) {k j : κ} (a : α) (h : j ≠ k) :
    (r.insert k a).get? j = r.get? j := by
  have hk : ¬ k = j := fun e => h e.symm
  have := get?_erase_of_ne r h
  simp only [get?] at this
  simp [get?, insert, List.find?_append, hk, this]

@[simp] theorem get?_empty (k : κ) : (empty : Registry κ α).get? k = none := rfl

end Registry

end ShortMessage
