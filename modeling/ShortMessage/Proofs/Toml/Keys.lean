import ShortMessage.Toml.Node

/-!
# Looking up keys

* `lookup_eq_none`, `lookup_concat`, `mem_of_lookup`: what is found, and what is not;
* `Node.set_of_not_mem`, `Node.set_concat`: a node put at the end, and one put in its place.
-/

namespace ShortMessage.Toml

variable {α : Type} {fields : List (String × α)} {key : String} {a : α}

theorem lookup_cons (k : String) (a : α) (fields : List (String × α)) (key : String) :
    ((k, a) :: fields).lookup key = if key = k then some a else fields.lookup key := by
  by_cases h : key = k
  · rw [h, List.lookup_cons_self, if_pos rfl]
  · rw [List.lookup_cons, beq_eq_false_iff_ne.2 h, if_neg h]

theorem lookup_eq_none (h : key ∉ fields.map Prod.fst) : fields.lookup key = none := by
  rw [List.lookup_eq_none_iff]
  rintro ⟨k, a⟩ hmem
  rw [bne_iff_ne]
  rintro rfl
  exact h (List.mem_map_of_mem hmem)

theorem lookup_concat (h : key ∉ fields.map Prod.fst) (a : α) :
    (fields ++ [(key, a)]).lookup key = some a := by
  rw [List.lookup_append, lookup_eq_none h]
  simp

theorem mem_of_lookup (h : fields.lookup key = some a) : (key, a) ∈ fields := by
  obtain ⟨before, after, rfl, -⟩ := List.lookup_eq_some_iff.1 h
  exact List.mem_append_right _ List.mem_cons_self

theorem not_mem_keys_concat {k : String} (h : k ∉ fields.map Prod.fst) (hne : k ≠ key) (a : α) :
    k ∉ (fields ++ [(key, a)]).map Prod.fst := by
  rw [List.map_append, List.mem_append, List.map_singleton, List.mem_singleton]
  exact fun hmem => hmem.elim h hne

theorem Node.set_of_not_mem {fields : Nodes} (h : key ∉ fields.map Prod.fst) (node : Node) :
    Node.set key node fields = fields ++ [(key, node)] := by
  induction fields with
  | nil => rfl
  | cons e fields ih =>
    obtain ⟨k, old⟩ := e
    simp only [List.map_cons, List.mem_cons, not_or] at h
    rw [Node.set, if_neg (Ne.symm h.1), ih h.2]
    rfl

theorem Node.set_concat {fields : Nodes} (h : key ∉ fields.map Prod.fst) (old node : Node) :
    Node.set key node (fields ++ [(key, old)]) = fields ++ [(key, node)] := by
  induction fields with
  | nil => simp [Node.set]
  | cons e fields ih =>
    obtain ⟨k, other⟩ := e
    simp only [List.map_cons, List.mem_cons, not_or] at h
    rw [List.cons_append, Node.set, if_neg (Ne.symm h.1), ih h.2]
    rfl

end ShortMessage.Toml
