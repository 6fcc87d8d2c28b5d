import Mathlib.Data.List.Perm.Basic

/-!
# Reorderings that keep the order of each key

Two lists are a reordering of each other if they have the same elements and, for every key, the same
elements with that key in the same order.  If steps with different keys commute, up to a relation
that all steps respect, then both lists lead to related states (`foldl_reordering`).
-/

namespace ShortMessage

/-- **A reordering** keeps the relative order of the elements of each key. -/
structure Reordering {α κ : Type} [DecidableEq κ] (key : α → κ) (l₁ l₂ : List α) : Prop where
  perm : l₁.Perm l₂
  order : ∀ k, l₁.filter (key · = k) = l₂.filter (key · = k)

/-- Only the keys that occur have to be compared. -/
theorem reordering_iff {α κ : Type} [DecidableEq κ] {key : α → κ} {l₁ l₂ : List α} :
    Reordering key l₁ l₂ ↔
      l₁.Perm l₂ ∧ ∀ a ∈ l₁, l₁.filter (key · = key a) = l₂.filter (key · = key a) := by
  constructor
  · rintro ⟨hperm, horder⟩
    exact ⟨hperm, fun a _ => horder (key a)⟩
  · rintro ⟨hperm, horder⟩
    refine ⟨hperm, fun k => ?_⟩
    by_cases hk : ∃ a ∈ l₁, key a = k
    · obtain ⟨a, ha, rfl⟩ := hk
      exact horder a ha
    · have hnone : ∀ a ∈ l₁, ¬ decide (key a = k) = true := fun a ha heq =>
        hk ⟨a, ha, of_decide_eq_true heq⟩
      rw [List.filter_eq_nil_iff.2 hnone,
        List.filter_eq_nil_iff.2 fun a ha => hnone a (hperm.mem_iff.2 ha)]

instance {α κ : Type} [DecidableEq α] [DecidableEq κ] (key : α → κ) (l₁ l₂ : List α) :
    Decidable (Reordering key l₁ l₂) :=
  decidable_of_iff _ reordering_iff.symm

/-- Steps that keep an invariant, respect an equivalence, and commute up to it if their keys
differ. -/
structure Commuting {α κ σ : Type} (key : α → κ) (step : σ → α → σ) (Inv : σ → Prop)
    (R : σ → σ → Prop) : Prop where
  equivalence : Equivalence R
  inv_step : ∀ {s} (a), Inv s → Inv (step s a)
  congr : ∀ {s s'} (a), R s s' → R (step s a) (step s' a)
  comm : ∀ {s a b}, Inv s → key a ≠ key b → R (step (step s a) b) (step (step s b) a)

variable {α κ σ : Type} {key : α → κ} {step : σ → α → σ} {Inv : σ → Prop} {R : σ → σ → Prop}

namespace Commuting

variable (h : Commuting key step Inv R)
include h

theorem foldl_congr (l : List α) {s s' : σ} (hs : R s s') :
    R (l.foldl step s) (l.foldl step s') := by
  induction l generalizing s s' with
  | nil => exact hs
  | cons a l ih => exact ih (h.congr a hs)

theorem foldl_bubble {a : α} (l : List α) (hl : ∀ b ∈ l, key b ≠ key a) {s : σ} (hs : Inv s) :
    R (step (l.foldl step s) a) (l.foldl step (step s a)) := by
  induction l generalizing s with
  | nil => exact h.equivalence.refl _
  | cons b l ih =>
    have hb : key b ≠ key a := hl b List.mem_cons_self
    have hrest := ih (fun c hc => hl c (List.mem_cons_of_mem b hc)) (h.inv_step b hs)
    refine h.equivalence.trans hrest ?_
    exact h.foldl_congr l (h.comm hs hb)

end Commuting

variable [DecidableEq κ]

theorem Reordering.exists_of_cons {a : α} {l₁ l₂ : List α} (h : Reordering key (a :: l₁) l₂) :
    ∃ σ τ, l₂ = σ ++ a :: τ ∧ (∀ b ∈ σ, key b ≠ key a) ∧ Reordering key l₁ (σ ++ τ) := by
  have hself := (h.order (key a)).symm
  rw [List.filter_cons_of_pos (by simp)] at hself
  obtain ⟨σ, τ, rfl, hσ, -, hτ⟩ := List.filter_eq_cons_iff.1 hself
  have hσ' : ∀ b ∈ σ, key b ≠ key a := fun b hb => by simpa using hσ b hb
  refine ⟨σ, τ, rfl, hσ', ?_, fun k => ?_⟩
  · exact (h.perm.trans List.perm_middle).cons_inv
  · rw [List.filter_append]
    by_cases hk : key a = k
    · subst hk
      rw [List.filter_eq_nil_iff.2 hσ, List.nil_append, hτ]
    · have hother := h.order k
      rw [List.filter_cons_of_neg (by simpa using hk), List.filter_append,
        List.filter_cons_of_neg (by simpa using hk)] at hother
      exact hother

/-- **Reordered steps lead to the same state**, up to what the steps respect. -/
theorem Commuting.foldl_reordering (h : Commuting key step Inv R) {l₁ l₂ : List α}
    (hl : Reordering key l₁ l₂) {s : σ} (hs : Inv s) : R (l₁.foldl step s) (l₂.foldl step s) := by
  induction l₁ generalizing l₂ s with
  | nil =>
    obtain rfl := hl.perm.nil_eq
    exact h.equivalence.refl _
  | cons a l₁ ih =>
    obtain ⟨σ, τ, rfl, hσ, hrest⟩ := hl.exists_of_cons
    have hbubble := h.foldl_congr τ (h.foldl_bubble σ hσ hs)
    have hih := ih hrest (h.inv_step a hs)
    rw [List.foldl_append] at hih
    rw [List.foldl_append, List.foldl_cons]
    exact h.equivalence.trans hih (h.equivalence.symm hbubble)

end ShortMessage
