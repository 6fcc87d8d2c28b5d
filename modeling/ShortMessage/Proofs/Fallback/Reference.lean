import Mathlib.Data.List.Nodup
import Mathlib.Logic.Function.Iterate
import ShortMessage.Fallback
import ShortMessage.Proofs.Registry

/-!
# The search for a free reference

References are the positive numbers of 32 bits, and `following` runs through all of them in a
circle.  The search for a free one looks at one reference more than there are entries, so it finds
one as long as not every reference is taken (`nextFree_free`).

* `MessageRef.Usable`, `value_iterate`, `exists_iterate`: the circle;
* `Fallback.Numbered`: every entry is filed under its own reference, a usable one;
* `Fallback.HasRoom`, `hasRoom_of_size_lt`: some reference is free;
* `firstFree_eq_iterate`: what the search passes, and where it stops.
-/

namespace ShortMessage

namespace MessageRef

/-- How many references there are. -/
def count : Nat := 2147483647

/-- References are positive. -/
def Usable (r : MessageRef) : Prop :=
  0 < r.number.toInt

instance (r : MessageRef) : Decidable r.Usable :=
  inferInstanceAs (Decidable (0 < r.number.toInt))

/-- The reference as a natural number; references are positive. -/
def value (r : MessageRef) : Nat :=
  r.number.toInt.toNat

variable {r s : MessageRef}

theorem usable_first : first.Usable := by decide

theorem value_le (r : MessageRef) : r.value ≤ count := by
  have := r.number.toInt_lt
  unfold value count
  omega

theorem value_pos (h : r.Usable) : 0 < r.value := by
  unfold Usable at h
  unfold value
  omega

theorem value_injective (hr : r.Usable) (hs : s.Usable) (h : r.value = s.value) : r = s := by
  obtain ⟨a⟩ := r
  obtain ⟨b⟩ := s
  unfold Usable at hr hs
  unfold value at h
  simp only at hr hs h
  have hint : a.toInt = b.toInt := by omega
  rw [Int32.toInt_inj.1 hint]

theorem value_following (h : r.Usable) : r.following.value = r.value % count + 1 := by
  unfold Usable at h
  have hlt := r.number.toInt_lt
  unfold following
  split
  · next hmax =>
    have hval : r.value = count := by
      unfold value
      rw [hmax]
      rfl
    rw [hval, Nat.mod_self]
    rfl
  · next hmax =>
    have hne : r.number.toInt ≠ 2147483647 := fun he => hmax (Int32.toInt_inj.1 he)
    have hadd : (r.number + 1).toInt = r.number.toInt + 1 := by
      rw [Int32.toInt_add, show (1 : Int32).toInt = 1 from rfl]
      exact Int.bmod_eq_of_le (by omega) (by omega)
    unfold value count
    simp only
    rw [hadd]
    omega

theorem usable_following (h : r.Usable) : r.following.Usable := by
  have hval := value_following h
  unfold value at hval
  unfold Usable
  omega

theorem usable_iterate (h : r.Usable) (k : Nat) : (following^[k] r).Usable := by
  induction k generalizing r with
  | zero => exact h
  | succ k ih => exact ih (usable_following h)

/-- **The circle** of references. -/
theorem value_iterate (h : r.Usable) (k : Nat) :
    (following^[k] r).value = (r.value - 1 + k) % count + 1 := by
  induction k generalizing r with
  | zero =>
    have hpos := value_pos h
    have hle := value_le r
    rw [Function.iterate_zero_apply]
    unfold count at *
    omega
  | succ k ih =>
    have hpos := value_pos h
    have hle := value_le r
    rw [Function.iterate_succ_apply, ih (usable_following h), value_following h]
    unfold count at *
    omega

/-- No reference is met twice on the way round the circle. -/
theorem iterate_injective (h : r.Usable) {j k : Nat} (hj : j < count) (hk : k < count)
    (heq : following^[j] r = following^[k] r) : j = k := by
  have hval := congrArg value heq
  rw [value_iterate h, value_iterate h] at hval
  unfold count at *
  omega

/-- Every reference is met on the way round the circle. -/
theorem exists_iterate (hr : r.Usable) (hs : s.Usable) : ∃ k < count, following^[k] r = s := by
  have hrpos := value_pos hr
  have hspos := value_pos hs
  have hrle := value_le r
  have hsle := value_le s
  refine ⟨(s.value + count - r.value) % count, Nat.mod_lt _ (by decide), ?_⟩
  refine value_injective (usable_iterate hr _) hs ?_
  rw [value_iterate hr]
  unfold count at *
  omega

end MessageRef

namespace Fallback

variable {f : Fallback} {r : MessageRef}

/-- Every entry is filed under its own reference, and all references are usable. -/
structure Numbered (f : Fallback) : Prop where
  ref_eq : ∀ r e, f.entry? r = some e → e.ref = r
  usable : ∀ r e, f.entry? r = some e → r.Usable
  next : f.next.Usable

/-- Some reference is free. -/
def HasRoom (f : Fallback) : Prop :=
  ∃ r : MessageRef, r.Usable ∧ f.entry? r = none

theorem nodup_keys (f : Fallback) : f.entries.keys.Nodup :=
  List.pairwise_map.2 f.entries.distinct

theorem mem_keys : r ∈ f.entries.keys ↔ f.entries.contains r = true := by
  rw [Registry.contains_eq_true_iff]
  constructor
  · intro h
    obtain ⟨e, he, rfl⟩ := List.mem_map.1 h
    exact ⟨e.2, Registry.get?_of_mem he⟩
  · rintro ⟨e, he⟩
    exact List.mem_map.2 ⟨(r, e), Registry.mem_of_get? he, rfl⟩

theorem usable_of_mem_keys (h : f.Numbered) (hr : r ∈ f.entries.keys) : r.Usable := by
  obtain ⟨e, he⟩ := Registry.contains_eq_true_iff.1 (mem_keys.1 hr)
  exact h.usable r e he

theorem size_lt_count (h : f.Numbered) (hroom : f.HasRoom) :
    f.entries.size < MessageRef.count := by
  obtain ⟨r, hr, hfree⟩ := hroom
  have hnot : r ∉ f.entries.keys := fun hm => by
    obtain ⟨e, he⟩ := Registry.contains_eq_true_iff.1 (mem_keys.1 hm)
    rw [show f.entry? r = some e from he] at hfree
    cases hfree
  have husable : ∀ s ∈ r :: f.entries.keys, s.Usable := by
    intro s hs
    rcases List.mem_cons.1 hs with rfl | hs
    · exact hr
    · exact usable_of_mem_keys h hs
  have hnodup : ((r :: f.entries.keys).map MessageRef.value).Nodup :=
    (List.nodup_cons.2 ⟨hnot, f.nodup_keys⟩).map_on fun s hs t ht =>
      MessageRef.value_injective (husable s hs) (husable t ht)
  have hsub : (r :: f.entries.keys).map MessageRef.value ⊆ List.range' 1 MessageRef.count := by
    intro v hv
    obtain ⟨s, hs, rfl⟩ := List.mem_map.1 hv
    have hpos := MessageRef.value_pos (husable s hs)
    have hle := MessageRef.value_le s
    rw [List.mem_range'_1]
    omega
  have hlen := hnodup.length_le_of_subset hsub
  rw [List.length_map, List.length_cons, List.length_range'] at hlen
  have hkeys := f.entries.length_keys
  omega

/-- **The search** passes taken references, and stops at a free one or after `n` steps. -/
theorem firstFree_eq_iterate (taken : MessageRef → Bool) (n : Nat) (r : MessageRef) :
    ∃ k ≤ n, firstFree taken n r = MessageRef.following^[k] r ∧
      (∀ j < k, taken (MessageRef.following^[j] r) = true) ∧
      (k < n → taken (MessageRef.following^[k] r) = false) := by
  induction n generalizing r with
  | zero => exact ⟨0, Nat.le_refl 0, rfl, fun j hj => absurd hj (Nat.not_lt_zero j),
      fun h => absurd h (Nat.lt_irrefl 0)⟩
  | succ n ih =>
    unfold firstFree
    cases hr : taken r with
    | false =>
      rw [if_neg (by simp)]
      exact ⟨0, Nat.zero_le _, rfl, fun j hj => absurd hj (Nat.not_lt_zero j), fun _ => hr⟩
    | true =>
      rw [if_pos rfl]
      obtain ⟨k, hk, heq, htaken, hfree⟩ := ih r.following
      refine ⟨k + 1, by omega, heq, fun j hj => ?_, fun h => hfree (by omega)⟩
      cases j with
      | zero => exact hr
      | succ j => exact htaken j (by omega)

theorem firstFree_cases (taken : MessageRef → Bool) (n : Nat) (r : MessageRef) :
    taken (firstFree taken n r) = false ∨
      ∀ k ≤ n, taken (MessageRef.following^[k] r) = true := by
  obtain ⟨k, hk, heq, htaken, hfree⟩ := firstFree_eq_iterate taken n r
  rw [heq]
  rcases Nat.lt_or_eq_of_le hk with hlt | rfl
  · exact Or.inl (hfree hlt)
  · cases hlast : taken (MessageRef.following^[k] r) with
    | false => exact Or.inl rfl
    | true =>
      refine Or.inr fun j hj => ?_
      rcases Nat.lt_or_eq_of_le hj with hjk | rfl
      · exact htaken j hjk
      · exact hlast

/-- **The next reference is free** if any is. -/
theorem nextFree_free (h : f.Numbered) (hroom : f.HasRoom) : f.entry? f.nextFree = none := by
  refine Registry.contains_eq_false_iff.1 ?_
  rcases firstFree_cases f.entries.contains f.entries.size f.next with hfree | hall
  · exact hfree
  · have hsize := size_lt_count h hroom
    have hnodup : ((List.range (f.entries.size + 1)).map
        fun k => MessageRef.following^[k] f.next).Nodup := by
      refine List.nodup_range.map_on fun j hj k hk => ?_
      rw [List.mem_range] at hj hk
      exact MessageRef.iterate_injective h.next (by omega) (by omega)
    have hsub : ((List.range (f.entries.size + 1)).map
        fun k => MessageRef.following^[k] f.next) ⊆ f.entries.keys := by
      intro s hs
      obtain ⟨k, hk, rfl⟩ := List.mem_map.1 hs
      rw [List.mem_range] at hk
      exact mem_keys.2 (hall k (by omega))
    have hlen := hnodup.length_le_of_subset hsub
    have hkeys := f.entries.length_keys
    rw [List.length_map, List.length_range] at hlen
    omega

theorem usable_nextFree (h : f.Numbered) : f.nextFree.Usable := by
  obtain ⟨k, -, heq, -⟩ := firstFree_eq_iterate f.entries.contains f.entries.size f.next
  unfold nextFree
  rw [heq]
  exact MessageRef.usable_iterate h.next k

theorem hasRoom_of_size_lt (h : f.entries.size < MessageRef.count) : f.HasRoom := by
  by_contra hfull
  have hall : ∀ r : MessageRef, r.Usable → r ∈ f.entries.keys := by
    intro r hr
    refine mem_keys.2 ?_
    by_contra hfree
    exact hfull ⟨r, hr, Registry.contains_eq_false_iff.1 (by simpa using hfree)⟩
  let circle := (List.range MessageRef.count).map fun k => MessageRef.following^[k] .first
  have hnodup : circle.Nodup := by
    refine List.nodup_range.map_on fun j hj k hk => ?_
    rw [List.mem_range] at hj hk
    exact MessageRef.iterate_injective MessageRef.usable_first hj hk
  have hsub : circle ⊆ f.entries.keys := by
    intro s hs
    obtain ⟨k, -, rfl⟩ := List.mem_map.1 hs
    exact hall _ (MessageRef.usable_iterate MessageRef.usable_first k)
  have hlen := hnodup.length_le_of_subset hsub
  have hcircle : circle.length = MessageRef.count := by
    rw [List.length_map, List.length_range]
  have hkeys := f.entries.length_keys
  omega

end Fallback

end ShortMessage
