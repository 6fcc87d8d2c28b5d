import ShortMessage.Proofs.Fallback.Run

/-!
# The search for a free reference as a loop

A registration looks at one reference after the other, from the next one on, until it meets one that
is free.  Nothing bounds the loop but the entries that it passes: it ends exactly if some reference
is free, and then `register` has the reference that it ends with.

* `Search`: the loop, with the number of references that it passes; `search_iff`: what it passes;
* `search_ends_iff`: when it ends;
* `MessageRef.distance`: how far one reference lies beyond another on the circle;
* `Registers`, `register_takes_first_free`: what a registration gives out, and what it leaves.
-/

namespace ShortMessage

namespace MessageRef

variable {r s : MessageRef}

/-- The steps from one reference to another on the circle. -/
def distance (r s : MessageRef) : Nat :=
  (s.value + count - r.value) % count

theorem distance_iterate (h : r.Usable) {k : Nat} (hk : k < count) :
    r.distance (following^[k] r) = k := by
  have hpos := value_pos h
  have hle := value_le r
  unfold distance
  rw [value_iterate h]
  unfold count at *
  omega

theorem toInt_following (h : r.Usable) :
    r.following.number.toInt =
      if r.number.toInt = 2147483647 then 1 else r.number.toInt + 1 := by
  have hvalue := value_following h
  have hnext := usable_following h
  unfold Usable at h hnext
  have hlt := r.number.toInt_lt
  unfold value count at hvalue
  split <;> omega

end MessageRef

namespace Fallback

/-- **The search as a loop**: a taken reference is passed, and a free one is found.  Where the loop
never ends there is no search. -/
inductive Search (taken : MessageRef → Bool) : MessageRef → MessageRef → Nat → Prop
  | found {r : MessageRef} (hfree : taken r = false) : Search taken r r 0
  | passed {r s : MessageRef} {n : Nat} (htaken : taken r = true)
    (hrest : Search taken r.following s n) : Search taken r s (n + 1)

variable {taken : MessageRef → Bool} {r s : MessageRef} {n : Nat}

/-- **What a search passes**, and what it finds. -/
theorem search_iff : Search taken r s n ↔
    s = MessageRef.following^[n] r ∧ taken s = false ∧
      ∀ j < n, taken (MessageRef.following^[j] r) = true := by
  constructor
  · intro h
    induction h with
    | found hfree => exact ⟨rfl, hfree, fun j hj => absurd hj (Nat.not_lt_zero j)⟩
    | passed htaken hrest ih =>
      obtain ⟨rfl, hfree, hpassed⟩ := ih
      refine ⟨rfl, hfree, fun j hj => ?_⟩
      cases j with
      | zero => exact htaken
      | succ j => exact hpassed j (Nat.lt_of_succ_lt_succ hj)
  · rintro ⟨rfl, hfree, hpassed⟩
    induction n generalizing r with
    | zero => exact .found hfree
    | succ n ih =>
      exact .passed (hpassed 0 (Nat.succ_pos n))
        (ih hfree fun j hj => hpassed (j + 1) (Nat.succ_lt_succ hj))

theorem Search.unique {s' : MessageRef} {n' : Nat} (h : Search taken r s n)
    (h' : Search taken r s' n') : s' = s ∧ n' = n := by
  induction h generalizing s' n' with
  | found hfree =>
    cases h' with
    | found => exact ⟨rfl, rfl⟩
    | passed htaken hrest =>
      rw [htaken] at hfree
      cases hfree
  | passed htaken hrest ih =>
    cases h' with
    | found hfree =>
      rw [htaken] at hfree
      cases hfree
    | passed _ hrest' =>
      obtain ⟨rfl, rfl⟩ := ih hrest'
      exact ⟨rfl, rfl⟩

variable {f : Fallback}

/-- **A search finds the next free reference**, after at most as many others as there are
entries. -/
theorem search_nextFree (hf : f.Numbered) (hroom : f.HasRoom) :
    ∃ n ≤ f.entries.size, Search f.entries.contains f.next f.nextFree n := by
  obtain ⟨n, hn, heq, htaken, -⟩ := firstFree_eq_iterate f.entries.contains f.entries.size f.next
  have hfree := Registry.contains_eq_false_iff.2 (nextFree_free hf hroom)
  exact ⟨n, hn, search_iff.2 ⟨heq, hfree, htaken⟩⟩

/-- **The search ends** exactly if there are fewer entries than references. -/
theorem search_ends_iff (hf : f.Numbered) :
    (∃ s n, Search f.entries.contains f.next s n) ↔ f.entries.size < MessageRef.count := by
  constructor
  · rintro ⟨s, n, h⟩
    obtain ⟨rfl, hfree, -⟩ := search_iff.1 h
    exact size_lt_count hf
      ⟨_, MessageRef.usable_iterate hf.next n, Registry.contains_eq_false_iff.1 hfree⟩
  · intro hsize
    obtain ⟨n, -, h⟩ := search_nextFree hf (hasRoom_of_size_lt hsize)
    exact ⟨_, n, h⟩

/-- No free reference lies before the one that is found. -/
theorem Search.distance_le (hf : f.Numbered) (h : Search f.entries.contains f.next s n)
    (hr : r.Usable) (hfree : f.entry? r = none) : f.next.distance s ≤ f.next.distance r := by
  obtain ⟨rfl, -, hpassed⟩ := search_iff.1 h
  obtain ⟨k, hk, rfl⟩ := MessageRef.exists_iterate hf.next hr
  have hle : n ≤ k := by
    by_contra hlt
    have htaken := hpassed k (Nat.lt_of_not_le hlt)
    rw [Registry.contains_eq_false_iff.2 hfree] at htaken
    cases htaken
  rw [MessageRef.distance_iterate hf.next (Nat.lt_of_le_of_lt hle hk),
    MessageRef.distance_iterate hf.next hk]
  exact hle

/-! ### Registrations -/

/-- **What a registration does**: the search ends, it gives out the first free reference from the
next one on, and it changes nothing else. -/
structure Registers (f : Fallback) (m : MessageId) (c : Content) (r : MessageRef) (f' : Fallback) :
    Prop where
  /-- Of the references that the search looks at none is beyond the range. -/
  ends : ∃ n ≤ f.entries.size, Search f.entries.contains f.next r n ∧
    ∀ j ≤ n, (MessageRef.following^[j] f.next).Usable
  only : ∀ s n, Search f.entries.contains f.next s n → s = r
  free : f.entry? r = none
  first : ∀ s : MessageRef, s.Usable → f.entry? s = none → f.next.distance r ≤ f.next.distance s
  inRange : 1 ≤ r.number.toInt ∧ r.number.toInt ≤ 2147483647
  next : f'.next.number.toInt = if r.number.toInt = 2147483647 then 1 else r.number.toInt + 1
  entered : f'.entry? r = some ⟨r, m, c, .awaitingReport⟩
  kept : ∀ s e, f.entry? s = some e → f'.entry? s = some e
  others : ∀ s ≠ r, f'.entry? s = f.entry? s

/-- **A registration gets the first free reference**, in every registry with fewer entries than
there are references.  The next search begins after it. -/
theorem register_takes_first_free (es : List Event) (m : MessageId) (c : Content)
    (hsize : (new.run es).entries.size < MessageRef.count) :
    (new.run es).Registers m c ((new.run es).register m c).1 ((new.run es).register m c).2 := by
  have hf := numbered_run es
  have hroom := hasRoom_of_size_lt hsize
  have hfree := nextFree_free hf hroom
  have husable := usable_nextFree hf
  obtain ⟨n, hn, hsearch⟩ := search_nextFree hf hroom
  have hfiles := files_register (new.run es) m c
  exact
    { ends := ⟨n, hn, hsearch, fun j _ => MessageRef.usable_iterate hf.next j⟩
      only := fun s n' h => (hsearch.unique h).1
      free := hfree
      first := fun s hs hnone => hsearch.distance_le hf hs hnone
      inRange := ⟨husable, Int.lt_add_one_iff.1 ((new.run es).nextFree.number.toInt_lt)⟩
      next := MessageRef.toInt_following husable
      entered := hfiles.self
      kept := fun s e he => (hfiles.of_ne fun heq => by rw [heq, hfree] at he; cases he).trans he
      others := fun s hs => hfiles.of_ne hs }

/-! ### Round the circle -/

/-- Registrations of one message that is retired each time. -/
def circling (m : MessageId) (c : Content) (n : Nat) : List Event :=
  (List.replicate n [Event.register m c, Event.retire (· ≠ m)]).flatten

theorem register_fst (f : Fallback) (m : MessageId) (c : Content) :
    (f.register m c).1 = f.nextFree := rfl

theorem contains_eq_of_single {e : Entry} (hf : f.entries.entries = [(r, e)]) (s : MessageRef) :
    f.entries.contains s = decide (r = s) := by
  unfold Registry.contains Registry.get?
  rw [hf, List.find?_singleton]
  by_cases h : r = s <;> simp [h]

theorem nextFree_of_single {e : Entry} (hf : f.entries.entries = [(r, e)]) :
    f.nextFree = if r = f.next then f.next.following else f.next := by
  have hsize : f.entries.size = 1 := congrArg List.length hf
  unfold nextFree
  rw [hsize]
  simp only [firstFree, contains_eq_of_single hf, decide_eq_true_eq]

/-- One message stays under its reference while another one goes on through the circle. -/
theorem run_circling {e : Entry} {m : MessageId} (c : Content) (hm : e.message ≠ m)
    (hf : f.entries.entries = [(r, e)])
    (haway : ∀ k < n, r ≠ MessageRef.following^[k] f.next) :
    (f.run (circling m c n)).entries.entries = [(r, e)] ∧
      (f.run (circling m c n)).next = MessageRef.following^[n] f.next := by
  induction n generalizing f with
  | zero => exact ⟨hf, rfl⟩
  | succ n ih =>
    have hne : r ≠ f.next := haway 0 (Nat.succ_pos n)
    have hfree : f.nextFree = f.next := by rw [nextFree_of_single hf, if_neg hne]
    let g := (f.handle (.register m c)).handle (.retire (· ≠ m))
    have hrun : f.run (circling m c (n + 1)) = g.run (circling m c n) := rfl
    have hnext : g.next = f.next.following := congrArg MessageRef.following hfree
    have hg : g.entries.entries = [(r, e)] := by
      show (((f.entries.erase f.nextFree).entries ++ [_]).filter _) = _
      rw [hfree]
      simp [Registry.erase, Registry.retain, hf, hne, hm]
    rw [hrun, Function.iterate_succ_apply, ← hnext]
    refine ih hg fun k hk => ?_
    rw [hnext, ← Function.iterate_succ_apply]
    exact haway (k + 1) (Nat.succ_lt_succ hk)

theorem run_round {m m' : MessageId} (c : Content) (hm : m' ≠ m) {n : Nat}
    (hn : n + 1 = MessageRef.count) :
    (new.run (.register m' c :: circling m c n)).entries.entries =
        [(.first, ⟨.first, m', c, .awaitingReport⟩)] ∧
      (new.run (.register m' c :: circling m c n)).next = .first := by
  have hnext : (new.handle (.register m' c)).next = MessageRef.following .first := rfl
  have haway : ∀ k < n, MessageRef.first ≠
      MessageRef.following^[k] (new.handle (.register m' c)).next := by
    intro k hk heq
    rw [hnext, ← Function.iterate_succ_apply] at heq
    have hzero : 0 = k + 1 :=
      MessageRef.iterate_injective MessageRef.usable_first (by decide) (by omega) heq
    omega
  obtain ⟨hentries, hround⟩ := run_circling (f := new.handle (.register m' c)) c hm rfl haway
  refine ⟨hentries, ?_⟩
  rw [run_cons, hround, hnext, ← Function.iterate_succ_apply]
  refine MessageRef.value_injective ?_ MessageRef.usable_first ?_
  · exact MessageRef.usable_iterate MessageRef.usable_first _
  · rw [MessageRef.value_iterate MessageRef.usable_first, Nat.succ_eq_add_one, hn]
    decide

/-- The search goes on from the largest reference to the first, and passes it if it is taken. -/
theorem register_takes_first_free_round :
    let m : MessageId := ⟨7⟩
    let c : Content := .mms [1] none
    let es := .register ⟨8⟩ c :: circling m c (MessageRef.count - 1)
    (new.run es).entries.size < MessageRef.count ∧
      (new.run es).Registers m c ((new.run es).register m c).1 ((new.run es).register m c).2 ∧
      (new.run es).next = .first ∧ ((new.run es).register m c).1 = ⟨2⟩ := by
  intro m c es
  have hn : MessageRef.count - 1 + 1 = MessageRef.count := rfl
  obtain ⟨hentries, hnext⟩ := @run_round m ⟨8⟩ c (by decide) (MessageRef.count - 1) hn
  have hsize : (new.run es).entries.size < MessageRef.count := by
    unfold Registry.size
    rw [hentries]
    decide
  refine ⟨hsize, register_takes_first_free es m c hsize, hnext, ?_⟩
  rw [register_fst, nextFree_of_single hentries, hnext]
  decide

end Fallback

end ShortMessage
