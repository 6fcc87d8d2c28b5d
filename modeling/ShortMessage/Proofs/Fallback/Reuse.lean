import ShortMessage.Proofs.Fallback.Run

/-!
# When a reference comes again

The search for a free reference goes on from the last one that was given out, so a run of
registrations walks round the circle of references and skips the live ones only.  A reference is
given out again only after the walk has met all the others, and until then a late report on a
retired message finds no entry.

* `Meets`, `CycledThrough`: what the registrations of a run give out or find live;
* `next_run`: a run walks along the circle;
* `reference_reused_after_cycle`: the whole circle lies between two uses of a reference.
-/

namespace ShortMessage.Fallback

/-- Some registration of a run gives out the reference `s` or finds it live. -/
def Meets (f : Fallback) (s : MessageRef) (es : List Event) : Prop :=
  ∃ pre m c post, es = pre ++ .register m c :: post ∧
    (((f.run pre).register m c).1 = s ∨ entry? (f.run pre) s ≠ none)

/-- The registrations of a run meet every reference except `r`. -/
def CycledThrough (f : Fallback) (r : MessageRef) (es : List Event) : Prop :=
  ∀ s : MessageRef, s.Usable → s ≠ r → f.Meets s es

variable {f : Fallback} {r s : MessageRef} {m : MessageId} {c : Content} {es fs : List Event}

theorem Meets.append (h : f.Meets s es) (fs : List Event) : f.Meets s (es ++ fs) := by
  obtain ⟨pre, m, c, post, rfl, hs⟩ := h
  exact ⟨pre, m, c, post ++ fs, by simp, hs⟩

theorem CycledThrough.append (h : f.CycledThrough r es) (fs : List Event) :
    f.CycledThrough r (es ++ fs) :=
  fun s hs hne => (h s hs hne).append fs

/-- **One registration** walks to the reference that it gives out, and all that it passes are
live. -/
theorem nextFree_walk (f : Fallback) (es : List Event) (m : MessageId) (c : Content) :
    ∃ k, (f.run es).nextFree = MessageRef.following^[k] (f.run es).next ∧
      ∀ j ≤ k, f.Meets (MessageRef.following^[j] (f.run es).next) (es ++ [.register m c]) := by
  obtain ⟨k, -, heq, htaken, -⟩ :=
    firstFree_eq_iterate (f.run es).entries.contains (f.run es).entries.size (f.run es).next
  refine ⟨k, heq, fun j hj => ⟨es, m, c, [], rfl, ?_⟩⟩
  rcases Nat.lt_or_eq_of_le hj with hlt | rfl
  · right
    obtain ⟨e, he⟩ := Registry.contains_eq_true_iff.1 (htaken j hlt)
    rw [show entry? (f.run es) _ = some e from he]
    exact Option.some_ne_none e
  · exact Or.inl heq

/-- **A run walks along the circle** and meets all that it passes. -/
theorem next_run (hf : f.Numbered) (es : List Event) :
    ∃ n, (f.run es).next = MessageRef.following^[n] f.next ∧
      ∀ j < n, f.Meets (MessageRef.following^[j] f.next) es := by
  induction es using List.reverseRecOn with
  | nil => exact ⟨0, rfl, fun j hj => absurd hj (Nat.not_lt_zero j)⟩
  | append_singleton es ev ih =>
    obtain ⟨n, hnext, hmet⟩ := ih
    by_cases hreg : ∃ m c, ev = .register m c
    · obtain ⟨m, c, rfl⟩ := hreg
      obtain ⟨k, hfree, hwalk⟩ := nextFree_walk f es m c
      rw [hnext] at hfree hwalk
      refine ⟨k + n + 1, ?_, fun j hj => ?_⟩
      · rw [run_concat]
        show (f.run es).nextFree.following = _
        rw [hfree, Function.iterate_succ_apply', Function.iterate_add_apply]
      · by_cases hjn : j < n
        · exact (hmet j hjn).append _
        · obtain ⟨i, rfl⟩ := Nat.exists_eq_add_of_le' (Nat.le_of_not_lt hjn)
          rw [Function.iterate_add_apply]
          exact hwalk i (by omega)
    · refine ⟨n, ?_, fun j hj => (hmet j hj).append _⟩
      rw [run_concat, next_handle (hf.run es) fun m c heq => hreg ⟨m, c, heq⟩, hnext]

/-- After `r` was given out, a run that ends with `r` given out again has met all the others. -/
theorem cycledThrough_of_nextFree (hf : f.Numbered) (hr : r.Usable) (hnext : f.next = r.following)
    (hagain : (f.run es).nextFree = r) (m : MessageId) (c : Content) :
    f.CycledThrough r (es ++ [.register m c]) := by
  obtain ⟨n, hrun, hmet⟩ := next_run hf es
  obtain ⟨k, hfree, hwalk⟩ := nextFree_walk f es m c
  rw [hrun, hnext] at hfree hwalk
  rw [hnext] at hmet
  -- the walk comes back to its start, so it is as long as the circle
  have hback : MessageRef.following^[k + n + 1] r = r := by
    rw [Function.iterate_succ_apply, Function.iterate_add_apply, ← hfree, hagain]
  have hval := congrArg MessageRef.value hback
  rw [MessageRef.value_iterate hr] at hval
  have hpos := MessageRef.value_pos hr
  have hle := MessageRef.value_le r
  intro s hs hne
  obtain ⟨j, hj, rfl⟩ := MessageRef.exists_iterate hr hs
  cases j with
  | zero => exact absurd rfl hne
  | succ j =>
    rw [Function.iterate_succ_apply]
    have hlong : j < k + n + 1 := by
      unfold MessageRef.count at *
      omega
    by_cases hjn : j < n
    · exact (hmet j hjn).append _
    · obtain ⟨i, rfl⟩ := Nat.exists_eq_add_of_le' (Nat.le_of_not_lt hjn)
      rw [Function.iterate_add_apply]
      exact hwalk i (by omega)

theorem exists_register_of_entry? (hf : f.Numbered) (hfree : f.entry? r = none)
    (hlive : entry? (f.run es) r ≠ none) :
    ∃ pre m c post, es = pre ++ .register m c :: post ∧ (f.run pre).nextFree = r := by
  induction es using List.reverseRecOn with
  | nil => exact absurd hfree hlive
  | append_singleton es ev ih =>
    by_cases hreg : ∃ m c, ev = .register m c ∧ r = (f.run es).nextFree
    · obtain ⟨m, c, rfl, rfl⟩ := hreg
      exact ⟨es, m, c, [], rfl, rfl⟩
    · have hbefore : entry? (f.run es) r ≠ none := by
        intro hnone
        rw [run_concat, entry?_handle (hf.run es) fun m c heq hr => hreg ⟨m, c, heq, hr⟩,
          hnone] at hlive
        exact hlive rfl
      obtain ⟨pre, m, c, post, rfl, hgiven⟩ := ih hbefore
      exact ⟨pre, m, c, post ++ [ev], by simp, hgiven⟩

/-- **A reference comes again only after all the others.**  In every run from an empty registry,
between a registration and another one that gives out the same reference the registrations meet
every other reference.  So a late report on a message that is not live any more is ignored until
they have. -/
theorem reference_reused_after_cycle (pre mid : List Event) (m : MessageId) (c : Content) :
    let r := ((new.run pre).register m c).1
    let f := ((new.run pre).register m c).2
    (∀ m' c', ((f.run mid).register m' c').1 = r →
      f.CycledThrough r (mid ++ [.register m' c'])) ∧
    ∀ before after, mid = before ++ after → entry? (f.run before) r = none →
      ∀ kind success, ((f.run mid).report kind r success).1 ≠ .ignored → f.CycledThrough r mid := by
  intro r f
  have hf : f.Numbered := (numbered_run pre).handle (.register m c)
  have hr : r.Usable := usable_nextFree (numbered_run pre)
  have hnext : f.next = r.following := rfl
  refine ⟨fun m' c' hagain => cycledThrough_of_nextFree hf hr hnext hagain m' c', ?_⟩
  rintro before after rfl hgone kind success hhit
  have hlive : entry? ((f.run before).run after) r ≠ none := by
    intro hnone
    rcases (f.run (before ++ after)).report_cases kind r success with ⟨-, hignored, -⟩ | ⟨e, he, -⟩
    · exact hhit hignored
    · rw [run_append, hnone] at he
      cases he
  obtain ⟨first, m', c', last, rfl, hagain⟩ :=
    exists_register_of_entry? (hf.run before) hgone hlive
  rw [← run_append] at hagain
  have hcycle := (cycledThrough_of_nextFree hf hr hnext hagain m' c').append last
  simpa using hcycle

/-- Registrations that are retired at once. -/
def passing (m : MessageId) (c : Content) (n : Nat) : List Event :=
  (List.replicate n [Event.register m c, Event.retire fun _ => false]).flatten

theorem nextFree_of_empty (hf : f.entries.entries = []) : f.nextFree = f.next := by
  have hsize : f.entries.size = 0 := List.length_eq_zero_iff.2 hf
  unfold nextFree
  rw [hsize]
  rfl

theorem nextFree_passing (m : MessageId) (c : Content) (n : Nat) (hf : f.entries.entries = []) :
    (f.run (passing m c n)).nextFree = MessageRef.following^[n] f.next := by
  induction n generalizing f with
  | zero => exact nextFree_of_empty hf
  | succ n ih =>
    let g := (f.handle (.register m c)).handle (.retire fun _ => false)
    have hg : g.entries.entries = [] := List.filter_eq_nil_iff.2 fun _ _ => Bool.false_ne_true
    have hnext : g.next = f.next.following := congrArg MessageRef.following (nextFree_of_empty hf)
    have hrun : f.run (passing m c (n + 1)) = g.run (passing m c n) := rfl
    rw [hrun, ih hg, hnext, Function.iterate_succ_apply]

theorem register_passing (m : MessageId) (c : Content) (n : Nat) :
    (((new.register m c).2.run (.retire (fun _ => false) :: passing m c n)).register m c).1 =
      MessageRef.following^[n + 1] .first := by
  have hempty : ((new.register m c).2.handle (.retire fun _ => false)).entries.entries = [] :=
    List.filter_eq_nil_iff.2 fun _ _ => Bool.false_ne_true
  rw [run_cons, Function.iterate_succ_apply]
  exact nextFree_passing m c n hempty

/-- With every message retired at once, the first reference is given out again after all the
others. -/
theorem reference_reused_after_cycle_passing :
    let m : MessageId := ⟨7⟩
    let c : Content := .mms [1] none
    let f := (new.register m c).2
    let mid := .retire (fun _ => false) :: passing m c (MessageRef.count - 1)
    ((f.run mid).register m c).1 = .first ∧ f.CycledThrough .first (mid ++ [.register m c]) := by
  intro m c f mid
  have hagain : ((f.run mid).register m c).1 = .first := by
    rw [register_passing]
    refine MessageRef.value_injective ?_ MessageRef.usable_first ?_
    · exact MessageRef.usable_iterate MessageRef.usable_first _
    · rw [MessageRef.value_iterate MessageRef.usable_first]
      decide
  exact ⟨hagain, (reference_reused_after_cycle [] mid m c).1 m c hagain⟩

end ShortMessage.Fallback
