import ShortMessage.Proofs.Tracker.Waiting

/-!
# Parts that are settled one after the other

A context with a pending part reports nothing and does not retire.  So pending parts that get their
send result one after the other are as good as settled at once (`foldl_signal_sent`): before the
last one there is always a part to wait for.

* `conclude_of_pending`: a context concludes nothing as long as a part is pending;
* `foldl_signal_sent`: send results for several pending parts;
* `context?_settle`, `outcomes_settle`, `Settles`: what a settlement leaves;
* `remains_settle_opened`, `conclusion_settle_opened`: a new context whose parts have all failed.
-/

namespace ShortMessage

namespace Tracker

namespace Context

variable {c : Context} {l l' : List Nat} {i : Nat} {result : SendResult}

/-! ### A context that waits for a part -/

theorem takeAggregate_of_pending (h : .pending ∈ c.parts) : c.takeAggregate = (c, none) := by
  have hunsettled : c.allSettled ≠ true := fun hs => allSettled_iff_not_mem.1 hs h
  rcases takeAggregate_cases c with ⟨-, he⟩ | ⟨-, hs, -⟩
  · exact he
  · exact absurd hs hunsettled

theorem remains_of_pending (h : .pending ∈ c.parts) : c.remains = some c := by
  cases hr : c.remains with
  | none => exact absurd (Or.inl h) (remains_eq_none_iff.1 hr)
  | some c' =>
    rw [(takeAggregate_eq_of_remains hr).1, takeAggregate_of_pending h]

theorem takeAggregate_snd (c : Context) :
    c.takeAggregate.2 =
      if c.reported = true ∨ .pending ∈ c.parts then none else some c.aggregate := by
  rcases takeAggregate_cases c with ⟨hr | hr, he⟩ | ⟨hr, hset, he⟩ <;> rw [he]
  · rw [if_pos (Or.inl hr)]
  · have hpending : .pending ∈ c.parts := by
      by_contra hp
      rw [allSettled_iff_not_mem.2 hp] at hr
      cases hr
    rw [if_pos (Or.inr hpending)]
  · rw [if_neg]
    rintro (hr' | hp)
    · rw [hr] at hr'
      cases hr'
    · exact allSettled_iff_not_mem.1 hset hp

theorem conclusion_of_pending (h : .pending ∈ c.parts) : c.conclusion = [] := by
  have hstays := (takeAggregate_eq_of_remains (remains_of_pending h)).2
  unfold conclusion
  rw [hstays, takeAggregate_of_pending h]
  rfl

/-- **What becomes of the tokens** of a context that concludes: the sent token is fired if no part
is pending, and the delivered tokens are closed if the context retires. -/
theorem conclusion_eq (h : Consistent c) :
    c.conclusion =
      (if .pending ∈ c.parts then [] else c.sentToken.toList.map (Token.fire c.aggregate)) ++
        if c.remains.isSome then [] else (c.deliveredTokens.filterMap id).map Token.close := by
  by_cases hp : .pending ∈ c.parts
  · rw [conclusion_of_pending hp, remains_of_pending hp, if_pos hp]
    rfl
  · have hset := allSettled_iff_not_mem.2 hp
    rw [if_neg hp]
    unfold conclusion remains
    rcases takeAggregate_cases c with ⟨hr | hr, he⟩ | ⟨-, -, he⟩ <;> rw [he]
    · cases c.isRetirable <;> simp [held, h.spent hr]
    · rw [hset] at hr
      cases hr
    · cases hret : ({ c with reported := true, sentToken := none } : Context).isRetirable <;>
        simp [held]

/-! ### Settling step by step -/

theorem signal_sent_of_pending (h : c.parts[i]? = some .pending) (result : SendResult) :
    c.signal i (.sent result) = (c.settle [i] result, none) := by
  have hparts : c.parts.set i (.ofResult result) = (c.settle [i] result).parts := by
    refine List.ext_getElem? fun j => ?_
    rw [settle_parts, List.getElem?_set]
    by_cases hij : i = j
    · subst hij
      rw [if_pos rfl, if_pos (List.getElem?_eq_some_iff.1 h).1,
        if_pos ⟨h, List.mem_singleton_self i⟩]
    · rw [if_neg hij, if_neg fun hj => hij (List.mem_singleton.1 hj.2).symm]
  unfold signal
  simp only [if_pos h, hparts]
  rfl

theorem settle_settle (c : Context) (l l' : List Nat) (result : SendResult) :
    (c.settle l result).settle l' result = c.settle (l ++ l') result := by
  have hparts : ((c.settle l result).settle l' result).parts =
      (c.settle (l ++ l') result).parts := by
    refine List.ext_getElem? fun j => ?_
    simp only [settle_parts, List.mem_append]
    by_cases hp : c.parts[j]? = some .pending
    · by_cases hl : j ∈ l
      · simp [hp, hl, ofResult_ne_pending]
      · simp [hp, hl]
    · simp [hp]
  unfold settle at hparts ⊢
  simp only [Context.mk.injEq, true_and, and_true]
  exact hparts

/-! ### A new context that fails -/

variable {now : Int} {n : Nat} {sentTokens deliveredTokens : List Token}

theorem parts_settle_opened (hl : ∀ i < n, i ∈ l) (result : SendResult) :
    ((opened now n sentTokens deliveredTokens).settle l result).parts =
      List.replicate n (.ofResult result) := by
  refine List.ext_getElem? fun i => ?_
  rw [settle_parts, show (opened now n sentTokens deliveredTokens).parts = List.replicate n .pending
    from rfl]
  by_cases hi : i < n
  · simp [hi, hl i hi]
  · simp [hi]

theorem ofResult_of_ne (hr : result ≠ .success) : Progress.ofResult result = .failed result := by
  cases result with
  | success => exact absurd rfl hr
  | _ => rfl

theorem remains_settle_opened (hl : ∀ i < n, i ∈ l) (hr : result ≠ .success) :
    ((opened now n sentTokens deliveredTokens).settle l result).remains = none := by
  refine remains_eq_none_iff.2 ?_
  unfold Waits
  rw [parts_settle_opened hl, ofResult_of_ne hr]
  rintro (hp | ⟨i, τ, hi, -⟩)
  · cases List.eq_of_mem_replicate hp
  · cases List.eq_of_mem_replicate (List.mem_of_getElem? hi)

theorem conclusion_settle_opened (hn : 0 < n) (hl : ∀ i < n, i ∈ l) (hr : result ≠ .success) :
    ((opened now n sentTokens deliveredTokens).settle l result).conclusion =
      sentTokens.getLast?.toList.map (Token.fire result) ++
        (deliveredTokens.take n).map Token.close := by
  have hparts : ((opened now n sentTokens deliveredTokens).settle l result).parts =
      List.replicate n (.ofResult result) := parts_settle_opened hl result
  have hsettled : Progress.pending ∉
      ((opened now n sentTokens deliveredTokens).settle l result).parts := by
    rw [hparts, ofResult_of_ne hr]
    exact fun hp => by cases List.eq_of_mem_replicate hp
  have haggregate : ((opened now n sentTokens deliveredTokens).settle l result).aggregate =
      result := by
    unfold aggregate
    rw [hparts, ofResult_of_ne hr, List.findSome?_replicate, if_neg (Nat.ne_of_gt hn)]
    rfl
  have hheld := Registration.held_opened ⟨⟨0⟩, n, sentTokens, deliveredTokens⟩ now
  unfold Registration.opened held at hheld
  rw [conclusion_eq (consistent_settle (sound_opened _ _ _ _).toConsistent _ _), if_neg hsettled,
    haggregate, remains_settle_opened hl hr]
  show _ ++ (List.filterMap id (opened now n sentTokens deliveredTokens).deliveredTokens).map _ = _
  rw [List.append_cancel_left hheld]
  rfl

end Context

variable {t : Tracker} {m : MessageId} {c : Context}

theorem conclude_of_pending (h : .pending ∈ c.parts) (t : Tracker) (m : MessageId) :
    t.conclude m c none = { t with contexts := t.contexts.insert m c } := by
  rw [conclude_eq, Context.remains_of_pending h, Context.conclusion_of_pending h,
    Context.takeAggregate_of_pending h]
  simp

/-- What a context has become in between does not matter to its conclusion. -/
theorem conclude_insert (t : Tracker) (m : MessageId) (c c' : Context) (released : Option Token) :
    Tracker.conclude { t with contexts := t.contexts.insert m c } m c' released =
      t.conclude m c' released := by
  rw [conclude_eq, conclude_eq]
  cases c'.remains with
  | none => simp only [Registry.erase_insert_self]
  | some _ => simp only [Registry.insert_insert_self]

/-- **Send results for several pending parts**, one after the other, are one settlement. -/
theorem foldl_signal_sent {l : List Nat} (hc : t.context? m = some c) (hl : l ≠ [])
    (hnd : l.Nodup) (hp : ∀ i ∈ l, c.parts[i]? = some .pending) (result : SendResult) :
    l.foldl (fun t i => t.signal m i (.sent result)) t = (t.settle m l result).2 := by
  induction l generalizing t c with
  | nil => exact absurd rfl hl
  | cons i l ih =>
    have hi := hp i List.mem_cons_self
    have hfirst : t.signal m i (.sent result) = t.conclude m (c.settle [i] result) none := by
      rw [signal_eq hc (List.getElem?_eq_some_iff.1 hi).1, Context.signal_sent_of_pending hi]
    rw [List.foldl_cons, hfirst, settle_eq hc]
    cases l with
    | nil => rfl
    | cons j l =>
      obtain ⟨hij, hnd⟩ := List.nodup_cons.1 hnd
      -- the parts that come later are still pending, so the context concludes nothing yet
      have hlater : ∀ k ∈ j :: l, (c.settle [i] result).parts[k]? = some .pending := by
        intro k hk
        rw [Context.settle_parts, if_neg, hp k (List.mem_cons_of_mem _ hk)]
        rintro ⟨-, hki⟩
        obtain rfl := List.mem_singleton.1 hki
        exact hij hk
      have hpending := List.mem_of_getElem? (hlater j List.mem_cons_self)
      rw [conclude_of_pending hpending]
      have hc' :
          Tracker.context? { t with contexts := t.contexts.insert m (c.settle [i] result) } m =
            some (c.settle [i] result) := Registry.get?_insert_self _ _ _
      rw [ih hc' (List.cons_ne_nil _ _) hnd hlater, settle_eq hc', Context.settle_settle,
        conclude_insert]
      rfl

theorem context?_settle (hc : t.context? m = some c) (l : List Nat) (result : SendResult) :
    Tracker.context? (t.settle m l result).2 m = (c.settle l result).remains := by
  rw [settle_eq hc, context?_conclude, if_pos rfl]

theorem outcomes_settle (hc : t.context? m = some c) (l : List Nat) (result : SendResult) :
    Tracker.outcomes (t.settle m l result).2 = t.outcomes ++ (c.settle l result).conclusion := by
  rw [settle_eq hc, outcomes_conclude]
  rfl

/-- **What a settlement leaves** of a message with the context `c`: the listed parts that are
pending get the result.  If then no part is pending, the whole send is reported; if nothing is left
to wait for, the context retires. -/
structure Settles (t : Tracker) (m : MessageId) (c : Context) (l : List Nat)
    (result : SendResult) (t' : Tracker) : Prop where
  parts : ∀ i : Nat, (c.settle l result).parts[i]? =
    if c.parts[i]? = some .pending ∧ i ∈ l then some (.ofResult result) else c.parts[i]?
  context : ∀ c', t'.context? m = some c' → c'.parts = (c.settle l result).parts
  retired_iff : t'.context? m = none ↔ ¬ (c.settle l result).Waits
  /-- The sent token is fired with the result of the whole send, and the delivered tokens of a
  context that retires are closed. -/
  outcomes : t'.outcomes = t.outcomes ++
    ((if .pending ∈ (c.settle l result).parts then []
      else c.sentToken.toList.map (Token.fire (c.settle l result).aggregate)) ++
    if t'.context? m = none then (c.deliveredTokens.filterMap id).map Token.close else [])
  counters : t'.counters = t.counters ++
    if c.reported = true ∨ .pending ∈ (c.settle l result).parts then []
    else [.aggregateReported (c.settle l result).aggregate]
  others : ∀ m' ≠ m, t'.context? m' = t.context? m'

theorem settles_settle (hs : t.AllSound) (hc : t.context? m = some c) (l : List Nat)
    (result : SendResult) : t.Settles m c l result (t.settle m l result).2 where
  parts := c.settle_parts l result
  context c' hc' := by
    rw [context?_settle hc] at hc'
    rw [(Context.takeAggregate_eq_of_remains hc').1, Context.takeAggregate_parts]
  retired_iff := by
    rw [context?_settle hc]
    exact Context.remains_eq_none_iff
  outcomes := by
    rw [outcomes_settle hc, context?_settle hc,
      Context.conclusion_eq (Context.consistent_settle (hs m c hc).toConsistent l result)]
    cases (c.settle l result).remains <;> rfl
  counters := by
    rw [settle_eq hc, counters_conclude, Context.takeAggregate_snd, Context.settle_reported]
    split <;> rfl
  others m' hm' := by rw [settle_eq hc, context?_conclude, if_neg hm']

end Tracker

end ShortMessage
