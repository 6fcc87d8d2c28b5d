import ShortMessage.Proofs.Dispatcher.Entries

/-!
# What a run resends

A failure report resends what is pending of the message that waits for it.  Then the message does
not wait any more (`not_awaiting_of_resent`), so it is resent once at most, and only messages that
were enlisted are resent.

* `resentAt`, `resent`: the messages that a run resends;
* `mem_enlistments`, `resent_subset`: where they come from;
* `nodup_resent`, `length_resent`: each of them is resent once.
-/

namespace ShortMessage.Dispatcher

variable {σ : Type} [Radio σ] {d d₀ : Dispatcher σ} {e : Event σ} {es : List (Event σ)}
  {x : Enlistment}

/-- What an event resends: a failure report that has something handed to the circuit domain resends
the message of that piece. -/
def resentAt (d : Dispatcher σ) (e : Event σ) : List Enlistment :=
  match e with
  | .report kind ref false =>
    ((d.offered e).find? (·.route = .circuit)).toList.map fun a => ⟨a.message, kind, ref⟩
  | _ => []

theorem resentAt_of_sending {s : Sending} (he : e.sending? = some s) : d.resentAt e = [] := by
  cases e <;> first | rfl | cases he

theorem resentAt_of_offered_nil (h : d.offered e = []) : d.resentAt e = [] := by
  unfold resentAt
  split
  · rw [h]
    rfl
  · rfl

/-- All that a run resends. -/
def resent (d : Dispatcher σ) (es : List (Event σ)) : List Enlistment :=
  (moments d es).flatMap fun x => x.1.resentAt x.2

theorem resent_concat (d : Dispatcher σ) (es : List (Event σ)) (e : Event σ) :
    resent d (es ++ [e]) = resent d es ++ (d.run es).resentAt e :=
  flatMap_moments_concat _ d es e

/-- A message that is resent was waiting for the failure report that comes. -/
structure Awaits (d : Dispatcher σ) (x : Enlistment) (entry : Fallback.Entry) : Prop where
  entry? : d.fallback.entry? x.ref = some entry
  phase : entry.phase = .awaitingReport
  message_eq : entry.message = x.message
  kind_eq : entry.content.kind = x.kind

theorem awaits_of_resentAt (hf : d.fallback.Numbered) (hx : x ∈ d.resentAt e) :
    e = .report x.kind x.ref false ∧ ∃ entry, d.Awaits x entry := by
  unfold resentAt at hx
  split at hx
  · next kind ref =>
    obtain ⟨a, ha, rfl⟩ := List.mem_map.1 hx
    refine ⟨rfl, ?_⟩
    have ha := List.mem_of_find?_eq_some (Option.mem_toList.1 ha)
    cases reason_of_mem hf ha with
    | sent he hm => cases he
    | resent hentry hp hm hroute hi hpending => exact ⟨_, hentry, hp, hm.symm, rfl⟩
  · cases hx

theorem nodup_resentAt (d : Dispatcher σ) (e : Event σ) : (d.resentAt e).Nodup := by
  unfold resentAt
  split
  · cases (d.offered _).find? _ <;> simp
  · exact List.nodup_nil

/-! ### Where they come from -/

theorem mem_enlistments (h₀ : d₀.Initial) (es : List (Event σ)) :
    ∀ r entry, (d₀.run es).fallback.entry? r = some entry →
      ⟨entry.message, entry.content.kind, r⟩ ∈ enlistments d₀ es := by
  induction es using List.reverseRecOn with
  | nil =>
    obtain ⟨limits, timeout, prefersIms, radio, card, rfl⟩ := h₀
    exact fun r x hx => (nomatch hx)
  | append_singleton es e ih =>
    intro r entry hr
    rw [run_concat] at hr
    rw [enlistments_concat, List.mem_append, Option.mem_toList]
    rcases (step_handle _ e).entry_cases (h₀.numbered_run es) hr with
      hold | ⟨y, hold, rfl⟩ | ⟨s, content, ims, circuit, -, -, -, -, hnew⟩
    · exact Or.inl (ih r entry hold)
    · exact Or.inl (ih r y hold)
    · exact Or.inr hnew

theorem resent_subset (h₀ : d₀.Initial) (es : List (Event σ)) :
    resent d₀ es ⊆ enlistments d₀ es := by
  induction es using List.reverseRecOn with
  | nil => exact List.nil_subset _
  | append_singleton es e ih =>
    intro x hx
    have hgrow : enlistments d₀ es ⊆ enlistments d₀ (es ++ [e]) := by
      rw [enlistments_concat]
      exact List.subset_append_left _ _
    rw [resent_concat] at hx
    rcases List.mem_append.1 hx with hx | hx
    · exact hgrow (ih hx)
    · obtain ⟨-, entry, hentry⟩ := awaits_of_resentAt (h₀.numbered_run es) hx
      have hmem := mem_enlistments h₀ es _ _ hentry.entry?
      rw [hentry.message_eq, hentry.kind_eq] at hmem
      exact hgrow hmem

theorem nodup_enlistments (h : Admissible d₀ es) : (enlistments d₀ es).Nodup :=
  List.Nodup.of_map _ (h.fresh.sublist (enlistments_sublist d₀ es))

/-! ### Once -/

/-- **A message that is resent waits no more.** -/
theorem not_awaiting_of_resent (h₀ : d₀.Initial) (h : Admissible d₀ es) (hx : x ∈ resent d₀ es)
    {r : MessageRef} {entry : Fallback.Entry} (hr : (d₀.run es).fallback.entry? r = some entry)
    (hm : entry.message = x.message) : entry.phase ≠ .awaitingReport := by
  induction es using List.reverseRecOn generalizing r entry with
  | nil => cases hx
  | append_singleton es e ih =>
    intro hp
    have hinv := h₀.invariant_run h.of_append
    rw [resent_concat, List.mem_append] at hx
    rw [run_concat] at hr
    rcases hx with hx | hx <;>
      rcases (step_handle _ e).waiting hinv.numbered hr hp with ⟨s, hs, hsent⟩ | ⟨hbefore, hne⟩
    · have hold : x.message ∈ messages es :=
        (enlistments_sublist d₀ es).subset (List.mem_map_of_mem (resent_subset h₀ es hx))
      rw [← hm, hsent] at hold
      exact h.not_mem_messages hold (mem_messages List.mem_cons_self hs)
    · exact ih h.of_append hx hbefore hm hp
    · obtain ⟨rfl, -⟩ := awaits_of_resentAt hinv.numbered hx
      cases hs
    · obtain ⟨rfl, waiting, hw⟩ := awaits_of_resentAt hinv.numbered hx
      obtain rfl := (hinv.coherent x.message).unique hbefore hw.entry? hm hw.message_eq
      obtain rfl := Option.some.inj (hbefore.symm.trans hw.entry?)
      exact hne false (by rw [hw.kind_eq])

/-- **A message is resent once** at most. -/
theorem nodup_resent (h₀ : d₀.Initial) (h : Admissible d₀ es) : (resent d₀ es).Nodup := by
  induction es using List.reverseRecOn with
  | nil => exact List.nodup_nil
  | append_singleton es e ih =>
    rw [resent_concat]
    refine List.nodup_append.2 ⟨ih h.of_append, nodup_resentAt _ e, ?_⟩
    rintro x hx y hy rfl
    obtain ⟨-, entry, hentry⟩ := awaits_of_resentAt (h₀.numbered_run es) hy
    exact not_awaiting_of_resent h₀ h.of_append hx hentry.entry? hentry.message_eq hentry.phase

/-- So the resends of a kind are as many as the enlisted messages of the kind that are resent. -/
theorem length_resent (h₀ : d₀.Initial) (h : Admissible d₀ es) (kind : Kind) :
    ((resent d₀ es).filter (·.kind = kind)).length =
      ((enlistments d₀ es).filter fun x => x.kind = kind ∧ x ∈ resent d₀ es).length := by
  refine List.Perm.length_eq ?_
  refine (List.perm_ext_iff_of_nodup ((nodup_resent h₀ h).filter _)
    ((nodup_enlistments h).filter _)).2 fun x => ?_
  simp only [List.mem_filter, decide_eq_true_eq]
  constructor
  · rintro ⟨hx, hk⟩
    exact ⟨resent_subset h₀ es hx, hk, hx⟩
  · rintro ⟨-, hk, hx⟩
    exact ⟨hx, hk⟩

end ShortMessage.Dispatcher
