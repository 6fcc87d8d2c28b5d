import ShortMessage.Proofs.Dispatcher.Invariant
import ShortMessage.Proofs.Tracker.Account

/-!
# The tracker's part in a run

A run of a dispatcher is a run of its tracker, in which the launched sends are the registrations;
the tokens of the refused sends are closed by the dispatcher itself.  So the account of the tracker
is one of the dispatcher: a token that was handed in has ended or is held.

* `handed`, `fates`: what a run hands in, and what became of a token;
* `Traced`, `Step.traced`: the events that an event causes in the tracker;
* `exists_trace`, `Initial.allSound_run`: those of a whole run, and what they make of its contexts;
* `length_fates_add_count`, `holder_of_mem_held`: the account, and who holds a token.
-/

namespace ShortMessage.Dispatcher

variable {σ : Type} {d d' : Dispatcher σ} {τ : Token}

/-- The tokens that a run hands in. -/
def handed (es : List (Event σ)) : List Token :=
  (sendings es).flatMap Sending.tokens

/-- What became of a token so far. -/
def fates (d : Dispatcher σ) (τ : Token) : List Outcome :=
  (d.outcomes.filter (·.1 = τ)).map Prod.snd

theorem sendings_append (es fs : List (Event σ)) :
    sendings (es ++ fs) = sendings es ++ sendings fs :=
  List.filterMap_append

theorem handed_append (es fs : List (Event σ)) : handed (es ++ fs) = handed es ++ handed fs := by
  unfold handed
  rw [sendings_append, List.flatMap_append]

/-- The events that an event of a dispatcher causes in its tracker, and the tokens that it closes
itself. -/
structure Traced (d : Dispatcher σ) (e : Event σ) (ts : List Tracker.Event) (d' : Dispatcher σ) :
    Prop where
  tracker : d'.tracker = d.tracker.run ts
  registered : ∀ r ∈ Tracker.registrations ts,
    ∃ s, e.sending? = some s ∧ r.message = s.message ∧ r.tokens = s.tokens
  closed : ∃ new, d'.resolved = d.resolved ++ new ∧
    (Tracker.handed ts ++ new.map Prod.fst).Perm (handed [e])

theorem handed_singleton {e : Event σ} {s : Sending} (he : e.sending? = some s) :
    handed [e] = s.tokens := by
  simp [handed, sendings, he]

theorem handed_of_none {e : Event σ} (he : e.sending? = none) : handed [e] = [] := by
  simp [handed, sendings, he]

theorem traced_of_develops {e : Event σ} (htrack : d.tracker.Develops d'.tracker)
    (hres : d'.resolved = d.resolved) (he : e.sending? = none) : ∃ ts, Traced d e ts d' := by
  obtain ⟨ts, hts, htrack⟩ := htrack
  refine ⟨ts, htrack, fun r hr => ?_, [], by rw [hres, List.append_nil], ?_⟩
  · rw [hts] at hr
    cases hr
  · rw [handed_of_none he, Tracker.handed, hts]
    exact .refl _

theorem Launched.traced [Radio σ] {e : Event σ} {s : Sending} {content : Content}
    {ims circuit : List Attempt} (h : Launched d s content ims circuit d')
    (he : e.sending? = some s) : ∃ ts, Traced d e ts d' := by
  obtain ⟨ts, hts, htrack⟩ := h.tracker
  let r : Tracker.Registration :=
    ⟨s.message, content.indices.length, s.sentTokens, s.deliveredTokens⟩
  have hreg : Tracker.registrations (.register s.now r :: ts) = [r] := by
    rw [Tracker.registrations_cons, hts]
    rfl
  refine ⟨.register s.now r :: ts, htrack, fun r' hr' => ?_, [], ?_, ?_⟩
  · rw [hreg] at hr'
    obtain rfl := List.mem_singleton.1 hr'
    exact ⟨s, he, rfl, rfl⟩
  · rw [h.resolved, List.append_nil]
  · rw [handed_singleton he, Tracker.handed, hreg]
    simp only [List.flatMap_cons, List.flatMap_nil, List.append_nil, List.map_nil]
    exact .refl _

theorem Step.traced [Radio σ] {e : Event σ} (hstep : Step d e d') (hf : d.fallback.Numbered) :
    ∃ ts, Traced d e ts d' := by
  cases hstep with
  | @refused e s he =>
    refine ⟨[], rfl, fun r hr => (nomatch hr), s.tokens.map Token.close, rfl, ?_⟩
    rw [handed_singleton he, Token.map_fst_close]
    exact .refl _
  | @launched e s content he hc =>
    obtain ⟨ims, circuit, hl⟩ := launched_launch d s hf hc
    exact hl.traced he
  | ignored hno hentries hnext => exact traced_of_develops (.refl _) rfl rfl
  | succeeded he hp => exact traced_of_develops (decided_succeeded d _).tracker rfl rfl
  | failed he hp hd =>
    obtain ⟨circuit, hdec⟩ := decided_failed hf he hd
    exact traced_of_develops hdec.tracker hdec.resolved rfl
  | callBack callback signal => exact traced_of_develops (Tracker.develops_callBack _ _ _) rfl rfl
  | sweep now => exact traced_of_develops (Tracker.develops_sweep _ now) rfl rfl
  | surroundings radio card archive => exact traced_of_develops (.refl _) rfl rfl

/-! ### Whole runs -/

/-- **The trace of a run**: the tracker has run from its beginning, on registrations of sends of the
run only; all tokens went to it or were closed at once. -/
structure Trace (timeout : Nat) (d : Dispatcher σ) (es : List (Event σ))
    (ts : List Tracker.Event) : Prop where
  tracker : d.tracker = (Tracker.new timeout).run ts
  registered : ∀ r ∈ Tracker.registrations ts,
    ∃ s ∈ sendings es, r.message = s.message ∧ r.tokens = s.tokens
  handed : (Tracker.handed ts ++ d.resolved.map Prod.fst).Perm (handed es)

section

variable [Radio σ] {d₀ : Dispatcher σ} {es : List (Event σ)}

theorem exists_trace (h₀ : d₀.Initial) (h : Admissible d₀ es) :
    ∃ timeout ts, Trace timeout (d₀.run es) es ts := by
  induction es using List.reverseRecOn with
  | nil =>
    obtain ⟨limits, timeout, prefersIms, radio, card, rfl⟩ := h₀
    exact ⟨timeout, [], rfl, fun r hr => (nomatch hr), .refl _⟩
  | append_singleton es e ih =>
    obtain ⟨timeout, ts, htrace⟩ := ih h.of_append
    obtain ⟨ts', htr⟩ := (step_handle (d₀.run es) e).traced (h₀.invariant_run h.of_append).numbered
    refine ⟨timeout, ts ++ ts', ?_, fun r hr => ?_, ?_⟩
    · rw [run_concat, htr.tracker, htrace.tracker, Tracker.run_append]
    · rw [Tracker.registrations_append] at hr
      rw [sendings_append]
      rcases List.mem_append.1 hr with hr | hr
      · obtain ⟨s, hs, heq⟩ := htrace.registered r hr
        exact ⟨s, List.mem_append_left _ hs, heq⟩
      · obtain ⟨s, hs, heq⟩ := htr.registered r hr
        exact ⟨s, List.mem_append_right _ (List.mem_filterMap.2 ⟨e, List.mem_cons_self, hs⟩), heq⟩
    · obtain ⟨new, hres, hperm⟩ := htr.closed
      refine List.perm_iff_count.2 fun τ => ?_
      have h1 := htrace.handed.count_eq τ
      have h2 := hperm.count_eq τ
      rw [run_concat, hres, handed_append, Tracker.handed_append]
      simp only [List.map_append, List.count_append] at h1 h2 ⊢
      omega

theorem Initial.allSound_run (h₀ : d₀.Initial) (es : List (Event σ)) :
    (d₀.run es).tracker.AllSound := by
  induction es using List.reverseRecOn with
  | nil =>
    obtain ⟨limits, timeout, prefersIms, radio, card, rfl⟩ := h₀
    exact Tracker.allSound_new timeout
  | append_singleton es ev ih =>
    obtain ⟨ts, htr⟩ := (step_handle (d₀.run es) ev).traced (h₀.numbered_run es)
    rw [run_concat, htr.tracker]
    exact Tracker.allSound_run ih ts

/-! ### The account of a dispatcher -/

/-- **The account**: a token that was handed in has ended or is held. -/
theorem length_fates_add_count (h₀ : d₀.Initial) (h : Admissible d₀ es) (τ : Token) :
    ((d₀.run es).fates τ).length + (d₀.run es).tracker.held.count τ = (handed es).count τ := by
  obtain ⟨timeout, ts, htrace⟩ := exists_trace h₀ h
  have h1 := (Tracker.account_new_run timeout ts).count_eq τ
  have h2 := htrace.handed.count_eq τ
  rw [← htrace.tracker] at h1
  unfold fates
  rw [Tracker.length_filter_fst]
  simp only [Tracker.account, outcomes, List.map_append, List.count_append] at h1 h2 ⊢
  omega

theorem sending_of_mem_held (h₀ : d₀.Initial) (h : Admissible d₀ es) {m : MessageId}
    {c : Tracker.Context} (hc : (d₀.run es).tracker.context? m = some c) (hτ : τ ∈ c.held) :
    ∃ s ∈ sendings es, s.message = m ∧ τ ∈ s.tokens := by
  obtain ⟨timeout, ts, htrace⟩ := exists_trace h₀ h
  have hown := Tracker.owned_of_run timeout ts
  rw [← htrace.tracker] at hown
  obtain ⟨r, hr, rfl, hrc⟩ := hown m c hc
  obtain ⟨s, hs, hm, htok⟩ := htrace.registered r hr
  exact ⟨s, hs, hm.symm, htok ▸ hrc.mem_tokens hτ⟩

theorem holder_of_mem_held (h₀ : d₀.Initial) (h : Admissible d₀ es)
    (hτ : τ ∈ (d₀.run es).tracker.held) :
    ∃ s ∈ sendings es, τ ∈ s.tokens ∧ (d₀.run es).tracker.context? s.message ≠ none := by
  obtain ⟨m, c, hc, hheld⟩ := Tracker.mem_held.1 hτ
  obtain ⟨s, hs, rfl, hτs⟩ := sending_of_mem_held h₀ h hc hheld
  refine ⟨s, hs, hτs, ?_⟩
  rw [hc]
  exact Option.some_ne_none c

end

end ShortMessage.Dispatcher
