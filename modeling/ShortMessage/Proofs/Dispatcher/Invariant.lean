import Mathlib.Data.List.Induction
import ShortMessage.Proofs.Dispatcher.Coherence

/-!
# The invariant of a dispatcher

Every message is coherent, references are in order, and a message that was never sent has left no
trace.  Every event keeps this (`Step.invariant`), so it holds after every admissible run
(`Initial.invariant_run`).

* `Invariant`: the invariant;
* `Invariant.of_evolves`, `of_launched`, `of_decided`: the three ways in which an event keeps it.
-/

namespace ShortMessage.Dispatcher

variable {σ : Type} {d d' : Dispatcher σ}

/-- **The invariant of a dispatcher** that has been asked to send the given messages. -/
structure Invariant (known : List MessageId) (d : Dispatcher σ) : Prop where
  numbered : d.fallback.Numbered
  coherent : ∀ m, d.Coherent m
  unknown : ∀ m, m ∉ known → d.Unknown m
  reportsSent : ∀ a ∈ d.attempts,
    a.handOver.callback.reportsSent = decide (a.route = .circuit)

theorem Initial.invariant (h : d.Initial) : d.Invariant [] := by
  obtain ⟨limits, timeout, prefersIms, radio, card, rfl⟩ := h
  have hunknown : ∀ m, (new limits timeout prefersIms radio card).Unknown m :=
    fun m => ⟨rfl, fun a ha => (nomatch ha), fun r e hr => (nomatch hr)⟩
  exact ⟨Fallback.numbered_new, fun m => (hunknown m).coherent, fun m _ => hunknown m,
    fun a ha => (nomatch ha)⟩

theorem Invariant.of_evolves {known : List MessageId} (h : d.Invariant known)
    (hf : d'.fallback.Numbered) (hatt : d'.attempts = d.attempts)
    (he : ∀ m, d.Evolves m d') : d'.Invariant known :=
  ⟨hf, fun m => coherent_of_evolves (h.coherent m) (he m),
    fun m hm => unknown_of_evolves (h.unknown m hm) (he m), hatt ▸ h.reportsSent⟩

theorem Invariant.of_launched [Radio σ] {known : List MessageId} {s : Sending}
    {content : Content} {ims circuit : List Attempt} (h : d.Invariant known)
    (hl : Launched d s content ims circuit d') (hc : content.Indexed)
    (hfresh : s.message ∉ known) (hroom : d.route = .ims → d.fallback.HasRoom) :
    d'.Invariant (known ++ [s.message]) := by
  refine ⟨hl.numbered h.numbered, fun m => ?_, fun m hm => ?_, fun a ha => ?_⟩
  · by_cases hm : m = s.message
    · subst hm
      exact hl.coherent (h.unknown _ hfresh) hc
    · exact coherent_of_evolves (h.coherent m) (hl.evolves h.numbered hroom hm)
  · rw [List.mem_append, List.mem_singleton, not_or] at hm
    exact unknown_of_evolves (h.unknown m hm.1) (hl.evolves h.numbered hroom hm.2)
  · rw [hl.attempts] at ha
    rcases List.mem_append.1 ha with ha | ha
    · exact h.reportsSent a ha
    · exact (hl.of_mem ha).2

theorem Invariant.of_decided {known : List MessageId} {e : Fallback.Entry}
    {circuit : List Attempt} (h : d.Invariant known) (hd : Decided d e circuit d')
    (he : d.fallback.entry? e.ref = some e) (hphase : e.phase = .awaitingReport) :
    d'.Invariant known := by
  refine ⟨hd.numbered h.numbered he, fun m => ?_, fun m hm => ?_, fun a ha => ?_⟩
  · by_cases hm : m = e.message
    · subst hm
      exact hd.coherent (h.coherent _) he hphase
    · exact coherent_of_evolves (h.coherent m) (hd.evolves he hm)
  · refine unknown_of_evolves (h.unknown m hm) (hd.evolves he ?_)
    rintro rfl
    exact (h.unknown _ hm).entries _ _ he rfl
  · rw [hd.attempts] at ha
    rcases List.mem_append.1 ha with ha | ha
    · exact h.reportsSent a ha
    · rw [(hd.of_mem ha).2.2.1, (hd.of_mem ha).2.1]
      rfl

theorem Step.numbered [Radio σ] {e : Event σ} (hstep : Step d e d') (h : d.fallback.Numbered) :
    d'.fallback.Numbered := by
  cases hstep with
  | refused he => exact h
  | @launched e s content he hc =>
    obtain ⟨ims, circuit, hl⟩ := launched_launch d s h hc
    exact hl.numbered h
  | ignored hno hentries hnext => exact h.of_entries_eq hentries hnext
  | @succeeded ref e he hp =>
    obtain rfl := h.ref_eq ref e he
    exact (decided_succeeded d e).numbered h he
  | @failed ref e d' he hp hd =>
    obtain rfl := h.ref_eq ref e he
    obtain ⟨circuit, hdec⟩ := decided_failed h he hd
    exact hdec.numbered h he
  | callBack callback signal => exact h
  | sweep now => exact h.retire _
  | surroundings radio card archive => exact h

/-- **Every event keeps the invariant.** -/
theorem Step.invariant [Radio σ] {known : List MessageId} {e : Event σ} (hstep : Step d e d')
    (h : d.Invariant known) (hfresh : ∀ s, e.sending? = some s → s.message ∉ known)
    (hroom : e.sending? ≠ none → d.route = .ims → d.fallback.HasRoom) :
    d'.Invariant (known ++ messages [e]) := by
  have hnil : ∀ l : List MessageId, l = l ++ [] := fun l => (List.append_nil l).symm
  have hf := hstep.numbered h.numbered
  cases hstep with
  | @refused e s he =>
    have hmsg : messages [e] = [s.message] := by simp [messages, sendings, he]
    have hstay : (d.closeTokens s.tokens).Invariant known :=
      h.of_evolves h.numbered rfl (evolves_of_develops (.refl _) rfl rfl)
    rw [hmsg]
    exact ⟨hstay.numbered, hstay.coherent,
      fun m hm => hstay.unknown m fun hk => hm (List.mem_append_left _ hk), hstay.reportsSent⟩
  | @launched e s content he hc =>
    have hmsg : messages [e] = [s.message] := by simp [messages, sendings, he]
    obtain ⟨ims, circuit, hl⟩ := launched_launch d s h.numbered hc
    rw [hmsg]
    exact h.of_launched hl hc (hfresh s he) (hroom (by simp [he]))
  | @ignored kind ref success fallback hno hentries hnext =>
    exact hnil known ▸ h.of_evolves hf rfl (evolves_of_develops (.refl _) rfl hentries)
  | @succeeded ref e he hp =>
    obtain rfl := h.numbered.ref_eq ref e he
    exact hnil known ▸ h.of_decided (decided_succeeded d e) he hp
  | @failed ref e d' he hp hd =>
    obtain rfl := h.numbered.ref_eq ref e he
    obtain ⟨circuit, hdec⟩ := decided_failed h.numbered he hd
    exact hnil known ▸ h.of_decided hdec he hp
  | callBack callback signal =>
    exact hnil known ▸ h.of_evolves h.numbered rfl
      (evolves_of_develops (Tracker.develops_callBack _ _ _) rfl rfl)
  | sweep now =>
    exact hnil known ▸ h.of_evolves hf rfl (evolves_sweep d now)
  | surroundings radio card archive =>
    exact hnil known ▸ h.of_evolves h.numbered rfl (evolves_of_develops (.refl _) rfl rfl)

/-! ### Runs -/

theorem Initial.numbered_run [Radio σ] (h₀ : d.Initial) (es : List (Event σ)) :
    (d.run es).fallback.Numbered := by
  induction es using List.reverseRecOn with
  | nil => exact h₀.invariant.numbered
  | append_singleton es e ih =>
    rw [run_concat]
    exact (step_handle _ e).numbered ih

theorem Step.size_le [Radio σ] {e : Event σ} (hstep : Step d e d') (h : d.fallback.Numbered) :
    d'.fallback.entries.size ≤ d.fallback.entries.size + 1 := by
  cases hstep with
  | refused he => exact Nat.le_succ _
  | @launched e s content he hc =>
    obtain ⟨ims, circuit, hl⟩ := launched_launch d s h hc
    rcases hl.fallback with ⟨-, hfall⟩ | ⟨-, entry, hentry⟩
    · exact hfall ▸ Nat.le_succ _
    · exact hentry.files.size_le
  | ignored hno hentries hnext => exact hentries ▸ Nat.le_succ _
  | succeeded he hp => exact (decided_succeeded d _).files.size_le
  | failed he hp hd =>
    obtain ⟨circuit, hdec⟩ := decided_failed h he hd
    exact hdec.files.size_le
  | callBack callback signal => exact Nat.le_succ _
  | sweep now => exact Nat.le_succ_of_le (List.length_filter_le _ _)
  | surroundings radio card archive => exact Nat.le_succ _

theorem Initial.size_run_le [Radio σ] (h₀ : d.Initial) (es : List (Event σ)) :
    (d.run es).fallback.entries.size ≤ es.length := by
  induction es using List.reverseRecOn with
  | nil =>
    obtain ⟨limits, timeout, prefersIms, radio, card, rfl⟩ := h₀
    exact Nat.le_refl 0
  | append_singleton es e ih =>
    have hstep := (step_handle (d.run es) e).size_le (h₀.numbered_run es)
    rw [run_concat, List.length_append, List.length_singleton]
    omega

/-- A run that is not longer than there are references can happen, if it gives out identities
once. -/
theorem Initial.admissible_of_length [Radio σ] (h₀ : d.Initial) {es : List (Event σ)}
    (hfresh : (messages es).Nodup) (hlen : es.length ≤ MessageRef.count) : Admissible d es := by
  refine ⟨hfresh, ?_⟩
  rintro pre e post rfl - -
  have hsize := h₀.size_run_le pre
  rw [List.length_append, List.length_cons] at hlen
  exact Fallback.hasRoom_of_size_lt (by omega)

/-- **The invariant holds** after every admissible run. -/
theorem Initial.invariant_run [Radio σ] (h₀ : d.Initial) {es : List (Event σ)}
    (h : Admissible d es) : (d.run es).Invariant (messages es) := by
  induction es using List.reverseRecOn with
  | nil => exact h₀.invariant
  | append_singleton es e ih =>
    rw [run_concat, messages_append]
    refine (step_handle _ e).invariant (ih h.of_append) (fun s hs hmem => ?_) fun he => ?_
    · have hnd := h.fresh
      rw [messages_append] at hnd
      exact (List.nodup_append.1 hnd).2.2 _ hmem _ (mem_messages List.mem_cons_self hs) rfl
    · exact h.room es e [] (by simp) he

end ShortMessage.Dispatcher
