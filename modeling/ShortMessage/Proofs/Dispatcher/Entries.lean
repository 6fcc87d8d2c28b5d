import ShortMessage.Proofs.Dispatcher.Answers
import ShortMessage.Proofs.Dispatcher.Attempts
import ShortMessage.Proofs.Dispatcher.Trace
import ShortMessage.Radio.Scripted

/-!
# The entries of a dispatcher

Between two events an entry waits for the carrier's report or has concluded: a failure is made good
within the event that brings it.  A message has one entry at most, and what an entry waits for is
what the IP route has taken.  A sweep leaves no entry without a live context, so after it there are
no more entries than contexts.

* `Step.entry_cases`: where an entry comes from;
* `Standing`, `Initial.standing_run`: how an entry stands after any run;
* `entry?_sweep`, `size_sweep_le`: the entries that a sweep leaves;
* `entries_in_step`: all of this, for every admissible run.
-/

namespace ShortMessage.Dispatcher

variable {σ : Type} {d d' d₀ : Dispatcher σ} {es : List (Event σ)} {r : MessageRef}
  {x : Fallback.Entry}

/-- **How an entry stands between two events**: it waits or has concluded, and the IP route has
taken every piece that it waits for, under its reference. -/
structure Standing (d : Dispatcher σ) (r : MessageRef) (e : Fallback.Entry) : Prop where
  phase : e.phase = .awaitingReport ∨ e.phase = .concluded
  taken : e.phase = .awaitingReport → ∀ c ∈ e.content.cargos,
    ⟨c.via .ims e.message (some r), true⟩ ∈ d.attempts

theorem Standing.mono {as : List Attempt} (h : d.Standing r x)
    (hatt : d'.attempts = d.attempts ++ as) : d'.Standing r x where
  phase := h.phase
  taken hp c hc := hatt ▸ List.mem_append_left _ (h.taken hp c hc)

section

variable [Radio σ]

/-- **Where an entry comes from**: it was there before, or a decision has just concluded it, or it
is that of a send, which enlists it. -/
theorem Step.entry_cases {e : Event σ} (hstep : Step d e d') (hf : d.fallback.Numbered)
    (hx : d'.fallback.entry? r = some x) :
    d.fallback.entry? r = some x ∨
    (∃ y, d.fallback.entry? r = some y ∧ x = { y with phase := .concluded }) ∨
    ∃ s content ims circuit, e.sending? = some s ∧ Launched d s content ims circuit d' ∧
      Enlisted d.fallback s.message content ims x d'.fallback ∧ r = x.ref ∧
      d.enlistedAt e = some ⟨x.message, x.content.kind, r⟩ := by
  cases hstep with
  | refused he => exact Or.inl hx
  | @launched e s content he hc hne hkind hanswer =>
    obtain ⟨ims, circuit, hl⟩ := launched_launch d s hf hc
    rcases hl.fallback with ⟨-, hfall⟩ | ⟨hroute, y, hy⟩
    · exact Or.inl (hfall ▸ hx)
    · rw [hy.files.entry?] at hx
      split at hx
      · next href =>
        obtain rfl := Option.some.inj hx
        refine Or.inr (Or.inr ⟨s, content, ims, circuit, he, hl, hy, href, ?_⟩)
        rw [hy.message_eq, hy.kind_eq, href, hy.ref_eq]
        exact enlistedAt_of_ims hkind hanswer hroute
      · exact Or.inl hx
  | ignored hno hentries hnext =>
    unfold Fallback.entry? at hx ⊢
    exact Or.inl (hentries ▸ hx)
  | @succeeded ref y hy hp =>
    obtain rfl := hf.ref_eq ref y hy
    rcases (decided_succeeded d y).entry_cases hx with ⟨rfl, rfl⟩ | ⟨-, hx⟩
    · exact Or.inr (Or.inl ⟨y, hy, rfl⟩)
    · exact Or.inl hx
  | @failed ref y d' hy hp hd =>
    obtain rfl := hf.ref_eq ref y hy
    obtain ⟨circuit, hdec⟩ := decided_failed hf hy hd
    rcases hdec.entry_cases hx with ⟨rfl, rfl⟩ | ⟨-, hx⟩
    · exact Or.inr (Or.inl ⟨y, hy, rfl⟩)
    · exact Or.inl hx
  | callBack callback signal => exact Or.inl hx
  | sweep now =>
    have hretire := Fallback.entry?_retire d.fallback (d.tracker.sweep now).2.isLive r
    rw [show Fallback.entry? (d.sweep now).2.fallback r = _ from hretire,
      Option.filter_eq_some_iff] at hx
    exact Or.inl hx.1
  | surroundings radio card archive => exact Or.inl hx

theorem Initial.standing_run (h₀ : d₀.Initial) (es : List (Event σ)) :
    ∀ r x, (d₀.run es).fallback.entry? r = some x → (d₀.run es).Standing r x := by
  induction es using List.reverseRecOn with
  | nil =>
    obtain ⟨limits, timeout, prefersIms, radio, card, rfl⟩ := h₀
    exact fun r x hx => (nomatch hx)
  | append_singleton es e ih =>
    intro r x hx
    have hf := h₀.numbered_run es
    have hatt := attempts_handle hf e
    rw [run_concat] at hx ⊢
    rcases (step_handle _ e).entry_cases hf hx with
      hold | ⟨y, -, rfl⟩ | ⟨s, content, ims, circuit, -, hl, hen, rfl, -⟩
    · exact (ih r x hold).mono hatt
    · exact ⟨Or.inr rfl, fun hp => by cases hp⟩
    · refine ⟨hen.phase, fun hp c hc => ?_⟩
      rw [hl.attempts, hen.message_eq]
      exact List.mem_append_right _ (List.mem_append_left _ (hen.taken hp c hc))

theorem timeout_run (h₀ : d₀.Initial) (es : List (Event σ)) :
    (d₀.run es).tracker.timeout = d₀.tracker.timeout := by
  induction es using List.reverseRecOn with
  | nil => rfl
  | append_singleton es e ih =>
    obtain ⟨ts, htr⟩ := (step_handle (d₀.run es) e).traced (h₀.numbered_run es)
    rw [run_concat, htr.tracker, Tracker.timeout_run, ih]

end

/-! ### Sweeps -/

theorem entry?_sweep {now : Int} (hx : (d.sweep now).2.fallback.entry? r = some x) :
    d.fallback.entry? r = some x ∧
      ∃ c, (d.sweep now).2.tracker.context? x.message = some c ∧ c.age now < d.tracker.timeout := by
  have hretire := Fallback.entry?_retire d.fallback (d.tracker.sweep now).2.isLive r
  rw [show Fallback.entry? (d.sweep now).2.fallback r = _ from hretire,
    Option.filter_eq_some_iff] at hx
  obtain ⟨hold, hlive⟩ := hx
  obtain ⟨c, hc⟩ := Registry.contains_eq_true_iff.1 hlive
  have hswept := Tracker.context?_sweep d.tracker now x.message
  rw [show Tracker.context? (d.tracker.sweep now).2 x.message = some c from hc] at hswept
  obtain ⟨-, hyoung⟩ := Option.filter_eq_some_iff.1 hswept.symm
  refine ⟨hold, c, hc, ?_⟩
  simpa [Tracker.isExpired] using hyoung

/-- Messages with one entry each have no more entries after a sweep than there are contexts. -/
theorem size_sweep_le (now : Int) (hone : ∀ {r r' x x'}, d.fallback.entry? r = some x →
      d.fallback.entry? r' = some x' → x.message = x'.message → r = r') :
    (d.sweep now).2.fallback.entries.size ≤ (d.sweep now).2.tracker.contexts.size := by
  have hentry : ∀ y ∈ (d.sweep now).2.fallback.entries.entries,
      (d.sweep now).2.fallback.entry? y.1 = some y.2 := fun y hy => Registry.get?_of_mem hy
  have hnodup : ((d.sweep now).2.fallback.entries.entries.map (·.2.message)).Nodup := by
    refine (Registry.nodup_entries _).map_on fun y hy z hz hm => ?_
    have hkey := hone (entry?_sweep (hentry y hy)).1 (entry?_sweep (hentry z hz)).1 hm
    have hvalue := hentry y hy
    rw [hkey, hentry z hz] at hvalue
    exact Prod.ext hkey (Option.some.inj hvalue).symm
  have hsub : (d.sweep now).2.fallback.entries.entries.map (·.2.message) ⊆
      (d.sweep now).2.tracker.contexts.keys := by
    intro m hm
    obtain ⟨y, hy, rfl⟩ := List.mem_map.1 hm
    obtain ⟨-, c, hc, -⟩ := entry?_sweep (hentry y hy)
    exact List.mem_map_of_mem (Registry.mem_of_get? hc)
  have hlen := hnodup.length_le_of_subset hsub
  rwa [List.length_map, Registry.length_keys] at hlen

/-! ### All entries -/

/-- **Entries keep in step with tracking.**  After every admissible run each entry waits for the
carrier or has concluded, no other entry is of its message, and the pieces that it waits for were
taken by the IP route.  After a sweep each entry that is left belongs to a live context younger than
the timeout, and there are no more entries than contexts. -/
theorem entries_in_step [Radio σ] (h₀ : d₀.Initial) (h : Admissible d₀ es) :
    (∀ r x, (d₀.run es).fallback.entry? r = some x → (d₀.run es).Standing r x ∧
      ∀ r' x', (d₀.run es).fallback.entry? r' = some x' → x'.message = x.message → r' = r) ∧
    ∀ now, let swept := ((d₀.run es).sweep now).2
      (∀ r x, swept.fallback.entry? r = some x →
        ∃ c, swept.tracker.context? x.message = some c ∧ c.age now < d₀.tracker.timeout) ∧
      swept.fallback.entries.size ≤ swept.tracker.contexts.size := by
  have hinv := h₀.invariant_run h
  refine ⟨fun r x hx => ⟨h₀.standing_run es r x hx, fun r' x' hx' hm => ?_⟩, fun now => ?_⟩
  · exact (hinv.coherent x.message).unique hx' hx hm rfl
  · refine ⟨fun r x hx => ?_, size_sweep_le now fun {r r' x x'} hx hx' hm => ?_⟩
    · rw [← timeout_run h₀ es]
      exact (entry?_sweep hx).2
    · exact (hinv.coherent x'.message).unique hx hx' hm rfl

/-- Two multimedia messages on the IP route, one some time after the other. -/
def staggered : List (Event ScriptedRadio) :=
  [.sendMultimedia 0 ⟨7⟩ [1] none none, .sendMultimedia 200 ⟨8⟩ [2] none none]

/-- A sweep retires the first one with its entry, and leaves that of the second one waiting. -/
theorem entries_in_step_staggered :
    let d₀ := new .standard 300 true (ScriptedRadio.new true) (.memory ⟨0, 0, []⟩)
    let swept := ((d₀.run staggered).sweep 300).2
    d₀.Initial ∧ Admissible d₀ staggered ∧ (d₀.run staggered).fallback.entries.size = 2 ∧
      swept.fallback.entry? .first = none ∧
      ∃ x, swept.fallback.entry? ⟨2⟩ = some x ∧ x.phase = .awaitingReport ∧
        (∃ c, swept.tracker.context? x.message = some c ∧ c.age 300 < 300) ∧
        swept.fallback.entries.size ≤ swept.tracker.contexts.size := by
  intro d₀ swept
  have h₀ : d₀.Initial := ⟨_, _, _, _, _, rfl⟩
  have h : Admissible d₀ staggered := h₀.admissible_of_length (by decide) (by decide)
  have hx : swept.fallback.entry? ⟨2⟩ =
      some ⟨⟨2⟩, ⟨8⟩, .mms [2] none, .awaitingReport⟩ := by decide
  obtain ⟨-, hswept⟩ := entries_in_step h₀ h
  obtain ⟨hlive, hsize⟩ := hswept 300
  exact ⟨h₀, h, by decide, by decide, _, hx, rfl, hlive _ _ hx, hsize⟩

end ShortMessage.Dispatcher
