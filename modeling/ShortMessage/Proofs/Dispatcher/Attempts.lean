import ShortMessage.Proofs.Dispatcher.Invariant

/-!
# Why a piece is handed over

An event hands over pieces of the message that it sends, and a failure report hands pending pieces
over to the circuit domain; nothing else does.  An entry that waits for a report has not met one
since the send that filed it (`waits_of_awaiting`).

* `offered`, `Reason`: the attempts that an event makes, and why;
* `mem_attempts_of_ims`: a message that is not sent any more uses the IP route no more;
* `Waits`: since when an entry waits.
-/

namespace ShortMessage.Dispatcher

variable {σ : Type} {d d' : Dispatcher σ}

/-- **Why an event hands a piece over**: it sends the message, or it is a failure report, the part
waits for it and is pending, and the circuit domain is to take it. -/
inductive Reason (d : Dispatcher σ) (a : Attempt) : Event σ → Prop
  | sent {e : Event σ} {s : Sending} (he : e.sending? = some s) (hm : a.message = s.message) :
    Reason d a e
  | resent {ref : MessageRef} {entry : Fallback.Entry}
      (hentry : d.fallback.entry? ref = some entry) (hp : entry.phase = .awaitingReport)
      (hm : a.message = entry.message) (hroute : a.route = .circuit)
      (hi : a.index ∈ entry.content.indices) (hpending : d.tracker.Pending a.message a.index) :
    Reason d a (.report entry.content.kind ref false)

theorem Reason.sending_of_ims {a : Attempt} {e : Event σ} (h : Reason d a e)
    (hroute : a.route = .ims) : ∃ s, e.sending? = some s ∧ a.message = s.message := by
  cases h with
  | sent he hm => exact ⟨_, he, hm⟩
  | resent hentry hp hm hcircuit hi hpend =>
    rw [hcircuit] at hroute
    cases hroute

variable [Radio σ]

/-- The attempts that an event makes. -/
def offered (d : Dispatcher σ) (e : Event σ) : List Attempt :=
  (d.handle e).attempts.drop d.attempts.length

theorem Step.reason {e : Event σ} (hstep : Step d e d') (hf : d.fallback.Numbered) :
    ∃ as, d'.attempts = d.attempts ++ as ∧ ∀ a ∈ as, Reason d a e := by
  have hnone : ∃ as, d.attempts = d.attempts ++ as ∧ ∀ a ∈ as, Reason d a e :=
    ⟨[], (List.append_nil _).symm, fun a ha => (nomatch ha)⟩
  cases hstep with
  | refused he => exact hnone
  | @launched e s content he hc =>
    obtain ⟨ims, circuit, hl⟩ := launched_launch d s hf hc
    exact ⟨_, hl.attempts, fun a ha => .sent he (hl.of_mem ha).1⟩
  | ignored hno hentries hnext => exact hnone
  | succeeded he hp => exact hnone
  | @failed ref entry d' he hp hd =>
    obtain ⟨circuit, hdec⟩ := decided_failed hf he hd
    refine ⟨circuit, hdec.attempts, fun a ha => ?_⟩
    obtain ⟨hm, hroute, -, hi, hpend⟩ := hdec.of_mem ha
    rw [← hm] at hpend
    exact .resent he hp hm hroute hi hpend
  | callBack callback signal => exact hnone
  | sweep now => exact hnone
  | surroundings radio card archive => exact hnone

theorem attempts_handle (hf : d.fallback.Numbered) (e : Event σ) :
    (d.handle e).attempts = d.attempts ++ d.offered e := by
  obtain ⟨as, hatt, -⟩ := (step_handle d e).reason hf
  unfold offered
  rw [hatt, List.drop_left]

theorem reason_of_mem (hf : d.fallback.Numbered) {e : Event σ} {a : Attempt}
    (ha : a ∈ d.offered e) : Reason d a e := by
  obtain ⟨as, hatt, hreason⟩ := (step_handle d e).reason hf
  unfold offered at ha
  rw [hatt, List.drop_left] at ha
  exact hreason a ha

/-! ### Entries that wait -/

/-- An entry that waits after an event is that of its send, or it waited before, and the event was
no report on it. -/
theorem Step.waiting {e : Event σ} (hstep : Step d e d') (hf : d.fallback.Numbered)
    {r : MessageRef} {entry : Fallback.Entry} (hr : d'.fallback.entry? r = some entry)
    (hp : entry.phase = .awaitingReport) :
    (∃ s, e.sending? = some s ∧ entry.message = s.message) ∨
      (d.fallback.entry? r = some entry ∧
        ∀ success, e ≠ .report entry.content.kind r success) := by
  cases hstep with
  | refused he => exact Or.inr ⟨hr, fun success heq => by rw [heq] at he; cases he⟩
  | @launched e s content he hc =>
    obtain ⟨ims, circuit, hl⟩ := launched_launch d s hf hc
    have hold : d.fallback.entry? r = some entry →
        d.fallback.entry? r = some entry ∧
          ∀ success, e ≠ .report entry.content.kind r success :=
      fun hr => ⟨hr, fun success heq => by rw [heq] at he; cases he⟩
    rcases hl.fallback with ⟨-, hfall⟩ | ⟨-, e', he'⟩
    · rw [hfall] at hr
      exact Or.inr (hold hr)
    · rw [he'.files.entry?] at hr
      split at hr
      · obtain rfl := Option.some.inj hr
        exact Or.inl ⟨s, he, he'.message_eq⟩
      · exact Or.inr (hold hr)
  | @ignored kind ref success fallback hno hentries hnext =>
    have hr : d.fallback.entry? r = some entry := by
      unfold Fallback.entry? at hr ⊢
      rwa [← hentries]
    refine Or.inr ⟨hr, fun success' heq => ?_⟩
    obtain ⟨hkind, rfl, -⟩ := Event.report.inj heq
    exact hno entry hr hkind.symm hp
  | @succeeded ref decided he hp' =>
    obtain rfl := hf.ref_eq ref decided he
    obtain ⟨hne, hr⟩ := (decided_succeeded d decided).waiting hr hp
    exact Or.inr ⟨hr, fun success heq => hne (Event.report.inj heq).2.1.symm⟩
  | @failed ref decided d' he hp' hd =>
    obtain rfl := hf.ref_eq ref decided he
    obtain ⟨circuit, hdec⟩ := decided_failed hf he hd
    obtain ⟨hne, hr⟩ := hdec.waiting hr hp
    exact Or.inr ⟨hr, fun success heq => hne (Event.report.inj heq).2.1.symm⟩
  | callBack callback signal => exact Or.inr ⟨hr, fun success heq => by cases heq⟩
  | sweep now =>
    refine Or.inr ⟨?_, fun success heq => by cases heq⟩
    have hretire := Fallback.entry?_retire d.fallback (d.tracker.sweep now).2.isLive r
    rw [show Fallback.entry? (d.sweep now).2.fallback r = _ from hretire,
      Option.filter_eq_some_iff] at hr
    exact hr.1
  | surroundings radio card archive => exact Or.inr ⟨hr, fun success heq => by cases heq⟩

/-! ### Runs -/

section

variable {d₀ : Dispatcher σ} {pre post es : List (Event σ)}

theorem attempts_grow (h₀ : d₀.Initial) (h : Admissible d₀ (pre ++ post)) :
    (d₀.run pre).attempts <+: (d₀.run (pre ++ post)).attempts := by
  induction post using List.reverseRecOn with
  | nil => exact ⟨[], by rw [List.append_nil, List.append_nil]⟩
  | append_singleton post e ih =>
    rw [← List.append_assoc] at h ⊢
    have hinv := h₀.invariant_run h.of_append
    rw [run_concat, attempts_handle hinv.numbered]
    exact (ih h.of_append).trans (List.prefix_append _ _)

theorem Admissible.not_mem_messages (h : Admissible d₀ (pre ++ post)) {m : MessageId}
    (hm : m ∈ messages pre) : m ∉ messages post := by
  have hnd := h.fresh
  rw [messages_append] at hnd
  exact fun hm' => (List.nodup_append.1 hnd).2.2 _ hm _ hm' rfl

theorem mem_attempts_of_ims (h₀ : d₀.Initial) (h : Admissible d₀ (pre ++ post)) {a : Attempt}
    (ha : a ∈ (d₀.run (pre ++ post)).attempts) (hroute : a.route = .ims)
    (hm : a.message ∉ messages post) : a ∈ (d₀.run pre).attempts := by
  induction post using List.reverseRecOn with
  | nil => rwa [List.append_nil] at ha
  | append_singleton post e ih =>
    rw [← List.append_assoc] at h ha
    rw [messages_append, List.mem_append, not_or] at hm
    have hinv := h₀.invariant_run h.of_append
    rw [run_concat, attempts_handle hinv.numbered] at ha
    rcases List.mem_append.1 ha with ha | ha
    · exact ih h.of_append ha hm.1
    · obtain ⟨s, hs, heq⟩ := (reason_of_mem hinv.numbered ha).sending_of_ims hroute
      exact absurd (heq ▸ mem_messages List.mem_cons_self hs) hm.2

theorem mem_messages_of_entry (h₀ : d₀.Initial) (h : Admissible d₀ es) {r : MessageRef}
    {entry : Fallback.Entry} (hr : Fallback.entry? (d₀.run es).fallback r = some entry) :
    entry.message ∈ messages es := by
  by_contra hm
  exact ((h₀.invariant_run h).unknown _ hm).entries r entry hr rfl

theorem mem_messages_of_attempt (h₀ : d₀.Initial) (h : Admissible d₀ es) {a : Attempt}
    (ha : a ∈ (d₀.run es).attempts) : a.message ∈ messages es := by
  by_contra hm
  exact ((h₀.invariant_run h).unknown _ hm).attempts a ha rfl

/-- Since when an entry waits: the run has come to an event that made all attempts of its message on
the IP route, and since then there was no report on it. -/
def Waits (d₀ : Dispatcher σ) (es : List (Event σ)) (r : MessageRef) (kind : Kind)
    (m : MessageId) : Prop :=
  ∃ pre e mid, es = pre ++ e :: mid ∧
    (∀ a ∈ (d₀.run es).attempts, a.route = .ims → a.message = m → a ∈ (d₀.run pre).offered e) ∧
    ∀ success, .report kind r success ∉ mid

/-- **An entry that waits** has met no report since its message was sent. -/
theorem waits_of_awaiting (h₀ : d₀.Initial) (h : Admissible d₀ es) {r : MessageRef}
    {entry : Fallback.Entry} (hr : Fallback.entry? (d₀.run es).fallback r = some entry)
    (hp : entry.phase = .awaitingReport) : Waits d₀ es r entry.content.kind entry.message := by
  induction es using List.reverseRecOn with
  | nil => exact absurd (mem_messages_of_entry h₀ h hr) List.not_mem_nil
  | append_singleton es e ih =>
    have hinv := h₀.invariant_run h.of_append
    have hatt := attempts_handle hinv.numbered e
    rw [run_concat] at hr
    rcases (step_handle _ e).waiting hinv.numbered hr hp with ⟨s, hs, hm⟩ | ⟨hr, hne⟩
    · refine ⟨es, e, [], rfl, fun a ha _ ham => ?_, fun success hmem => (nomatch hmem)⟩
      rw [run_concat, hatt] at ha
      rcases List.mem_append.1 ha with ha | ha
      · have hold := mem_messages_of_attempt h₀ h.of_append ha
        rw [ham, hm] at hold
        exact absurd (mem_messages List.mem_cons_self hs) (h.not_mem_messages hold)
      · exact ha
    · obtain ⟨pre, e', mid, rfl, hall, hmid⟩ := ih h.of_append hr
      refine ⟨pre, e', mid ++ [e], by simp, fun a ha hroute ham => ?_, fun success hmem => ?_⟩
      · have hknown := mem_messages_of_entry h₀ h.of_append hr
        refine hall a ?_ hroute ham
        exact mem_attempts_of_ims h₀ h ha hroute (ham ▸ h.not_mem_messages hknown)
      · rcases List.mem_append.1 hmem with hmem | hmem
        · exact hmid success hmem
        · exact hne success (List.mem_singleton.1 hmem).symm

end

end ShortMessage.Dispatcher
