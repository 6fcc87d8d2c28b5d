import ShortMessage.Proofs.Dispatcher.Trace
import ShortMessage.Proofs.Tracker.Locality
import ShortMessage.Radio.Scripted

/-!
# Messages do not disturb each other

All messages share one tracker, one circle of references and one radio.  Still, an event about one
message leaves everything about another as it was: the tracker hears of the first message only, a
new entry takes a free reference, and a carrier decides about the entry under the reference of its
report.

* `Concerns`: the message that an event is about;
* `tokensOf`, `Untouched`: what belongs to a message, and that it stays as it is;
* `Launched.untouched`, `Decided.untouched`, `Step.untouched`: one event;
* `untouched_run`, `others_untouched`: the traffic of other messages, and one event after any run.
-/

namespace ShortMessage.Dispatcher

variable {σ : Type} {d d' d'' : Dispatcher σ} {m n : MessageId} {τ : Token}
  {tokens : List Token}

/-- **The message that an event is about**: the one that it sends, the one whose part is called
back, or the one whose entry stands under the reference of a report.  A reference without an entry
is nobody's, so a report on it may be said to be about any message. -/
def Concerns (d : Dispatcher σ) (m : MessageId) : Event σ → Prop
  | .send _ message _ | .sendMultimedia _ message .. | .sendStoredText _ message ..
  | .sendStoredMultimedia _ message .. => message = m
  | .report _ ref _ => ∀ e, d.fallback.entry? ref = some e → e.message = m
  | .callBack callback _ => callback.message = m
  | .sweep _ | .surroundings .. => False

/-- The tokens that a run has handed in for a message. -/
def tokensOf (es : List (Event σ)) (m : MessageId) : List Token :=
  ((sendings es).filter (·.message = m)).flatMap Sending.tokens

theorem mem_tokensOf {es : List (Event σ)} :
    τ ∈ tokensOf es m ↔ ∃ s ∈ sendings es, s.message = m ∧ τ ∈ s.tokens := by
  simp [tokensOf, and_assoc]

/-- **All that belongs to a message is as it was**: its context, the ends of the given tokens, its
entry and its hand-overs. -/
structure Untouched (tokens : List Token) (m : MessageId) (d d' : Dispatcher σ) : Prop where
  context : d'.tracker.context? m = d.tracker.context? m
  fates : ∀ τ ∈ tokens, d'.fates τ = d.fates τ
  entry : ∀ r e, e.message = m → (d'.fallback.entry? r = some e ↔ d.fallback.entry? r = some e)
  attempts : d'.attempts.filter (·.message = m) = d.attempts.filter (·.message = m)

theorem Untouched.refl (tokens : List Token) (m : MessageId) (d : Dispatcher σ) :
    Untouched tokens m d d :=
  ⟨rfl, fun _ _ => rfl, fun _ _ _ => .rfl, rfl⟩

theorem Untouched.trans (h : Untouched tokens m d d') (h' : Untouched tokens m d' d'') :
    Untouched tokens m d d'' :=
  ⟨h'.context.trans h.context, fun τ hτ => (h'.fates τ hτ).trans (h.fates τ hτ),
    fun r e he => (h'.entry r e he).trans (h.entry r e he), h'.attempts.trans h.attempts⟩

/-! ### What one event leaves alone -/

theorem fates_of_attends (h : d.tracker.Attends m tokens d'.tracker)
    (hres : d'.resolved = d.resolved) (hheld : τ ∉ d.tracker.heldBy m) (htok : τ ∉ tokens) :
    d'.fates τ = d.fates τ := by
  unfold fates outcomes
  rw [hres, List.filter_append, List.filter_append, h.filter_outcomes hheld htok]

theorem fates_closeTokens (htok : τ ∉ tokens) : (d.closeTokens tokens).fates τ = d.fates τ := by
  have hnone : (tokens.map Token.close).filter (·.1 = τ) = [] := by
    refine List.filter_eq_nil_iff.2 fun x hx heq => htok ?_
    obtain ⟨τ', hτ', rfl⟩ := List.mem_map.1 hx
    exact (of_decide_eq_true heq : τ' = τ) ▸ hτ'
  show ((d.tracker.outcomes ++ (d.resolved ++ tokens.map Token.close)).filter (·.1 = τ)).map
    Prod.snd = d.fates τ
  rw [← List.append_assoc, List.filter_append, hnone, List.append_nil]
  rfl

theorem entry_iff_of_files {f f' : Fallback} {e x : Fallback.Entry} {r : MessageRef}
    (h : f.Files e f') (he : e.message ≠ n) (hold : ∀ y, f.entry? e.ref = some y → y.message ≠ n)
    (hx : x.message = n) : f'.entry? r = some x ↔ f.entry? r = some x := by
  rw [h.entry?]
  split
  · next heq =>
    subst heq
    refine ⟨fun hsome => ?_, fun hsome => absurd hx (hold x hsome)⟩
    obtain rfl := Option.some.inj hsome
    exact absurd hx he
  · exact .rfl

theorem filter_attempts {as : List Attempt} (h : d'.attempts = d.attempts ++ as)
    (has : ∀ a ∈ as, a.message ≠ n) :
    d'.attempts.filter (·.message = n) = d.attempts.filter (·.message = n) := by
  have hnone : as.filter (·.message = n) = [] :=
    List.filter_eq_nil_iff.2 fun a ha heq => has a ha (of_decide_eq_true heq)
  rw [h, List.filter_append, hnone, List.append_nil]

theorem Concerns.message_eq {e : Event σ} {s : Sending} (h : Concerns d m e)
    (he : e.sending? = some s) : s.message = m := by
  cases e <;> cases he <;> exact h

theorem Decided.untouched {e : Fallback.Entry} {circuit : List Attempt}
    (h : Decided d e circuit d') (he : d.fallback.entry? e.ref = some e) (hn : n ≠ e.message)
    (hτ : ∀ τ ∈ tokens, τ ∉ d.tracker.heldBy e.message) : Untouched tokens n d d' where
  context := h.heard.attends.context?_of_ne hn
  fates τ hmem := fates_of_attends h.heard.attends h.resolved (hτ τ hmem) List.not_mem_nil
  entry r x hx := by
    refine entry_iff_of_files h.files hn.symm (fun y hy => ?_) hx
    rw [show d.fallback.entry? e.ref = some y from hy] at he
    obtain rfl := Option.some.inj he
    exact hn.symm
  attempts := filter_attempts h.attempts fun a ha heq => hn (heq ▸ (h.of_mem ha).1)

section

variable [Radio σ]

theorem Launched.attends {s : Sending} {content : Content} {ims circuit : List Attempt}
    (h : Launched d s content ims circuit d') :
    d.tracker.Attends s.message s.tokens d'.tracker := by
  have hopen := Tracker.attends_register d.tracker s.now
    ⟨s.message, content.indices.length, s.sentTokens, s.deliveredTokens⟩
  exact hopen.trans h.heard.attends

theorem Launched.untouched {s : Sending} {content : Content} {ims circuit : List Attempt}
    (h : Launched d s content ims circuit d') (hf : d.fallback.Numbered)
    (hroom : d.route = .ims → d.fallback.HasRoom) (hn : n ≠ s.message)
    (hτ : ∀ τ ∈ tokens, τ ∉ d.tracker.heldBy s.message ∧ τ ∉ s.tokens) :
    Untouched tokens n d d' where
  context := h.attends.context?_of_ne hn
  fates τ hmem := fates_of_attends h.attends h.resolved (hτ τ hmem).1 (hτ τ hmem).2
  entry r x hx := by
    rcases h.fallback with ⟨-, hfall⟩ | ⟨hroute, e, he⟩
    · rw [hfall]
    · refine entry_iff_of_files he.files (he.message_eq ▸ hn.symm) (fun y hy => ?_) hx
      rw [Launched.entry_free hf hroom hroute he] at hy
      cases hy
  attempts := filter_attempts h.attempts fun a ha heq => hn (heq ▸ (h.of_mem ha).1)

/-- **One event about a message** leaves the others alone, as long as they share no tokens. -/
theorem Step.untouched {e : Event σ} (hstep : Step d e d') (hf : d.fallback.Numbered)
    (hroom : e.sending? ≠ none → d.route = .ims → d.fallback.HasRoom) (hm : Concerns d m e)
    (hn : n ≠ m) (hτ : ∀ τ ∈ tokens, τ ∉ d.tracker.heldBy m ∧ τ ∉ handed [e]) :
    Untouched tokens n d d' := by
  cases hstep with
  | @refused e s he =>
    rw [handed_singleton he] at hτ
    exact ⟨rfl, fun τ hmem => fates_closeTokens (hτ τ hmem).2, fun _ _ _ => .rfl, rfl⟩
  | @launched e s content he hc =>
    obtain rfl := hm.message_eq he
    rw [handed_singleton he] at hτ
    obtain ⟨ims, circuit, hl⟩ := launched_launch d s hf hc
    exact hl.untouched hf (hroom (by simp [he])) hn hτ
  | @ignored kind ref success fallback hno hentries hnext =>
    refine ⟨rfl, fun _ _ => rfl, fun r x _ => ?_, rfl⟩
    unfold Fallback.entry?
    rw [hentries]
  | @succeeded ref e he hp =>
    obtain rfl := hm e he
    obtain rfl := hf.ref_eq ref e he
    exact (decided_succeeded d e).untouched he hn fun τ hmem => (hτ τ hmem).1
  | @failed ref e d' he hp hd =>
    obtain rfl := hm e he
    obtain rfl := hf.ref_eq ref e he
    obtain ⟨circuit, hdec⟩ := decided_failed hf he hd
    exact hdec.untouched he hn fun τ hmem => (hτ τ hmem).1
  | callBack callback signal =>
    obtain rfl : callback.message = m := hm
    have htrack := (Tracker.hears_callBack d.tracker callback signal).attends
    exact ⟨htrack.context?_of_ne hn,
      fun τ hmem => fates_of_attends htrack rfl (hτ τ hmem).1 List.not_mem_nil,
      fun _ _ _ => .rfl, rfl⟩
  | sweep now => exact hm.elim
  | surroundings radio card archive => exact hm.elim

/-! ### Runs -/

variable {d₀ : Dispatcher σ} {es fs : List (Event σ)}

/-- The tokens of a message are not held by another, nor handed in again. -/
theorem not_shared (h₀ : d₀.Initial) (h : Admissible d₀ es)
    (htok : (handed (es ++ fs)).Nodup) (hn : n ≠ m) (hτ : τ ∈ tokensOf es n) :
    τ ∉ (d₀.run es).tracker.heldBy m ∧ τ ∉ handed fs := by
  obtain ⟨s, hs, hsn, hτs⟩ := mem_tokensOf.1 hτ
  rw [handed_append] at htok
  obtain ⟨hnd, -, hdisj⟩ := List.nodup_append.1 htok
  refine ⟨fun hheld => ?_, fun hlater => ?_⟩
  · obtain ⟨c, hc, hτc⟩ := Tracker.mem_heldBy.1 hheld
    obtain ⟨s', hs', hsm, hτs'⟩ := sending_of_mem_held h₀ h hc hτc
    obtain rfl := Tracker.eq_of_mem_flatMap hnd hs hs' hτs hτs'
    exact hn (hsn.symm.trans hsm)
  · exact hdisj τ (List.mem_flatMap.2 ⟨s, hs, hτs⟩) τ hlater rfl

/-- **The traffic of other messages**, however long, leaves a message alone. -/
theorem untouched_run (h₀ : d₀.Initial) (h : Admissible d₀ (es ++ fs))
    (htok : (handed (es ++ fs)).Nodup)
    (hfs : ∀ pre e post, fs = pre ++ e :: post →
      ∃ m, n ≠ m ∧ Concerns (d₀.run (es ++ pre)) m e) :
    Untouched (tokensOf es n) n (d₀.run es) (d₀.run (es ++ fs)) := by
  induction fs using List.reverseRecOn with
  | nil =>
    rw [List.append_nil]
    exact .refl _ _ _
  | append_singleton fs e ih =>
    rw [← List.append_assoc] at h htok ⊢
    obtain ⟨m, hn, hm⟩ := hfs fs e [] rfl
    have hbefore := ih h.of_append (handed_append (es ++ fs) [e] ▸ htok).of_append_left
      fun pre e' post heq => hfs pre e' (post ++ [e]) (by rw [heq]; simp)
    rw [run_concat]
    refine hbefore.trans ((step_handle _ e).untouched (h₀.invariant_run h.of_append).numbered
      (h.room (es ++ fs) e [] rfl) hm hn fun τ hτ => not_shared h₀ h.of_append htok hn ?_)
    obtain ⟨s, hs, hτs⟩ := mem_tokensOf.1 hτ
    rw [mem_tokensOf, sendings_append]
    exact ⟨s, List.mem_append_left _ hs, hτs⟩

end

/-- **Messages do not disturb each other.**  In every state that an admissible run leads to, an
event about one message leaves every other message as it was: its context, the ends of its tokens,
its entry and its hand-overs.  Identities are new and no token is handed in twice.  What has become
of the tokens of injected PDUs does not matter, so `resolved` may be anything. -/
theorem others_untouched {σ : Type} [Radio σ] {d₀ : Dispatcher σ} (h₀ : d₀.Initial)
    {es : List (Event σ)} {e : Event σ} (h : Admissible d₀ (es ++ [e]))
    (htok : (handed (es ++ [e])).Nodup) (resolved : List TokenEvent) {m n : MessageId}
    (hm : Concerns { d₀.run es with resolved } m e) (hn : n ≠ m) :
    Untouched (tokensOf es n) n { d₀.run es with resolved }
      (handle { d₀.run es with resolved } e) :=
  (step_handle { d₀.run es with resolved } e).untouched (h₀.invariant_run h.of_append).numbered
    (h.room es e [] rfl) hm hn fun _ hτ => not_shared h₀ h.of_append htok hn hτ

/-- Two multimedia messages on the IP route. -/
def twoMultimedia : List (Event ScriptedRadio) :=
  [.sendMultimedia 0 ⟨7⟩ [1] none (some ⟨0⟩), .sendMultimedia 0 ⟨8⟩ [2] none (some ⟨1⟩)]

theorem admissible_twoMultimedia (card : Card) :
    Admissible (new .standard 300 true (ScriptedRadio.new true) card)
      (twoMultimedia ++ [.report .mms .first false]) := by
  have h₀ : (new .standard 300 true (ScriptedRadio.new true) card).Initial := ⟨_, _, _, _, _, rfl⟩
  exact h₀.admissible_of_length (by decide) (by decide)

/-- The carrier's failure report on the first one has it resent, and leaves the second one alone. -/
theorem others_untouched_twoMultimedia :
    let d₀ := new .standard 300 true (ScriptedRadio.new true) (.memory ⟨0, 0, []⟩)
    let d := d₀.run twoMultimedia
    let e : Event ScriptedRadio := .report .mms .first false
    d₀.Initial ∧ Admissible d₀ (twoMultimedia ++ [e]) ∧ (handed (twoMultimedia ++ [e])).Nodup ∧
      Concerns d ⟨7⟩ e ∧ (d.handle e).offers .circuit ⟨7⟩ 0 ≠ d.offers .circuit ⟨7⟩ 0 ∧
      tokensOf twoMultimedia ⟨8⟩ = [⟨1⟩] ∧ Untouched [⟨1⟩] ⟨8⟩ d (d.handle e) := by
  intro d₀ d e
  have h₀ : d₀.Initial := ⟨_, _, _, _, _, rfl⟩
  have h : Admissible d₀ (twoMultimedia ++ [e]) := admissible_twoMultimedia _
  have htok : (handed (twoMultimedia ++ [e])).Nodup := by decide
  have hm : Concerns d ⟨7⟩ e := by
    intro x hx
    have hfirst : (d.fallback.entry? .first).map Fallback.Entry.message = some ⟨7⟩ := by decide
    rw [hx] at hfirst
    exact Option.some.inj hfirst
  refine ⟨h₀, h, htok, hm, by decide, by decide, ?_⟩
  exact others_untouched h₀ h htok d.resolved (n := ⟨8⟩) hm (by decide)

end ShortMessage.Dispatcher
