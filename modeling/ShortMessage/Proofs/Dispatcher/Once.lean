import ShortMessage.Proofs.Dispatcher.Attempts
import ShortMessage.Proofs.Dispatcher.Ownership
import ShortMessage.Proofs.Dispatcher.Trace
import ShortMessage.Proofs.Tracker.Tokens

/-!
# No part is sent twice

A part is handed over once on each route at most, and after the IP route has taken it the circuit
domain gets it only when the carrier's first report is a failure and the part is still pending.  A
message whose context has retired is left alone, and so are its tokens.

* `FirstFailure`: an event that is the first report on an attempt, and a failure;
* `firstFailure_of_circuit`: the only way from the IP route to the circuit domain;
* `offers_of_retired`, `fates_of_retired`: messages that are not tracked any more;
* `handed_over_once`: all of this, for every admissible run.
-/

namespace ShortMessage.Dispatcher

variable {σ : Type} [Radio σ] {d d' d₀ : Dispatcher σ} {pre post es : List (Event σ)}

/-- After the events of `pre`, the event `e` is the first report of the right kind on the reference
under which a piece was handed over, and it reports a failure. -/
def FirstFailure (d₀ : Dispatcher σ) (pre : List (Event σ)) (e : Event σ) (b : Attempt) : Prop :=
  ∃ ref, e = .report b.handOver.cargo.kind ref false ∧ b.handOver.ref = some ref ∧
    ∃ before sent mid, pre = before ++ sent :: mid ∧ b ∈ (d₀.run before).offered sent ∧
      ∀ success, .report b.handOver.cargo.kind ref success ∉ mid

/-! ### From the IP route to the circuit domain -/

/-- A send offers no part to the circuit domain that the IP route has taken. -/
theorem index_ne_of_sending (hf : d.fallback.Numbered) {e : Event σ} {s : Sending}
    (he : e.sending? = some s) {a b : Attempt} (ha : a ∈ d.offered e) (hb : b ∈ d.offered e)
    (har : a.route = .circuit) (hbr : b.route = .ims) (hacc : b.accepted = true) :
    b.index ≠ a.index := by
  have hatt := attempts_handle hf e
  have hstep := step_handle d e
  generalize d.handle e = d' at hatt hstep
  cases hstep with
  | refused he' =>
    have hnil : d.offered e = [] := List.self_eq_append_right.1 hatt
    rw [hnil] at ha
    cases ha
  | @launched e s' content he' hc =>
    obtain ⟨ims, circuit, hl⟩ := launched_launch d s' hf hc
    have hoffered : d.offered e = ims ++ circuit :=
      (List.append_cancel_left (hl.attempts.symm.trans hatt)).symm
    rw [hoffered, List.mem_append] at ha hb
    have ha := ha.resolve_left fun ha => by
      rw [hl.route_ims ha] at har
      cases har
    have hb := hb.resolve_right fun hb => by
      rw [hl.route_circuit hb] at hbr
      cases hbr
    exact hl.disjoint hc hb hacc ha
  | ignored hno hentries hnext => cases he
  | succeeded he' hp => cases he
  | failed he' hp hd => cases he
  | callBack callback signal => cases he
  | sweep now => cases he
  | surroundings radio card archive => cases he

/-- **From the IP route to the circuit domain**: a part that the IP route takes in a run is handed
to the circuit domain only by the first report on it, a failure, while it is pending. -/
theorem firstFailure_of_circuit (h₀ : d₀.Initial) {e : Event σ}
    (h : Admissible d₀ (pre ++ e :: post)) {a b : Attempt} (ha : a ∈ (d₀.run pre).offered e)
    (har : a.route = .circuit) (hb : b ∈ (d₀.run (pre ++ e :: post)).attempts)
    (hbr : b.route = .ims) (hacc : b.accepted = true) (hm : b.message = a.message)
    (hi : b.index = a.index) :
    FirstFailure d₀ pre e b ∧ (d₀.run pre).tracker.Pending a.message a.index := by
  have hone : Admissible d₀ (pre ++ [e]) := by
    rw [List.append_cons] at h
    exact h.of_append
  have hinv := h₀.invariant_run h.of_append
  have hfinal := h₀.invariant_run h
  cases reason_of_mem hinv.numbered ha with
  | @sent e s he hs =>
    exfalso
    have hnew : s.message ∈ messages [e] := mem_messages List.mem_cons_self he
    have hmem : b ∈ (d₀.run (pre ++ [e])).attempts := by
      rw [List.append_cons] at h hb
      refine mem_attempts_of_ims h₀ h hb hbr ?_
      rw [hm, hs]
      exact h.not_mem_messages (by rw [messages_append]; exact List.mem_append_right _ hnew)
    rw [run_concat, attempts_handle hinv.numbered] at hmem
    rcases List.mem_append.1 hmem with hmem | hmem
    · have hold := mem_messages_of_attempt h₀ h.of_append hmem
      rw [hm, hs] at hold
      exact hone.not_mem_messages hold hnew
    · exact index_ne_of_sending hinv.numbered he ha hmem har hbr hacc hi
  | @resent ref entry hentry hp hs hroute hindex hpending =>
    obtain ⟨-, b', hb', -, href, hkind⟩ :=
      (hinv.coherent entry.message).awaiting hentry rfl hp a.index hindex
    obtain ⟨hin, hrest⟩ := mem_among.1 hb'
    -- the IP route was used once for the part, so this is the attempt
    have hbb' : b = b' := (hfinal.coherent entry.message).eq_of_mem_offers
      (mem_among.2 ⟨hb, hbr, hm.trans hs, hi⟩)
      (mem_among.2 ⟨(attempts_grow h₀ h).subset hin, hrest⟩)
    subst hbb'
    obtain ⟨before, sent, mid, hpre, hall, hmid⟩ := waits_of_awaiting h₀ h.of_append hentry hp
    rw [← hkind] at hmid ⊢
    refine ⟨⟨ref, rfl, href, before, sent, mid, hpre, ?_, hmid⟩, hpending⟩
    exact hall b hin hbr (hm.trans hs)

/-! ### Messages that are not tracked any more -/

/-- **A retired message** stays retired, and no part of it is handed over any more. -/
theorem offers_of_retired (h₀ : d₀.Initial) (h : Admissible d₀ (pre ++ post)) {m : MessageId}
    (hm : m ∈ messages pre) (hnone : (d₀.run pre).tracker.context? m = none) :
    (d₀.run (pre ++ post)).tracker.context? m = none ∧
      ∀ route i, (d₀.run (pre ++ post)).offers route m i = (d₀.run pre).offers route m i := by
  induction post using List.reverseRecOn with
  | nil =>
    rw [List.append_nil]
    exact ⟨hnone, fun _ _ => rfl⟩
  | append_singleton post e ih =>
    rw [← List.append_assoc] at h ⊢
    obtain ⟨hnone', hoffers⟩ := ih h.of_append
    have hinv := h₀.invariant_run h.of_append
    have hother : ∀ s, e.sending? = some s → s.message ≠ m := by
      rintro s hs rfl
      have hold : s.message ∈ messages (pre ++ post) := by
        rw [messages_append]
        exact List.mem_append_left _ hm
      exact h.not_mem_messages hold (mem_messages List.mem_cons_self hs)
    rw [run_concat]
    constructor
    · obtain ⟨ts, htr⟩ := (step_handle _ e).traced hinv.numbered
      rw [htr.tracker]
      refine Tracker.context?_none_run (fun r hr => ?_) hnone'
      obtain ⟨s, hs, hrs, -⟩ := htr.registered r hr
      rw [hrs]
      exact hother s hs
    · intro route i
      rw [offers_append (attempts_handle hinv.numbered e), hoffers, among_eq_nil,
        List.append_nil]
      intro a ha _ ham
      cases reason_of_mem hinv.numbered ha with
      | sent he hs => exact absurd (hs.symm.trans ham) (hother _ he)
      | resent hentry hp hs hroute hindex hpending =>
        obtain ⟨c, hc, -⟩ := hpending
        rw [ham, hnone'] at hc
        cases hc

theorem outcomes_grow (h₀ : d₀.Initial) (h : Admissible d₀ (pre ++ post)) :
    ∃ new closed,
      (d₀.run (pre ++ post)).tracker.outcomes = (d₀.run pre).tracker.outcomes ++ new ∧
      (d₀.run (pre ++ post)).resolved = (d₀.run pre).resolved ++ closed := by
  induction post using List.reverseRecOn with
  | nil => exact ⟨[], [], by simp, by simp⟩
  | append_singleton post e ih =>
    rw [← List.append_assoc] at h ⊢
    obtain ⟨new, closed, hnew, hclosed⟩ := ih h.of_append
    have hinv := h₀.invariant_run h.of_append
    obtain ⟨ts, htr⟩ := (step_handle _ e).traced hinv.numbered
    obtain ⟨new', hnew'⟩ := Tracker.outcomes_run (h₀.allSound_run (pre ++ post)) ts
    obtain ⟨closed', hclosed', -⟩ := htr.closed
    refine ⟨new ++ new', closed ++ closed', ?_, ?_⟩
    · rw [run_concat, htr.tracker, hnew', hnew, List.append_assoc]
    · rw [run_concat, hclosed', hclosed, List.append_assoc]

/-- **The tokens of a retired message** have ended, and nothing happens to them any more. -/
theorem fates_of_retired (h₀ : d₀.Initial) (h : Admissible d₀ (pre ++ post))
    (htok : (handed (pre ++ post)).Nodup) {s : Sending} (hs : s ∈ sendings pre)
    (hnone : (d₀.run pre).tracker.context? s.message = none) {τ : Token} (hτ : τ ∈ s.tokens) :
    (d₀.run (pre ++ post)).fates τ = (d₀.run pre).fates τ := by
  have htok' : (handed pre).Nodup := by
    rw [handed_append] at htok
    exact htok.of_append_left
  have hended : ((d₀.run pre).fates τ).length = 1 := by
    have hbalance := length_fates_add_count h₀ h.of_append τ
    have hfree : (d₀.run pre).tracker.held.count τ = 0 := by
      refine List.count_eq_zero.2 fun hheld => ?_
      obtain ⟨s', hs', hτ', hlive⟩ := holder_of_mem_held h₀ h.of_append hheld
      rw [← Tracker.eq_of_mem_flatMap htok' hs hs' hτ hτ'] at hlive
      exact hlive hnone
    have hone : (handed pre).count τ = 1 :=
      List.count_eq_one_of_mem htok' (List.mem_flatMap.2 ⟨s, hs, hτ⟩)
    omega
  have hmost : ((d₀.run (pre ++ post)).fates τ).length ≤ 1 := by
    have hbalance := length_fates_add_count h₀ h τ
    have hone := List.nodup_iff_count_le_one.1 htok τ
    omega
  obtain ⟨new, closed, hnew, hclosed⟩ := outcomes_grow h₀ h
  unfold fates outcomes at hended hmost ⊢
  rw [hnew, hclosed] at hmost ⊢
  simp only [List.filter_append, List.map_append, List.length_append] at hended hmost ⊢
  have hnil : (new.filter (·.1 = τ)).map Prod.snd = [] :=
    List.length_eq_zero_iff.1 (by omega)
  have hnil' : (closed.filter (·.1 = τ)).map Prod.snd = [] :=
    List.length_eq_zero_iff.1 (by omega)
  rw [hnil, hnil', List.append_nil, List.append_nil]

/-- **No part is sent twice.**  In every admissible run a part is handed over at most once on each
route; a part that the IP route takes is handed to the circuit domain only by the first report on
it, a failure, and only if it is pending then; and once the context of a message has retired,
none of its parts is handed over, and nothing happens to its tokens, if no token was handed in
twice. -/
theorem handed_over_once (h₀ : d₀.Initial) (h : Admissible d₀ es) :
    (∀ route m i, ((d₀.run es).offers route m i).length ≤ 1) ∧
    (∀ pre e post, es = pre ++ e :: post → ∀ a ∈ (d₀.run pre).offered e, a.route = .circuit →
      ∀ b ∈ (d₀.run es).attempts, b.route = .ims → b.accepted = true →
        b.message = a.message → b.index = a.index →
        FirstFailure d₀ pre e b ∧ (d₀.run pre).tracker.Pending a.message a.index) ∧
    ∀ pre post, es = pre ++ post → ∀ s ∈ sendings pre,
      (d₀.run pre).tracker.context? s.message = none →
      (∀ route i,
        (d₀.run es).offers route s.message i = (d₀.run pre).offers route s.message i) ∧
      ((handed es).Nodup → ∀ τ ∈ s.tokens, (d₀.run es).fates τ = (d₀.run pre).fates τ) := by
  refine ⟨fun route m i => ((h₀.invariant_run h).coherent m).once route i, ?_, ?_⟩
  · rintro pre e post rfl a ha har b hb hbr hacc hm hi
    exact firstFailure_of_circuit h₀ h ha har hb hbr hacc hm hi
  · rintro pre post rfl s hs hnone
    refine ⟨(offers_of_retired h₀ h ?_ hnone).2, fun htok τ hτ => ?_⟩
    · exact List.mem_map_of_mem hs
    · exact fates_of_retired h₀ h htok hs hnone hτ

/-- The resend of a multimedia message is the answer to the first report, a failure. -/
theorem handed_over_once_resent :
    let d₀ := new .standard 300 true (ScriptedRadio.new true) (.memory ⟨0, 0, []⟩)
    d₀.Initial ∧ Admissible d₀ resentMultimedia ∧
      ∃ b ∈ (d₀.run resentMultimedia).attempts, b.route = .ims ∧
        FirstFailure d₀ [.sendMultimedia 0 ⟨7⟩ [1] none none] (.report .mms .first false) b := by
  intro d₀
  have h₀ : d₀.Initial := ⟨_, _, _, _, _, rfl⟩
  have h : Admissible d₀ resentMultimedia := admissible_resentMultimedia _
  let a : Attempt := ⟨(Cargo.multimedia [1] none).via .circuit ⟨7⟩ none, true⟩
  let b : Attempt := ⟨(Cargo.multimedia [1] none).via .ims ⟨7⟩ (some .first), true⟩
  have ha : a ∈
      (d₀.run [.sendMultimedia 0 ⟨7⟩ [1] none none]).offered (.report .mms .first false) := by
    decide
  have hb : b ∈ (d₀.run resentMultimedia).attempts := by decide
  refine ⟨h₀, h, b, hb, rfl, ?_⟩
  exact ((handed_over_once h₀ h).2.1 [.sendMultimedia 0 ⟨7⟩ [1] none none] _ [] rfl a ha rfl b hb
    rfl rfl rfl rfl).1

end ShortMessage.Dispatcher
