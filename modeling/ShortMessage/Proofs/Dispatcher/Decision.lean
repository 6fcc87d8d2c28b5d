import ShortMessage.Proofs.Dispatcher.Entries
import ShortMessage.Proofs.Dispatcher.Placement
import ShortMessage.Proofs.Tracker.Locality

/-!
# What a carrier's report does

A report decides about an entry of its kind that waits for it, and concludes it.  What follows
depends on the parts that the entry lists and on those that are pending by then; since the entry was
filed, parts may have been settled one by one, and the whole context may have gone.

* `Origin`, `exists_origin`: the request behind an entry;
* `resend_eq`, `report_failed`: what a failure does, by the answers of the circuit domain;
* `SentAgain`, `sentAgain_resend`: what becomes of the parts then;
* `report_law`: every report after every run.
-/

namespace ShortMessage.Dispatcher

variable {σ : Type} {d d' d₀ : Dispatcher σ} {es : List (Event σ)} {e : Fallback.Entry}
  {content : Content}

/-! ### Pending pieces -/

theorem pendingCargos_of_retired (hnone : d.tracker.context? e.message = none) :
    d.pendingCargos e = [] := by
  unfold pendingCargos Tracker.parts?
  rw [hnone]
  rfl

theorem pendingCargos_eq {c : Tracker.Context} (hc : d.tracker.context? e.message = some c) :
    d.pendingCargos e = e.content.cargos.filter fun g => c.parts[g.index]? = some .pending := by
  unfold pendingCargos Tracker.parts?
  rw [hc]
  rfl

variable [Radio σ]

/-! ### The request behind an entry -/

/-- The content that an event asks to send. -/
def requested? (d : Dispatcher σ) : Event σ → Option (Except Failure Content)
  | .send _ _ r => some (r.content d.limits)
  | .sendMultimedia _ _ pdu locationUrl _ => some (multimediaContent pdu locationUrl)
  | .sendStoredText _ _ name serviceCentre _ _ => some (d.storedTextContent name serviceCentre)
  | .sendStoredMultimedia _ _ name _ => some (d.storedMultimediaContent name)
  | .report .. | .callBack .. | .sweep .. | .surroundings .. => none

theorem handle_of_sending {ev : Event σ} {s : Sending} (hs : ev.sending? = some s) :
    ∃ asked, d.requested? ev = some asked ∧
      d.handle ev = (d.launchOr s.now s.message asked s.sentTokens s.deliveredTokens).2 ∧
      ∀ content, asked = .ok content → ∃ kind, content.Sendable kind := by
  cases ev with
  | send now message r =>
    obtain rfl := Option.some.inj hs
    exact ⟨_, rfl, rfl, fun _ h => ⟨_, sendable_content h⟩⟩
  | sendMultimedia now message pdu locationUrl sentToken =>
    obtain rfl := Option.some.inj hs
    exact ⟨_, rfl, rfl, fun _ h => ⟨_, sendable_multimediaContent h⟩⟩
  | sendStoredText now message name serviceCentre sentTokens deliveredTokens =>
    obtain rfl := Option.some.inj hs
    exact ⟨_, rfl, rfl, fun _ h => ⟨_, sendable_storedTextContent h⟩⟩
  | sendStoredMultimedia now message name sentToken =>
    obtain rfl := Option.some.inj hs
    exact ⟨_, rfl, rfl, fun _ h => ⟨_, sendable_storedMultimediaContent h⟩⟩
  | report kind ref success => cases hs
  | callBack callback signal => cases hs
  | sweep now => cases hs
  | surroundings radio card archive => cases hs

/-- **The request behind an entry**: an event of the run asked to send the content, and the entry
lists the parts of it that the IP route did not refuse. -/
structure Origin (d₀ : Dispatcher σ) (es : List (Event σ)) (e : Fallback.Entry)
    (content : Content) : Prop where
  request : ∃ pre ev post s, es = pre ++ ev :: post ∧ ev.sending? = some s ∧
    s.message = e.message ∧ (d₀.run pre).requested? ev = some (.ok content) ∧
    e.content = content.without
      ((Reply.refused ((d₀.run pre).imsReplies s.message content).1).map Cargo.index)
  indexed : content.Indexed
  /-- Its pieces are those of the request, with all that they carry. -/
  cargos : e.content.cargos.Sublist content.cargos

theorem Origin.append (h : Origin d₀ es e content) (fs : List (Event σ)) :
    Origin d₀ (es ++ fs) e content := by
  obtain ⟨pre, ev, post, s, rfl, hrest⟩ := h.request
  exact ⟨⟨pre, ev, post ++ fs, s, by simp, hrest⟩, h.indexed, h.cargos⟩

theorem Origin.pairwise (h : Origin d₀ es e content) : e.content.indices.Pairwise (· < ·) := by
  have hsub := h.cargos.map Cargo.index
  rw [Content.map_index_cargos, Content.map_index_cargos] at hsub
  have hall : content.indices.Pairwise (· < ·) := by
    rw [h.indexed]
    exact List.pairwise_lt_range
  exact hall.sublist hsub

theorem origin_launch {ev : Event σ} {s : Sending} {r : MessageRef} {kind : Kind}
    (hs : ev.sending? = some s) (hask : (d₀.run es).requested? ev = some (.ok content))
    (hc : content.Sendable kind)
    (he : Fallback.entry? ((d₀.run es).launch s.now s.message content s.sentTokens
      s.deliveredTokens).2.fallback r = some e) :
    (d₀.run es).fallback.entry? r = some e ∨ Origin d₀ (es ++ [ev]) e content := by
  cases hroute : (d₀.run es).route with
  | circuit =>
    rw [fallback_launch_circuit hroute] at he
    exact Or.inl he
  | ims =>
    rw [entry?_launch hroute hc.nonempty] at he
    split at he
    · obtain rfl := Option.some.inj he
      exact Or.inr ⟨⟨es, ev, [], s, rfl, hs, rfl, hask, rfl⟩, hc.indexed,
        content.cargos_without_sublist _⟩
    · exact Or.inl he

/-- **Every entry** of a run originates in a request. -/
theorem exists_origin (h₀ : d₀.Initial) (es : List (Event σ)) :
    ∀ r e, (d₀.run es).fallback.entry? r = some e → ∃ content, Origin d₀ es e content := by
  induction es using List.reverseRecOn with
  | nil =>
    obtain ⟨limits, timeout, prefersIms, radio, card, rfl⟩ := h₀
    exact fun r e he => (nomatch he)
  | append_singleton es ev ih =>
    intro r e he
    have hold : (d₀.run es).fallback.entry? r = some e →
        ∃ content, Origin d₀ (es ++ [ev]) e content := by
      intro hr
      obtain ⟨content, horigin⟩ := ih r e hr
      exact ⟨content, horigin.append _⟩
    rw [run_concat] at he
    cases hs : ev.sending? with
    | none =>
      rcases (step_handle _ ev).entry_cases (h₀.numbered_run es) he with
        hr | ⟨y, hy, rfl⟩ | ⟨s, _, _, _, hs', -⟩
      · exact hold hr
      · obtain ⟨content, horigin⟩ := ih r y hy
        have hnow := horigin.append [ev]
        exact ⟨content, hnow.request, hnow.indexed, hnow.cargos⟩
      · rw [hs] at hs'
        cases hs'
    | some s =>
      obtain ⟨asked, hask, hhandle, hsendable⟩ := handle_of_sending (d := d₀.run es) hs
      rw [hhandle] at he
      cases asked with
      | error failure => exact hold he
      | ok content =>
        obtain ⟨kind, hc⟩ := hsendable content rfl
        rcases origin_launch hs hask hc he with hr | horigin
        · exact hold hr
        · exact ⟨content, horigin⟩

/-! ### Failures -/

/-- What is handed to the circuit domain again. -/
def again (d : Dispatcher σ) (e : Fallback.Entry) : List HandOver :=
  (d.pendingCargos e).map (Cargo.via .circuit e.message none)

/-- What the circuit domain answers to it. -/
def againReplies (d : Dispatcher σ) (e : Fallback.Entry) : List Reply :=
  (Radio.replies d.radio (d.again e)).1

/-- The tracker after these answers: the parts that were refused have failed. -/
def trackerAgain (d : Dispatcher σ) (e : Fallback.Entry) : Tracker :=
  (d.tracker.callBackAll (Reply.echoes (d.againReplies e))).failAll e.message
    ((Reply.refused (d.againReplies e)).map Cargo.index)

theorem resend_eq (d : Dispatcher σ) (e : Fallback.Entry) :
    let as := (d.againReplies e).map Reply.attempt
    d.resend e =
      { d with
          radio := (Radio.replies d.radio (d.again e)).2
          attempts := d.attempts ++ as
          counted := d.counted ++ (resends e.content.kind as ++ dispatches as)
          tracker := d.trackerAgain e } := by
  intro as
  unfold resend
  cases hnone : d.pendingCargos e with
  | nil =>
    have hnil : Radio.replies d.radio (d.again e) = ([], d.radio) := by
      unfold again
      rw [hnone]
      rfl
    simp [as, trackerAgain, againReplies, hnil, resends, dispatches, Reply.echoes, Reply.refused,
      Tracker.callBackAll, Tracker.failAll]
  | cons g gs =>
    have hsome : as.isEmpty = false := by
      simp only [as, againReplies, again, hnone]
      rfl
    rw [if_neg (by simp), ← hnone, offerCircuit_eq, resends, hsome]
    simp only [Bool.false_eq_true, if_false, ← List.append_assoc]
    rfl

theorem report_failed {ref : MessageRef} (hf : d.fallback.Numbered)
    (he : d.fallback.entry? ref = some e) (hp : e.phase = .awaitingReport) :
    d.report e.content.kind ref false =
      { d.resend e with fallback := d.fallback.move e .concluded } := by
  rw [← Fallback.markResent_move hf he]
  unfold report
  rw [Fallback.report_of_awaiting he hp]
  simp only [Bool.false_eq_true, if_false, resend_eq]
  rfl

/-! ### What is sent again -/

theorem map_handOver_again (d : Dispatcher σ) (e : Fallback.Entry) :
    (d.againReplies e).map Reply.handOver =
      (d.pendingCargos e).map (Cargo.via .circuit e.message none) :=
  Radio.map_handOver_replies _ _

theorem map_index_again (d : Dispatcher σ) (e : Fallback.Entry) :
    (d.againReplies e).map Reply.index = (d.pendingCargos e).map Cargo.index :=
  (Reply.of_map_handOver (map_handOver_again d e)).1

theorem of_mem_again {r : Reply} (hr : r ∈ d.againReplies e) :
    r.message = e.message ∧ r.handOver.cargo.index = r.index ∧
      d.tracker.Pending e.message r.index := by
  obtain ⟨g, hg, hvia⟩ := (Reply.of_map_handOver (map_handOver_again d e)).2 r hr
  unfold Reply.message Reply.index
  rw [hvia]
  exact ⟨rfl, rfl, (mem_pendingCargos.1 hg).2⟩

theorem mem_again_iff {i : Nat} :
    i ∈ (d.againReplies e).map Reply.index ↔
      i ∈ e.content.indices ∧ d.tracker.Pending e.message i := by
  rw [map_index_again, ← e.content.map_index_cargos, List.mem_map, List.mem_map]
  constructor
  · rintro ⟨g, hg, rfl⟩
    obtain ⟨hg, hp⟩ := mem_pendingCargos.1 hg
    exact ⟨⟨g, hg, rfl⟩, hp⟩
  · rintro ⟨⟨g, hg, rfl⟩, hp⟩
    exact ⟨g, mem_pendingCargos.2 ⟨hg, hp⟩, rfl⟩

theorem mem_again_of_refused {i : Nat}
    (hi : i ∈ (Reply.refused (d.againReplies e)).map Cargo.index) :
    i ∈ (d.againReplies e).map Reply.index := by
  rw [Reply.map_index_refused fun x hx => (of_mem_again hx).2.1] at hi
  exact (List.filter_sublist.map _).subset hi

theorem kept_again {c c' : Tracker.Context} {i : Nat}
    (hc : d.tracker.context? e.message = some c) (hi : i ∉ (d.againReplies e).map Reply.index)
    (hc' : (d.trackerAgain e).context? e.message = some c') : c'.parts[i]? = c.parts[i]? := by
  obtain ⟨c₀, hc₀, hsame⟩ := Tracker.parts_of_unmentioned (fun _ hr => (of_mem_again hr).1)
    (fun r hr hindex => hi (List.mem_map.2 ⟨r, hr, hindex⟩))
    (fun hgone => hi (mem_again_of_refused hgone)) hc'
  obtain rfl := Option.some.inj (hc.symm.trans hc₀)
  exact hsame

section

variable (hlt : e.content.indices.Pairwise (· < ·))
include hlt

theorem pairwise_again (d : Dispatcher σ) :
    ((d.againReplies e).map Reply.index).Pairwise (· < ·) := by
  rw [map_index_again]
  rw [← e.content.map_index_cargos] at hlt
  exact hlt.sublist ((pendingCargos_sublist d e).map _)

theorem nodup_again (d : Dispatcher σ) : ((d.againReplies e).map Reply.index).Nodup :=
  (pairwise_again hlt d).imp Nat.ne_of_lt

theorem mem_refused_again_iff {r : Reply} (hr : r ∈ d.againReplies e) :
    r.index ∈ (Reply.refused (d.againReplies e)).map Cargo.index ↔ r.verdict = .refused := by
  rw [Reply.map_index_refused fun x hx => (of_mem_again hx).2.1]
  exact Reply.index_mem_refused_iff (nodup_again hlt d) hr

theorem nodup_refused_again (d : Dispatcher σ) :
    ((Reply.refused (d.againReplies e)).map Cargo.index).Nodup := by
  rw [Reply.map_index_refused fun x hx => (of_mem_again hx).2.1]
  exact (nodup_again hlt d).sublist (List.filter_sublist.map _)

/-- The radio has called nothing back about a part that it refuses, so it is pending until then. -/
theorem silent_again {i : Nat} (hi : i ∈ (Reply.refused (d.againReplies e)).map Cargo.index) :
    d.tracker.Pending e.message i ∧
      ∀ r ∈ d.againReplies e, r.index = i → r.verdict.echo = [] := by
  refine ⟨(mem_again_iff.1 (mem_again_of_refused hi)).2, fun r hr hindex => ?_⟩
  rw [← hindex, mem_refused_again_iff hlt hr] at hi
  rw [hi]
  rfl

theorem failed_again {r : Reply} (hr : r ∈ d.againReplies e) (href : r.verdict = .refused)
    {c' : Tracker.Context} (hc' : (d.trackerAgain e).context? e.message = some c') :
    c'.parts[r.index]? = some (.failed .genericFailure) :=
  Tracker.failed_of_mem (fun _ hr => (of_mem_again hr).1) (nodup_refused_again hlt d)
    (fun _ hi => silent_again hlt hi) ((mem_refused_again_iff hlt hr).2 href) hc'

theorem pending_again {r : Reply} (hr : r ∈ d.againReplies e) (hacc : r.verdict = .accepted []) :
    (d.trackerAgain e).Pending e.message r.index := by
  refine Tracker.pending_of_silent (fun _ hr => (of_mem_again hr).1) (of_mem_again hr).2.2
    (fun x hx hindex => ?_) ?_
  · rw [List.inj_on_of_nodup_map (nodup_again hlt d) hx hr hindex, hacc]
    rfl
  · rw [mem_refused_again_iff hlt hr, hacc]
    exact nofun

/-- If the radio calls nothing back, the refused parts are settled together. -/
theorem settled_again {c : Tracker.Context} (hs : d.tracker.AllSound)
    (hc : d.tracker.context? e.message = some c)
    (hsilent : ∀ r ∈ d.againReplies e, r.verdict.echo = []) :
    let gone := (Reply.refused (d.againReplies e)).map Cargo.index
    (gone = [] → d.trackerAgain e = d.tracker) ∧
      (gone ≠ [] → d.tracker.Settles e.message c gone .genericFailure (d.trackerAgain e)) := by
  intro gone
  have htracker : d.trackerAgain e = d.tracker.failAll e.message gone := by
    unfold trackerAgain
    rw [Tracker.callBackAll_of_silent hsilent]
  rw [htracker]
  refine ⟨fun hnone => ?_, fun hsome => ?_⟩
  · rw [hnone]
    rfl
  · rw [Tracker.failAll_eq_settle hc hsome (nodup_refused_again hlt d)
      fun i hi => (silent_again hlt hi).1]
    exact Tracker.settles_settle hs hc _ _

end

/-- **What a failure has the circuit domain do**, if the message of the entry `e` has the context
`c`: `rs` are its answers. -/
structure SentAgain (d : Dispatcher σ) (e : Fallback.Entry) (c : Tracker.Context)
    (rs : List Reply) (d' : Dispatcher σ) : Prop where
  /-- It gets the pieces of the entry whose parts are pending. -/
  answers : Radio.replies d.radio
    ((e.content.cargos.filter fun g => c.parts[g.index]? = some .pending).map
      (Cargo.via .circuit e.message none)) = (rs, d'.radio)
  attempts : d'.attempts = d.attempts ++ rs.map Reply.attempt
  /-- So each part that is listed and pending is handed over, and no other one … -/
  mem_iff : ∀ i : Nat, i ∈ rs.map Reply.index ↔
    i ∈ e.content.indices ∧ c.parts[i]? = some .pending
  /-- … once, in the order of the indices. -/
  ordered : (rs.map Reply.index).Pairwise (· < ·)
  failed : ∀ r ∈ rs, r.verdict = .refused →
    ∀ c', d'.tracker.context? e.message = some c' →
      c'.parts[r.index]? = some (.failed .genericFailure)
  /-- A part that is taken, with no signal as yet, stays pending. -/
  pending : ∀ r ∈ rs, r.verdict = .accepted [] → d'.tracker.Pending e.message r.index
  kept : ∀ i, i ∉ rs.map Reply.index → ∀ c', d'.tracker.context? e.message = some c' →
    c'.parts[i]? = c.parts[i]?
  /-- If there is no signal at all as yet, the refused parts are settled as failures, and nothing
  else happens to the message. -/
  settled : (∀ r ∈ rs, r.verdict.echo = []) →
    let gone := (Reply.refused rs).map Cargo.index
    (gone = [] → d'.tracker = d.tracker) ∧
      (gone ≠ [] → d.tracker.Settles e.message c gone .genericFailure d'.tracker)
  others : ∀ m ≠ e.message, d'.tracker.context? m = d.tracker.context? m
  counted : d'.counted = d.counted ++
    (resends e.content.kind (rs.map Reply.attempt) ++ dispatches (rs.map Reply.attempt))
  rest : d' = { d with
    radio := d'.radio
    tracker := d'.tracker
    fallback := d.fallback.move e .concluded
    attempts := d'.attempts
    counted := d'.counted }

theorem sentAgain_resend {c : Tracker.Context} (hs : d.tracker.AllSound)
    (hlt : e.content.indices.Pairwise (· < ·)) (hc : d.tracker.context? e.message = some c) :
    SentAgain d e c (d.againReplies e)
      { d.resend e with fallback := d.fallback.move e .concluded } := by
  have hothers : ∀ m ≠ e.message, (d.resend e).tracker.context? m = d.tracker.context? m := by
    obtain ⟨_, -, hoff, -⟩ := offered_resend d e
    exact fun m hm => hoff.heard.attends.context?_of_ne hm
  rw [resend_eq] at hothers ⊢
  exact
    { answers := by
        rw [← pendingCargos_eq hc]
        rfl
      attempts := rfl
      mem_iff := fun i => by rw [mem_again_iff, Tracker.pending_iff hc]
      ordered := pairwise_again hlt d
      failed := fun r hr href c' hc' => failed_again hlt hr href hc'
      pending := fun r hr hacc => pending_again hlt hr hacc
      kept := fun i hi c' hc' => kept_again hc hi hc'
      settled := fun hsilent => settled_again hlt hs hc hsilent
      others := hothers
      counted := rfl
      rest := rfl }

/-! ### Every report -/

/-- **A carrier's report.**  If no entry of its kind waits under the reference, nothing changes but
that the report may count as stale.  Otherwise the entry concludes; it lists what the IP route took
of a request.  A success settles the listed parts and has nothing handed over; a failure has those
that are still pending handed to the circuit domain.  If the message is tracked no more, that is
all. -/
theorem report_law (h₀ : d₀.Initial) (es : List (Event σ)) (kind : Kind) (ref : MessageRef)
    (success : Bool) :
    let d := d₀.run es
    let d' := d.report kind ref success
    ((∀ e, d.fallback.entry? ref = some e → e.content.kind = kind → e.phase ≠ .awaitingReport) →
      d' = { d with
        fallback := { d.fallback with
          counters := d.fallback.counters ++
            if (d.fallback.entry? ref).any (·.content.kind = kind) then []
            else [.staleSignal .fallback] } }) ∧
    ∀ e, d.fallback.entry? ref = some e → e.content.kind = kind → e.phase = .awaitingReport →
      (∃ content, Origin d₀ es e content) ∧
      (∀ r, d'.fallback.entry? r =
        if r = ref then some { e with phase := .concluded } else d.fallback.entry? r) ∧
      match success, d.tracker.context? e.message with
      | true, none =>
        d' = { d with
          fallback := d.fallback.move e .concluded
          tracker := d.tracker.count (.staleSignal .settle) }
      | true, some c =>
        d' = { d with fallback := d.fallback.move e .concluded, tracker := d'.tracker } ∧
          d.tracker.Settles e.message c e.content.indices .success d'.tracker
      | false, none => d' = { d with fallback := d.fallback.move e .concluded }
      | false, some c => ∃ rs, SentAgain d e c rs d' := by
  intro d d'
  have hf : d.fallback.Numbered := h₀.numbered_run es
  have hs : d.tracker.AllSound := h₀.allSound_run es
  refine ⟨fun hno => ?_, ?_⟩
  · simp only [d', report, Fallback.report_of_not_awaiting hno success]
  rintro e he rfl hp
  obtain rfl := hf.ref_eq ref e he
  obtain ⟨content, horigin⟩ := exists_origin h₀ es e.ref e he
  have hfallback : d'.fallback = d.fallback.move e .concluded := by
    cases success with
    | true => exact congrArg fallback (report_succeeded he hp)
    | false => exact congrArg fallback (report_failed hf he hp)
  refine ⟨⟨content, horigin⟩, fun r => ?_, ?_⟩
  · have hfiles := d.fallback.files_move e .concluded
    rw [hfallback]
    exact hfiles.entry? r
  cases success with
  | true =>
    have hd : d' = _ := report_succeeded he hp
    cases hc : d.tracker.context? e.message with
    | none =>
      rw [hd, Tracker.settle_stale hc]
    | some c =>
      rw [hd]
      exact ⟨rfl, Tracker.settles_settle hs hc _ _⟩
  | false =>
    have hd : d' = _ := report_failed hf he hp
    cases hc : d.tracker.context? e.message with
    | none =>
      rw [hd]
      unfold resend
      rw [pendingCargos_of_retired hc]
      rfl
    | some c =>
      rw [hd]
      exact ⟨_, sentAgain_resend hs horigin.pairwise hc⟩

/-- Of two parts the IP route takes the first one only, and then reports a failure.  So that part
alone is sent again; the circuit domain refuses it, and the other part is as it was. -/
theorem report_law_failed :
    let d₀ := picky [(.ims, 1), (.circuit, 0)]
    let d := d₀.run [.send 0 ⟨7⟩ ⟨"10086", none, .text "短信", [⟨1⟩], []⟩]
    let d' := d.report .sms .first false
    let g : Cargo := .part ⟨0, 2, .ucs2, some "短", [119, 237], none⟩ "10086" none
    d₀.Initial ∧
      (∃ e, d.fallback.entry? .first = some e ∧ e.content.cargos = [g] ∧
        d'.fallback.entry? .first = some { e with phase := .concluded }) ∧
      d'.attempts = d.attempts ++ [⟨g.via .circuit ⟨7⟩ none, false⟩] ∧
      ∀ c, d'.tracker.context? ⟨7⟩ = some c →
        c.parts[0]? = some (.failed .genericFailure) ∧ c.parts[1]? = some .pending := by
  intro d₀ d d' g
  have h₀ : d₀.Initial := ⟨_, _, _, _, _, rfl⟩
  let e : Fallback.Entry :=
    ⟨.first, ⟨7⟩, .sms "10086" none [⟨0, 2, .ucs2, some "短", [119, 237], none⟩], .awaitingReport⟩
  let c : Tracker.Context := ⟨0, [.pending, .pending], some ⟨1⟩, [none, none], false⟩
  have he : d.fallback.entry? .first = some e := by decide +kernel
  have hc : d.tracker.context? e.message = some c := by decide +kernel
  obtain ⟨-, hdecides⟩ := report_law h₀ _ .sms .first false
  obtain ⟨-, hentry, hfailed⟩ := hdecides e he rfl rfl
  rw [hc] at hfailed
  obtain ⟨rs, hagain⟩ := hfailed
  have hrs : rs = [⟨g.via .circuit ⟨7⟩ none, .refused⟩] := by
    refine (congrArg Prod.fst hagain.answers).symm.trans ?_
    decide +kernel
  subst hrs
  refine ⟨h₀, ⟨e, he, rfl, (hentry .first).trans (if_pos rfl)⟩, hagain.attempts, fun c' hc' => ?_⟩
  exact ⟨hagain.failed _ List.mem_cons_self rfl c' hc', hagain.kept 1 (by decide) c' hc'⟩

end ShortMessage.Dispatcher
