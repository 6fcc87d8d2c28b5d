import ShortMessage.Proofs.Dispatcher.Resends
import ShortMessage.Proofs.Tracker.Reports
import ShortMessage.Radio.Scripted

/-!
# What the counters say

Counters are raised in many places: when the radio takes a piece, when a failure report resends
something, when a sweep retires a context, and when the tracker hears of a message.  `raised` lists
them by what raised them, and every event adds to that list what it is about (`counted_handle`).  So
the counters of a run agree with what happened in it.

* `sweptAt`, `swept`: the contexts that the sweeps of a run retire;
* `raised`: counters by what raised them;
* `Counted`, `counted_handle`: what an event adds;
* `Tally`, `tally_run`: what a run has added;
* `counters_agree`: all counters, for every admissible run.
-/

namespace ShortMessage.Dispatcher

variable {σ : Type} {d d' d₀ : Dispatcher σ} {es : List (Event σ)} {kind : Kind}

/-- What a sweep retires. -/
def sweptAt (d : Dispatcher σ) (e : Event σ) : List (MessageId × Tracker.Context) :=
  match e with
  | .sweep now => d.tracker.retired now
  | _ => []

theorem sweptAt_of_sending {e : Event σ} {s : Sending} (he : e.sending? = some s) :
    d.sweptAt e = [] := by
  cases e <;> first | rfl | cases he

/-! ### Counters by what raised them -/

/-- Counters by what raised them: signals and stale reports, sweeps, resends and hand-overs. -/
def raised (heard : List Counter) (swept : List (MessageId × Tracker.Context))
    (resent : List Enlistment) (as : List Attempt) : List Counter :=
  heard ++ (swept.map fun _ => .trackingTimeout) ++ (resent.map fun x => .fallbackResend x.kind) ++
    dispatches as

section Raised

variable {heard heard' : List Counter} {gone gone' : List (MessageId × Tracker.Context)}
  {resends resends' : List Enlistment} {as bs : List Attempt}

theorem raised_append_perm :
    (raised heard gone resends as ++ raised heard' gone' resends' bs).Perm
      (raised (heard ++ heard') (gone ++ gone') (resends ++ resends') (as ++ bs)) := by
  refine List.perm_iff_count.2 fun k => ?_
  simp only [raised, dispatches_append, List.map_append, List.count_append]
  omega

theorem count_map_of_ne {α : Type} {f : α → Counter} {k : Counter} (h : ∀ a, f a ≠ k)
    (l : List α) : (l.map f).count k = 0 := by
  refine List.count_eq_zero.2 fun hk => ?_
  obtain ⟨a, -, ha⟩ := List.mem_map.1 hk
  exact h a ha

theorem count_dispatches (as : List Attempt) (p : Route) :
    (dispatches as).count (.partDispatched p) =
      (((as.filter Attempt.accepted).map Attempt.handOver).filter (·.route = p)).length := by
  unfold dispatches
  rw [List.count, List.countP_map, ← List.countP_eq_length_filter, List.countP_map]
  refine List.countP_congr fun a _ => ?_
  simp [Attempt.route]

theorem count_resends (resends : List Enlistment) (kind : Kind) :
    (resends.map fun x => Counter.fallbackResend x.kind).count (.fallbackResend kind) =
      (resends.filter (·.kind = kind)).length := by
  rw [List.count, List.countP_map, ← List.countP_eq_length_filter]
  exact List.countP_congr fun x _ => by simp

section

variable (hheard : ∀ k ∈ heard, k.OfSignals)
include hheard

theorem count_heard {k : Counter} (hk : ¬ k.OfSignals) : heard.count k = 0 :=
  List.count_eq_zero.2 fun hmem => hk (hheard k hmem)

theorem count_partDispatched_raised (p : Route) :
    (raised heard gone resends as).count (.partDispatched p) =
      (((as.filter Attempt.accepted).map Attempt.handOver).filter (·.route = p)).length := by
  unfold raised
  rw [List.count_append, List.count_append, List.count_append,
    count_heard hheard (by simp [Counter.OfSignals]), count_map_of_ne, count_map_of_ne,
    count_dispatches, Nat.zero_add]
  all_goals exact fun _ => nofun

theorem count_fallbackResend_raised (kind : Kind) :
    (raised heard gone resends as).count (.fallbackResend kind) =
      (resends.filter (·.kind = kind)).length := by
  unfold raised dispatches
  rw [List.count_append, List.count_append, List.count_append,
    count_heard hheard (by simp [Counter.OfSignals]), count_map_of_ne, count_resends,
    count_map_of_ne, Nat.zero_add, Nat.add_zero]
  all_goals exact fun _ => nofun

theorem count_trackingTimeout_raised :
    (raised heard gone resends as).count .trackingTimeout = gone.length := by
  unfold raised dispatches
  rw [List.count_append, List.count_append, List.count_append,
    count_heard hheard (by simp [Counter.OfSignals]), List.map_const', List.count_replicate_self,
    count_map_of_ne, count_map_of_ne, Nat.zero_add, Nat.add_zero]
  all_goals exact fun _ => nofun

end

theorem reportCount_raised : reportCount (raised heard gone resends as) = reportCount heard := by
  have hrest : reportCount ((gone.map fun _ => .trackingTimeout) ++
      ((resends.map fun x => .fallbackResend x.kind) ++ dispatches as)) = 0 := by
    refine reportCount_eq_zero fun k hk result => ?_
    rintro rfl
    simp [dispatches] at hk
  unfold raised
  rw [List.append_assoc, List.append_assoc, reportCount_append, hrest, Nat.add_zero]

end Raised

/-! ### What an event adds -/

theorem counters_perm {ts fs cs : List Counter}
    (ht : d'.tracker.counters = d.tracker.counters ++ ts)
    (hf : d'.fallback.counters = d.fallback.counters ++ fs)
    (hc : d'.counted = d.counted ++ cs) : d'.counters.Perm (d.counters ++ (ts ++ fs ++ cs)) := by
  refine List.perm_iff_count.2 fun k => ?_
  simp only [counters, ht, hf, hc, List.count_append]
  omega

variable [Radio σ] {e : Event σ}

/-- **What an event adds to the counters**, and how it moves the balance of receipts and reports. -/
structure Counted (d : Dispatcher σ) (e : Event σ) (heard : List Counter) (d' : Dispatcher σ) :
    Prop where
  counters : d'.counters.Perm
    (d.counters ++ raised heard (d.sweptAt e) (d.resentAt e) (d.offered e))
  ofSignals : ∀ k ∈ heard, k.OfSignals
  balance : d'.tracker.unreported + reportCount heard + (d.sweptAt e).countP (!·.2.reported) =
    d.tracker.unreported + (d.receipt? e).toList.length

/-- What a failure report counts of a resend beside its hand-overs. -/
theorem map_resentAt {ref : MessageRef} (hroute : ∀ a ∈ d.offered (.report kind ref false),
    a.route = .circuit) :
    (d.resentAt (.report kind ref false)).map (fun x => Counter.fallbackResend x.kind) =
      resends kind (d.offered (.report kind ref false)) := by
  unfold resentAt resends
  simp only
  cases hoff : d.offered (.report kind ref false) with
  | nil => rfl
  | cons a as =>
    rw [hoff] at hroute
    have ha := hroute a List.mem_cons_self
    rw [List.find?_cons_of_pos (by simpa using ha)]
    rfl

theorem counted_of_tells (htells : ∃ heard, d.tracker.Tells heard d'.tracker)
    (hfallback : ∃ new, d'.fallback.counters = d.fallback.counters ++ new ∧
      ∀ k ∈ new, k = .staleSignal .fallback)
    (hcounted : d'.counted = d.counted ++
      ((d.resentAt e).map (fun x => .fallbackResend x.kind) ++ dispatches (d.offered e)))
    (hsweep : d.sweptAt e = []) (hreceipt : d.receipt? e = none) :
    ∃ heard, d.Counted e heard d' := by
  obtain ⟨heard, htells⟩ := htells
  obtain ⟨stale, hstale, hkinds⟩ := hfallback
  refine ⟨heard ++ stale, ?_, fun k hk => ?_, ?_⟩
  · rw [hsweep, raised, List.map_nil, List.append_nil, List.append_assoc]
    exact counters_perm htells.counters hstale hcounted
  · rcases List.mem_append.1 hk with hk | hk
    · exact htells.ofSignals k hk
    · exact Or.inl ⟨_, hkinds k hk⟩
  · have hnone : reportCount stale = 0 := reportCount_eq_zero fun k hk result => by
      rw [hkinds k hk]
      exact nofun
    rw [hsweep, hreceipt, reportCount_append, hnone, ← htells.balance]
    rfl

theorem Launched.counted_by {s : Sending} {content : Content} {ims circuit : List Attempt}
    (h : Launched d s content ims circuit d') (he : e.sending? = some s)
    (hanswer : d.answer? e =
      some (.ok (d.launch s.now s.message content s.sentTokens s.deliveredTokens).1))
    (hoff : d.offered e = ims ++ circuit) (hnew : d.tracker.context? s.message = none) :
    ∃ heard, d.Counted e heard d' := by
  obtain ⟨heard, htells⟩ := h.heard.tells
  have hfallback : d'.fallback.counters = d.fallback.counters ++ [] := by
    rw [List.append_nil]
    rcases h.fallback with ⟨-, hfall⟩ | ⟨-, entry, hentry⟩
    · rw [hfall]
    · exact hentry.files.counters
  refine ⟨heard, ?_, htells.ofSignals, ?_⟩
  · have hperm := counters_perm htells.counters hfallback h.counted
    rw [sweptAt_of_sending he, resentAt_of_sending he, hoff, raised, List.map_nil, List.map_nil,
      List.append_nil]
    exact hperm
  · have hbalance := htells.balance
    rw [Tracker.unreported_register hnew] at hbalance
    rw [sweptAt_of_sending he, receipt?_of_ok hanswer]
    exact hbalance

/-- **Every event adds to the counters what it is about.** -/
theorem counted_handle (hf : d.fallback.Numbered)
    (hnew : ∀ s, e.sending? = some s → d.tracker.context? s.message = none) :
    ∃ heard, d.Counted e heard (d.handle e) := by
  have hatt := attempts_handle hf e
  have hstep := step_handle d e
  generalize d.handle e = d' at hstep hatt
  have hoff : ∀ {as}, d'.attempts = d.attempts ++ as → d.offered e = as := fun h =>
    List.append_cancel_left (hatt.symm.trans h)
  -- most events hand nothing over and count nothing of it
  have hnone : d'.attempts = d.attempts → d'.counted = d.counted → d'.counted = d.counted ++
      ((d.resentAt e).map (fun x => .fallbackResend x.kind) ++ dispatches (d.offered e)) := by
    intro h hc
    have hoff := hoff (h.trans (List.append_nil _).symm)
    rw [resentAt_of_offered_nil hoff, hoff, hc]
    exact (List.append_nil _).symm
  have hkept : ∃ new, d.fallback.counters = d.fallback.counters ++ new ∧
      ∀ k ∈ new, k = .staleSignal .fallback :=
    ⟨[], (List.append_nil _).symm, fun k hk => (nomatch hk)⟩
  have hquiet : ∃ heard, d.tracker.Tells heard d.tracker := ⟨[], .refl _⟩
  cases hstep with
  | @refused e s he hanswer =>
    exact counted_of_tells hquiet hkept (hnone rfl rfl) (sweptAt_of_sending he)
      (receipt?_of_error hanswer)
  | @launched e s content he hc hne hkind hanswer =>
    obtain ⟨ims, circuit, hl⟩ := launched_launch d s hf hc
    exact hl.counted_by he hanswer (hoff hl.attempts) (hnew s he)
  | ignored hno hentries hnext hcounters =>
    exact counted_of_tells hquiet hcounters (hnone rfl rfl) rfl rfl
  | @succeeded ref entry he hp =>
    have htells := (decided_succeeded d entry).heard.tells
    exact counted_of_tells htells hkept (hnone rfl rfl) rfl rfl
  | @failed ref entry d' he hp hd =>
    obtain ⟨circuit, hdec⟩ := decided_failed hf he hd
    refine counted_of_tells hdec.heard.tells ?_ ?_ rfl rfl
    · exact hdec.files.counters ▸ hkept
    · have hoff := hoff hdec.attempts
      rw [map_resentAt (hoff ▸ fun a ha => (hdec.of_mem ha).2.1), hoff]
      exact hdec.counted
  | callBack callback signal =>
    have htells := (Tracker.hears_callBack d.tracker callback signal).tells
    exact counted_of_tells htells hkept (hnone rfl rfl) rfl rfl
  | sweep now =>
    have hoff := hoff (List.append_nil _).symm
    refine ⟨[], ?_, fun k hk => (nomatch hk), ?_⟩
    · have htracker : (d.sweep now).2.tracker.counters = d.tracker.counters ++ _ :=
        Tracker.counters_sweep d.tracker now
      rw [resentAt_of_offered_nil hoff, hoff]
      exact counters_perm htracker (List.append_nil _).symm (List.append_nil _).symm
    · have hbalance := Tracker.unreported_sweep d.tracker now
      rw [reportCount_nil, Nat.add_zero]
      exact hbalance
  | surroundings radio card archive => exact counted_of_tells hquiet hkept (hnone rfl rfl) rfl rfl

/-! ### Runs -/

/-- All contexts that the sweeps of a run retire. -/
def swept (d : Dispatcher σ) (es : List (Event σ)) : List (MessageId × Tracker.Context) :=
  (moments d es).flatMap fun x => x.1.sweptAt x.2

theorem swept_concat (d : Dispatcher σ) (es : List (Event σ)) (e : Event σ) :
    swept d (es ++ [e]) = swept d es ++ (d.run es).sweptAt e :=
  flatMap_moments_concat _ d es e

/-- **What a run has added to the counters**, from the beginning. -/
structure Tally (d₀ : Dispatcher σ) (es : List (Event σ)) (heard : List Counter) : Prop where
  counters : (d₀.run es).counters.Perm
    (raised heard (swept d₀ es) (resent d₀ es) (d₀.run es).attempts)
  ofSignals : ∀ k ∈ heard, k.OfSignals
  balance : (d₀.run es).tracker.unreported + reportCount heard +
    (swept d₀ es).countP (!·.2.reported) = (receipts d₀ es).length

theorem tally_run (h₀ : d₀.Initial) (h : Admissible d₀ es) : ∃ heard, Tally d₀ es heard := by
  induction es using List.reverseRecOn with
  | nil =>
    obtain ⟨limits, timeout, prefersIms, radio, card, rfl⟩ := h₀
    exact ⟨[], .refl _, fun k hk => (nomatch hk), rfl⟩
  | append_singleton es e ih =>
    obtain ⟨heard, htally⟩ := ih h.of_append
    have hinv := h₀.invariant_run h.of_append
    have hnew : ∀ s, e.sending? = some s → (d₀.run es).tracker.context? s.message = none := by
      intro s hs
      refine (hinv.unknown s.message fun hmem => ?_).context
      exact h.not_mem_messages hmem (mem_messages List.mem_cons_self hs)
    obtain ⟨new, hstep⟩ := counted_handle hinv.numbered hnew
    refine ⟨heard ++ new, ?_, fun k hk => ?_, ?_⟩
    · rw [run_concat, attempts_handle hinv.numbered, resent_concat, swept_concat]
      exact hstep.counters.trans ((htally.counters.append_right _).trans raised_append_perm)
    · rcases List.mem_append.1 hk with hk | hk
      · exact htally.ofSignals k hk
      · exact hstep.ofSignals k hk
    · have hbefore := htally.balance
      have hafter := hstep.balance
      rw [run_concat, swept_concat, receipts_concat, List.countP_append, List.length_append,
        reportCount_append]
      omega

theorem Step.parted (hstep : Step d e d') (hf : d.fallback.Numbered) (h : d.tracker.Parted) :
    d'.tracker.Parted := by
  cases hstep with
  | refused he => exact h
  | @launched e s content he hc hne hkind hanswer =>
    obtain ⟨ims, circuit, hl⟩ := launched_launch d s hf hc
    let r : Tracker.Registration :=
      ⟨s.message, content.indices.length, s.sentTokens, s.deliveredTokens⟩
    refine hl.heard.parted (Tracker.Step.parted (.register s.now r) h fun r' hr' => ?_)
    obtain rfl := Option.some.inj hr'
    exact List.length_eq_zero_iff.not.2 hne
  | ignored hno hentries hnext hcounters => exact h
  | succeeded he hp => exact (decided_succeeded d _).heard.parted h
  | failed he hp hd =>
    obtain ⟨circuit, hdec⟩ := decided_failed hf he hd
    exact hdec.heard.parted h
  | callBack callback signal => exact (Tracker.hears_callBack _ callback signal).parted h
  | sweep now => exact Tracker.Step.parted (.sweep now) h fun r hr => (nomatch hr)
  | surroundings radio card archive => exact h

theorem Initial.parted_run (h₀ : d₀.Initial) (es : List (Event σ)) :
    (d₀.run es).tracker.Parted := by
  induction es using List.reverseRecOn with
  | nil =>
    obtain ⟨limits, timeout, prefersIms, radio, card, rfl⟩ := h₀
    exact fun m c hc => (nomatch hc)
  | append_singleton es e ih =>
    rw [run_concat]
    exact (step_handle _ e).parted (h₀.numbered_run es) ih

/-- **The counters agree with what happened.**  After every admissible run the hand-overs that were
counted on a route are those that the radio took there; the resends that were counted of a kind are
the enlisted messages of the kind that a failure report has resent, each of them once; the timeouts
are the contexts that sweeps have retired; and each receipt stands for a report that was counted, a
context that was swept before its report, or a live context with a pending part. -/
theorem counters_agree (h₀ : d₀.Initial) (h : Admissible d₀ es) :
    let d := d₀.run es
    (∀ route, d.counters.count (.partDispatched route) =
      (d.taken.filter (·.route = route)).length) ∧
    (∀ kind, d.counters.count (.fallbackResend kind) =
      ((enlistments d₀ es).filter fun x => x.kind = kind ∧ x ∈ resent d₀ es).length) ∧
    (resent d₀ es).Nodup ∧
    d.counters.count .trackingTimeout = (swept d₀ es).length ∧
    (receipts d₀ es).length =
      (∑ result, d.counters.count (.aggregateReported result)) +
        (swept d₀ es).countP (!·.2.reported) +
        d.tracker.contexts.entries.countP fun x => .pending ∈ x.2.parts := by
  intro d
  obtain ⟨heard, htally⟩ := tally_run h₀ h
  obtain ⟨timeout, ts, htrace⟩ := exists_trace h₀ h
  have hsound : d.tracker.AllSound := htrace.tracker ▸ Tracker.sound_of_run timeout ts
  have hcount := htally.counters.count_eq
  refine ⟨fun route => ?_, fun kind => ?_, nodup_resent h₀ h, ?_, ?_⟩
  · rw [hcount, count_partDispatched_raised htally.ofSignals]
    rfl
  · rw [hcount, count_fallbackResend_raised htally.ofSignals, length_resent h₀ h]
  · rw [hcount, count_trackingTimeout_raised htally.ofSignals]
  · have hreports : reportCount d.counters = reportCount heard :=
      (reportCount_perm htally.counters).trans reportCount_raised
    have hbalance : d.tracker.unreported + reportCount heard + _ = _ := htally.balance
    rw [← hreports] at hbalance
    rw [← Tracker.unreported_eq hsound (h₀.parted_run es), ← hbalance]
    unfold reportCount
    omega

/-- Three messages: one is resent and reported, one is swept, and one is still pending; a fourth is
refused. -/
def fourRequests : List (Event ScriptedRadio) :=
  [.sendMultimedia 0 ⟨7⟩ [1] none none, .report .mms .first false,
    .callBack (.via .circuit ⟨7⟩ 0) (.sent .success), .sendMultimedia 10 ⟨8⟩ [2] none none,
    .sweep 400, .sendMultimedia 400 ⟨9⟩ [3] none none, .sendMultimedia 400 ⟨10⟩ [] none none]

theorem counters_agree_fourRequests :
    let d₀ := new .standard 300 true (ScriptedRadio.new true) (.memory ⟨0, 0, []⟩)
    let d := d₀.run fourRequests
    d₀.Initial ∧ Admissible d₀ fourRequests ∧
      d.counters.count (.partDispatched .ims) = 3 ∧
      d.counters.count (.partDispatched .circuit) = 1 ∧
      d.counters.count (.fallbackResend .mms) = 1 ∧
      resent d₀ fourRequests = [⟨⟨7⟩, .mms, .first⟩] ∧
      d.counters.count .trackingTimeout = 1 ∧
      (receipts d₀ fourRequests).length = 3 := by
  intro d₀ d
  have h₀ : d₀.Initial := ⟨_, _, _, _, _, rfl⟩
  have h : Admissible d₀ fourRequests := h₀.admissible_of_length (by decide) (by decide)
  obtain ⟨htaken, hresent, -, htimeouts, hreceipts⟩ := counters_agree h₀ h
  refine ⟨h₀, h, ?_, ?_, ?_, by decide, ?_, ?_⟩
  · exact (htaken .ims).trans (by decide)
  · exact (htaken .circuit).trans (by decide)
  · exact (hresent .mms).trans (by decide)
  · exact htimeouts.trans (by decide)
  · exact hreceipts.trans (by decide)

end ShortMessage.Dispatcher
