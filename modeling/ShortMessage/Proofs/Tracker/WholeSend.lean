import ShortMessage.Proofs.Tracker.Develop
import ShortMessage.Proofs.Tracker.Waiting

/-!
# The result of a whole send

A context reports its send once, in the step that gives its last pending part a result.  What it
reports is the overall result of its parts then; no part that has a send result gets another, so it
stays the overall result as long as the context lives.

* `Progress.Leads`, `Context.Advances`: how parts and contexts may move on;
* `Overall`, `overall_iff`: the failure of the lowest failed part, or success;
* `reports`, `reportsOn`: what an event and the events about a message report;
* `Latest`: what has become of a context;
* `Reporting`, `Expiry`: what an event about its message and a sweep do to a live context;
* `Course`, `course`: what any events without a new registration make of a live context;
* `whole_send_reported_once`: the course of every registration, and from every later moment on.
-/

namespace ShortMessage

/-- **The way of a part**: it gets one send result, and a sent part may be delivered. -/
inductive Progress.Leads : Progress → Progress → Prop
  | stays (p : Progress) : Leads p p
  | sent : Leads .pending .sent
  | failed {result : SendResult} (h : result ≠ .success) : Leads .pending (.failed result)
  | delivered : Leads .pending .delivered
  | deliveredLater : Leads .sent .delivered

namespace Progress.Leads

theorem trans {p q r : Progress} (h : p.Leads q) (h' : q.Leads r) : p.Leads r := by
  cases h with
  | stays => exact h'
  | sent =>
    cases h' with
    | stays => exact .sent
    | deliveredLater => exact .delivered
  | failed hne =>
    cases h' with
    | stays => exact .failed hne
  | delivered =>
    cases h' with
    | stays => exact .delivered
  | deliveredLater =>
    cases h' with
    | stays => exact .deliveredLater

theorem ofResult (result : SendResult) : Leads .pending (.ofResult result) := by
  unfold Progress.ofResult
  split
  · exact .sent
  · next h => exact .failed (by simpa [SendResult.isSuccess] using h)

theorem eq_pending {p : Progress} (h : p.Leads .pending) : p = .pending := by
  cases h
  rfl

theorem failed_iff {p q : Progress} (h : p.Leads q) (hp : p ≠ .pending) (code : SendResult) :
    q = .failed code ↔ p = .failed code := by
  cases h <;> simp_all

end Progress.Leads

namespace Tracker

/-- **The overall result** of some parts: the failure of the lowest failed part, or success. -/
inductive Overall (parts : List Progress) : SendResult → Prop
  | success (h : ∀ (i : Nat) (code : SendResult), parts[i]? ≠ some (.failed code)) :
    Overall parts .success
  | failure {i : Nat} {code : SendResult} (hi : parts[i]? = some (.failed code))
      (hlow : ∀ j < i, ∀ code', parts[j]? ≠ some (.failed code')) :
    Overall parts code

/-- The reported result of a counter. -/
def reportedResult? : Counter → Option SendResult
  | .aggregateReported result => some result
  | _ => none

/-- The results reported so far, oldest first. -/
def results (t : Tracker) : List SendResult :=
  t.counters.filterMap reportedResult?

/-- The results that an event reports. -/
def reports (t : Tracker) (e : Event) : List SendResult :=
  (t.handle e).results.drop t.results.length

/-- The results that the events about a message report, oldest first. -/
def reportsOn (t : Tracker) (m : MessageId) : List Event → List SendResult
  | [] => []
  | e :: es => (if e.message? = some m then t.reports e else []) ++ (t.handle e).reportsOn m es

namespace Context

variable {c d : Context}

/-- **How a context moves on**: each part goes its way, and the sent token stays until the
report. -/
structure Advances (c d : Context) : Prop where
  length_eq : d.parts.length = c.parts.length
  leads : ∀ (i : Nat) (p q : Progress),
    c.parts[i]? = some p → d.parts[i]? = some q → p.Leads q
  unreported : d.reported = false → c.reported = false ∧ d.sentToken = c.sentToken

theorem Advances.refl (c : Context) : c.Advances c := by
  refine ⟨rfl, fun i p q hp hq => ?_, fun hr => ⟨hr, rfl⟩⟩
  rw [hp] at hq
  obtain rfl := Option.some.inj hq
  exact .stays p

theorem Advances.exists_leads (h : c.Advances d) {i : Nat} {q : Progress}
    (hq : d.parts[i]? = some q) : ∃ p, c.parts[i]? = some p ∧ p.Leads q := by
  have hlt : i < c.parts.length := by
    rw [← h.length_eq]
    exact (List.getElem?_eq_some_iff.1 hq).1
  have hp := List.getElem?_eq_getElem hlt
  exact ⟨c.parts[i], hp, h.leads i _ q hp hq⟩

theorem Advances.trans {e : Context} (h : c.Advances d) (h' : d.Advances e) : c.Advances e := by
  refine ⟨h'.length_eq.trans h.length_eq, fun i p q hp hq => ?_, fun hr => ?_⟩
  · obtain ⟨p', hp', hlead⟩ := h'.exists_leads hq
    exact (h.leads i p p' hp hp').trans hlead
  · obtain ⟨hd, htok⟩ := h'.unreported hr
    obtain ⟨hc, htok'⟩ := h.unreported hd
    exact ⟨hc, htok.trans htok'⟩

theorem advances_takeAggregate (c : Context) : c.Advances c.takeAggregate.1 := by
  refine ⟨by rw [takeAggregate_parts], fun i p q hp hq => ?_, fun hr => ?_⟩
  · rw [takeAggregate_parts, hp] at hq
    obtain rfl := Option.some.inj hq
    exact .stays p
  · rcases takeAggregate_cases c with ⟨-, he⟩ | ⟨-, -, he⟩ <;> rw [he] at hr ⊢
    · exact ⟨hr, rfl⟩
    · cases hr

theorem advances_of_set {i : Nat} {p q : Progress} (hp : c.parts[i]? = some p) (h : p.Leads q)
    (hparts : d.parts = c.parts.set i q) (hrep : d.reported = c.reported)
    (htok : d.sentToken = c.sentToken) : c.Advances d := by
  refine ⟨by rw [hparts, List.length_set], fun j p' q' hp' hq' => ?_, fun hr => ⟨hrep ▸ hr, htok⟩⟩
  rw [hparts, List.getElem?_set] at hq'
  split at hq'
  · next hij =>
    subst hij
    split at hq'
    · rw [hp] at hp'
      obtain rfl := Option.some.inj hp'
      obtain rfl := Option.some.inj hq'
      exact h
    · cases hq'
  · rw [hp'] at hq'
    obtain rfl := Option.some.inj hq'
    exact .stays p'

theorem advances_signal (c : Context) (i : Nat) (s : Signal) : c.Advances (c.signal i s).1 := by
  rcases signal_cases c i s with h | ⟨result, -, hp, h⟩ | ⟨-, hp | hp, h⟩ <;> rw [h]
  · exact .refl c
  · exact advances_of_set hp (.ofResult result) rfl rfl rfl
  · exact advances_of_set hp .delivered rfl rfl rfl
  · exact advances_of_set hp .deliveredLater rfl rfl rfl

theorem advances_settle (c : Context) (indices : List Nat) (result : SendResult) :
    c.Advances (c.settle indices result) := by
  refine ⟨by simp [settle], fun i p q hp hq => ?_, fun hr => ⟨hr, rfl⟩⟩
  rw [settle_parts] at hq
  split at hq
  · next hpend =>
    rw [hp] at hpend
    obtain rfl := Option.some.inj hpend.1
    obtain rfl := Option.some.inj hq
    exact .ofResult result
  · rw [hp] at hq
    obtain rfl := Option.some.inj hq
    exact .stays p

theorem advances_after (c : Context) (e : Event) : c.Advances (c.after e) := by
  cases e with
  | register now r => exact .refl c
  | signal m i s => exact advances_signal c i s
  | settle m indices result => exact advances_settle c indices result
  | sweep now => exact .refl c

theorem reported_after (c : Context) (e : Event) : (c.after e).reported = c.reported := by
  cases e with
  | register now r => rfl
  | signal m i s => exact signal_reported c i s
  | settle m indices result => rfl
  | sweep now => rfl

theorem sentToken_after (c : Context) (e : Event) : (c.after e).sentToken = c.sentToken := by
  cases e with
  | register now r => rfl
  | signal m i s => exact signal_sentToken c i s
  | settle m indices result => rfl
  | sweep now => rfl

theorem Advances.pending (h : c.Advances d) (hd : .pending ∈ d.parts) : .pending ∈ c.parts := by
  obtain ⟨i, hi⟩ := List.mem_iff_getElem?.1 hd
  obtain ⟨p, hp, hlead⟩ := h.exists_leads hi
  obtain rfl := hlead.eq_pending
  exact List.mem_of_getElem? hp

theorem Advances.parts_ne_nil (h : c.Advances d) (hne : c.parts ≠ []) : d.parts ≠ [] := by
  intro hnil
  have hlen := h.length_eq
  rw [hnil] at hlen
  exact hne (List.length_eq_zero_iff.1 hlen.symm)

/-! ### The overall result -/

theorem overall_aggregate (c : Context) : Overall c.parts c.aggregate := by
  unfold aggregate
  cases hf : c.parts.findSome? _ with
  | none =>
    rw [List.findSome?_eq_none_iff] at hf
    refine .success fun i code hi => ?_
    have := hf _ (List.mem_of_getElem? hi)
    cases this
  | some code =>
    obtain ⟨before, p, after, hparts, hp, hbefore⟩ := List.findSome?_eq_some_iff.1 hf
    have hfailed : p = .failed code := by
      cases p with
      | failed result => exact congrArg Progress.failed (Option.some.inj hp)
      | _ => cases hp
    refine .failure (i := before.length) ?_ fun j hj code' hj' => ?_
    · rw [hparts, List.getElem?_append_right (Nat.le_refl _), Nat.sub_self, hfailed]
      rfl
    · rw [hparts, List.getElem?_append_left hj] at hj'
      have := hbefore _ (List.mem_of_getElem? hj')
      cases this

theorem overall_iff {result : SendResult} : Overall c.parts result ↔ result = c.aggregate := by
  constructor
  · intro h
    have hagg := overall_aggregate c
    generalize c.aggregate = a at hagg
    cases h with
    | success h =>
      cases hagg with
      | success => rfl
      | failure hi => exact absurd hi (h _ _)
    | @failure i _ hi hlow =>
      cases hagg with
      | success h => exact absurd hi (h _ _)
      | @failure j _ hj hlow' =>
        rcases Nat.lt_trichotomy i j with hij | rfl | hji
        · exact absurd hi (hlow' i hij _)
        · rw [hi] at hj
          exact Progress.failed.inj (Option.some.inj hj)
        · exact absurd hj (hlow j hji _)
  · rintro rfl
    exact overall_aggregate c

/-- **The overall result stays** once all parts have a send result. -/
theorem Advances.aggregate_eq (h : c.Advances d) (hc : .pending ∉ c.parts) :
    d.aggregate = c.aggregate := by
  have hfailed : ∀ (i : Nat) (code : SendResult),
      d.parts[i]? = some (.failed code) ↔ c.parts[i]? = some (.failed code) := by
    intro i code
    rcases Nat.lt_or_ge i c.parts.length with hlt | hge
    · have hi := List.getElem?_eq_getElem hlt
      have hi' := List.getElem?_eq_getElem (by rwa [h.length_eq] : i < d.parts.length)
      have hne : c.parts[i] ≠ .pending := fun hp => hc (by rw [← hp]; exact List.getElem_mem hlt)
      rw [hi, hi', Option.some.injEq, Option.some.injEq]
      exact (h.leads i _ _ hi hi').failed_iff hne code
    · have hge' : d.parts.length ≤ i := by rwa [h.length_eq]
      rw [List.getElem?_eq_none hge, List.getElem?_eq_none hge']
  refine overall_iff.1 ?_
  have hagg := overall_aggregate d
  generalize d.aggregate = a at hagg
  cases hagg with
  | success hno => exact .success fun i code hi => hno i code ((hfailed i code).2 hi)
  | failure hi hlow =>
    exact .failure ((hfailed _ _).1 hi)
      fun j hj code' hj' => hlow j hj code' ((hfailed j code').2 hj')

theorem takeAggregate_report (c : Context) :
    c.takeAggregate.2.toList =
      if c.reported = false ∧ .pending ∉ c.parts then [c.aggregate] else [] := by
  rcases takeAggregate_cases c with ⟨hr | hs, he⟩ | ⟨hr, hs, he⟩ <;> rw [he]
  · simp [hr]
  · have hp : .pending ∈ c.parts := by
      by_contra hp
      rw [allSettled_iff_not_mem.2 hp] at hs
      cases hs
    simp [hp]
  · simp [hr, allSettled_iff_not_mem.1 hs]

end Context

variable {t : Tracker} {m : MessageId} {c d : Context} {e : Event}

/-! ### Reports -/

theorem results_eq_tally (t : Tracker) : t.results = t.tally.filterMap reportedResult? := by
  unfold results tally
  rw [List.filterMap_filter]
  refine List.filterMap_congr fun k _ => ?_
  cases k <;> rfl

theorem reports_of_tally {rs : List SendResult} {e : Event}
    (h : (t.handle e).tally = t.tally ++ rs.map .aggregateReported) : t.reports e = rs := by
  have hrs : (rs.map Counter.aggregateReported).filterMap reportedResult? = rs := by
    rw [List.filterMap_map]
    exact List.filterMap_some
  unfold reports
  rw [results_eq_tally (t.handle e), results_eq_tally t, h, List.filterMap_append, List.drop_left,
    hrs]

theorem reports_sweep (t : Tracker) (now : Int) : t.reports (.sweep now) = [] := by
  have hnil : ∀ l : List (MessageId × Context),
      (l.map fun _ => Counter.trackingTimeout).filterMap reportedResult? = [] := by
    intro l
    rw [List.filterMap_map]
    exact List.filterMap_eq_nil_iff.2 fun _ _ => rfl
  unfold reports results
  show List.drop _ (List.filterMap _ (t.sweep now).2.counters) = []
  unfold sweep
  rw [List.filterMap_append, hnil, List.append_nil]
  exact List.drop_length

theorem reports_of_context?_none (hc : t.context? m = none) (he : e.message? = some m)
    (hreg : e.registration? = none) : t.reports e = [] := by
  have hstale : ∀ k, (t.count (.staleSignal k)).tally = t.tally ++ [].map .aggregateReported :=
    fun k => by simp [tally, count, Counter.isStale]
  refine reports_of_tally ?_
  cases e with
  | register now r => cases hreg
  | signal m' i s =>
    obtain rfl := Option.some.inj he
    show (t.signal m' i s).tally = _
    rw [signal_stale (by simp [hc])]
    exact hstale _
  | settle m' indices result =>
    obtain rfl := Option.some.inj he
    show (t.settle m' indices result).2.tally = _
    rw [settle_stale hc]
    exact hstale _
  | sweep now => cases he

theorem reportsOn_append (t : Tracker) (m : MessageId) (es fs : List Event) :
    t.reportsOn m (es ++ fs) = t.reportsOn m es ++ (t.run es).reportsOn m fs := by
  induction es generalizing t with
  | nil => rfl
  | cons e es ih =>
    rw [List.cons_append, reportsOn, reportsOn, ih, List.append_assoc]
    rfl

theorem reportsOn_concat (t : Tracker) (m : MessageId) (es : List Event) (e : Event) :
    t.reportsOn m (es ++ [e]) =
      t.reportsOn m es ++ if e.message? = some m then (t.run es).reports e else [] := by
  rw [reportsOn_append, reportsOn, reportsOn, List.append_nil]

/-! ### One event -/

/-- **What an event about its message does to a live context** and says of it. -/
structure Reporting (t : Tracker) (m : MessageId) (c : Context) (e : Event) : Prop where
  /-- The parts go their way. -/
  advances : c.Advances (c.after e)
  /-- A context that stays has the parts that the event left. -/
  parts : ∀ d, (t.handle e).context? m = some d → d.parts = (c.after e).parts
  /-- The send is reported if the event settled the last pending part, and not otherwise. -/
  reports : t.reports e =
    if .pending ∈ c.parts ∧ .pending ∉ (c.after e).parts then [(c.after e).aggregate] else []
  /-- With the report the sent token is fired. -/
  fired : .pending ∈ c.parts → .pending ∉ (c.after e).parts → ∀ τ, c.sentToken = some τ →
    (τ, .fired (c.after e).aggregate) ∈ t.ends e

/-- **What a sweep does to a context that is too old.** -/
structure Expiry (t : Tracker) (m : MessageId) (c : Context) (now : Int) : Prop where
  gone : (t.handle (.sweep now)).context? m = none
  /-- A send that was not reported is timed out, whatever its parts say. -/
  fired : .pending ∈ c.parts → ∀ τ, c.sentToken = some τ →
    (τ, .fired .timeout) ∈ t.ends (.sweep now)
  silent : t.reports (.sweep now) = []

theorem takeAggregate_of_handle (hs : t.AllSound) (hc : t.context? m = some c)
    (hne : c.parts ≠ []) (he : e.message? = some m) (hreg : e.registration? = none)
    (hd : (t.handle e).context? m = some d) : d = (c.after e).takeAggregate.1 := by
  obtain ⟨released, hctx, -, -⟩ := handle_concluded hs hc hne he hreg
  rw [hctx] at hd
  exact (Context.takeAggregate_eq_of_remains hd).1

theorem reporting_of_context? (hs : t.AllSound) (hc : t.context? m = some c) (hne : c.parts ≠ [])
    (he : e.message? = some m) (hreg : e.registration? = none) : Reporting t m c e := by
  obtain ⟨released, -, hout, htally⟩ := handle_concluded hs hc hne he hreg
  have hpend := (hs m c hc).reported_eq_false_iff hne
  refine ⟨Context.advances_after c e, fun d hd => ?_, ?_, fun hp hnp τ hτ => ?_⟩
  · rw [takeAggregate_of_handle hs hc hne he hreg hd, Context.takeAggregate_parts]
  · have hreports := reports_of_tally htally
    rw [hreports]
    show (c.after e).takeAggregate.2.toList = _
    rw [Context.takeAggregate_report, Context.reported_after]
    simp only [hpend]
  · have hends : t.ends e = ((c.after e).concluded released).ends := by
      have hall := outcomes_handle hs e
      rw [hout] at hall
      exact (List.append_cancel_left hall).symm
    have hreport : (c.after e).takeAggregate.2 = some (c.after e).aggregate := by
      have hlist := Context.takeAggregate_report (c.after e)
      rw [Context.reported_after, if_pos ⟨hpend.2 hp, hnp⟩] at hlist
      exact Option.toList_eq_singleton_iff.1 hlist
    rw [hends]
    refine List.mem_append_right _ (List.mem_append_left _ (List.mem_flatMap.2 ?_))
    refine ⟨(c.after e).aggregate, ?_, List.mem_map.2 ⟨τ, ?_, rfl⟩⟩
    · rw [hreport]
      exact Option.mem_toList.2 rfl
    · rw [Context.sentToken_after, hτ]
      exact Option.mem_toList.2 rfl

theorem live_of_ne {es : List Event} {m' : MessageId} (hc : (t.run es).context? m = some c)
    (he : e.message? = some m') (hne : e.message? ≠ some m) :
    (t.run (es ++ [e])).context? m = some c := by
  have hmm : m ≠ m' := fun h => hne (h ▸ he)
  rw [run_concat, (step_handle (t.run es) e).context?_of_ne he hmm, hc]

theorem expiry_of_isExpired (hs : t.AllSound) (hc : t.context? m = some c) (hne : c.parts ≠ [])
    {now : Int} (hold : t.isExpired now c = true) : Expiry t m c now := by
  refine ⟨?_, fun hp τ hτ => ?_, reports_sweep t now⟩
  · rw [handle, context?_sweep, hc, Option.filter_some, hold]
    rfl
  · have hrep := ((hs m c hc).reported_eq_false_iff hne).2 hp
    have hmem : (τ, .fired .timeout) ∈ c.timeOut := by
      unfold Context.timeOut
      rw [hrep, hτ]
      exact List.mem_append_left _ (List.mem_singleton_self _)
    have hends : t.ends (.sweep now) =
        (t.contexts.entries.filter fun e => t.isExpired now e.2).flatMap (·.2.timeOut) := by
      have hall := outcomes_handle hs (.sweep now)
      exact (List.append_cancel_left hall).symm
    rw [hends]
    refine List.mem_flatMap.2 ⟨(m, c), List.mem_filter.2 ⟨Registry.mem_of_get? hc, hold⟩, hmem⟩

/-! ### The course of a context -/

/-- What has become of the context of a message after some events: it lives, or an event about its
message or a sweep has retired it.  The context is as it was last, with the change that the event
that retired it made. -/
inductive Latest (t : Tracker) (m : MessageId) (es : List Event) : Context → Prop
  | live {d : Context} (hd : (t.run es).context? m = some d) : Latest t m es d
  | retired {pre post : List Event} {e : Event} {d : Context} (hes : es = pre ++ e :: post)
      (he : e.message? = some m) (hd : (t.run pre).context? m = some d)
      (hgone : ((t.run pre).handle e).context? m = none) : Latest t m es (d.after e)
  | swept {pre post : List Event} {now : Int} {d : Context} (hes : es = pre ++ .sweep now :: post)
      (hd : (t.run pre).context? m = some d) (hold : (t.run pre).isExpired now d = true) :
    Latest t m es d

/-- A context that is gone stays as it was last. -/
theorem Latest.concat {es : List Event} (h : Latest t m es d)
    (hgone : (t.run es).context? m = none) (e : Event) : Latest t m (es ++ [e]) d := by
  cases h with
  | live hd =>
    rw [hgone] at hd
    cases hd
  | @retired pre post e' d hes he hd hg =>
    have hes' : es ++ [e] = pre ++ e' :: (post ++ [e]) := by rw [hes]; simp
    exact .retired hes' he hd hg
  | @swept pre post now d hes hd hold =>
    have hes' : es ++ [e] = pre ++ .sweep now :: (post ++ [e]) := by rw [hes]; simp
    exact .swept hes' hd hold

theorem Latest.eq_of_live {es : List Event} {d' : Context} (h : Latest t m es d)
    (hes : ∀ r ∈ registrations es, r.message ≠ m) (hlive : (t.run es).context? m = some d') :
    d = d' := by
  -- once the context is gone, no event brings it back
  have hgone : ∀ {pre post : List Event} {e : Event}, es = pre ++ e :: post →
      ((t.run pre).handle e).context? m ≠ none := by
    intro pre post e he hnone
    rw [he, ← List.singleton_append, registrations_append, registrations_append] at hes
    have hnone' : (((t.run pre).handle e).run post).context? m = none :=
      context?_none_run (fun r hr =>
        hes r (List.mem_append_right _ (List.mem_append_right _ hr))) hnone
    rw [he, run_append, run_cons, hnone'] at hlive
    cases hlive
  cases h with
  | live hd =>
    rw [hlive] at hd
    exact (Option.some.inj hd).symm
  | retired hes he hd hg => exact absurd hg (hgone hes)
  | swept hes hd hold =>
    refine absurd ?_ (hgone hes)
    rw [handle, context?_sweep, hd, Option.filter_some, hold]
    rfl

theorem reports_trans {d' : Context} (h : c.Advances d) (h' : d.Advances d') :
    ((if .pending ∈ c.parts ∧ .pending ∉ d.parts then [d.aggregate] else []) ++
      if .pending ∈ d.parts ∧ .pending ∉ d'.parts then [d'.aggregate] else []) =
      if .pending ∈ c.parts ∧ .pending ∉ d'.parts then [d'.aggregate] else [] := by
  by_cases hd : .pending ∈ d.parts
  · simp [hd, h.pending hd]
  · have hd' : .pending ∉ d'.parts := fun hp => hd (h'.pending hp)
    simp [hd, hd', h'.aggregate_eq hd]

/-- An event that is not about a message leaves its context as it is, unless a sweep retires it. -/
theorem latest_concat_of_ne {es : List Event} (hd : (t.run es).context? m = some d)
    (he : e.message? ≠ some m) : Latest t m (es ++ [e]) d := by
  cases e with
  | sweep now =>
    by_cases hold : (t.run es).isExpired now d = true
    · exact .swept rfl hd hold
    · refine .live ?_
      rw [run_concat, handle, context?_sweep, hd, Option.filter_some]
      simp [hold]
  | register now r => exact .live (live_of_ne hd rfl he)
  | signal m' i s => exact .live (live_of_ne hd rfl he)
  | settle m' indices result => exact .live (live_of_ne hd rfl he)

theorem latest_concat_of_live {es : List Event} (hs : (t.run es).AllSound)
    (hd : (t.run es).context? m = some d) (hne : d.parts ≠ [])
    (hreg : e.message? = some m → e.registration? = none) :
    ∃ d', Latest t m (es ++ [e]) d' ∧ d.Advances d' ∧
      (if e.message? = some m then (t.run es).reports e else []) =
        if .pending ∈ d.parts ∧ .pending ∉ d'.parts then [d'.aggregate] else [] := by
  by_cases he : e.message? = some m
  · rw [if_pos he]
    have hstep := reporting_of_context? hs hd hne he (hreg he)
    cases hnext : ((t.run es).handle e).context? m with
    | none => exact ⟨d.after e, .retired rfl he hd hnext, hstep.advances, hstep.reports⟩
    | some d' =>
      have hlive : (t.run (es ++ [e])).context? m = some d' := by rw [run_concat, hnext]
      have hconcluded := takeAggregate_of_handle hs hd hne he (hreg he) hnext
      have hparts : d'.parts = (d.after e).parts := hstep.parts d' hnext
      have hagg : d'.aggregate = (d.after e).aggregate := by
        unfold Context.aggregate
        rw [hparts]
      refine ⟨d', .live hlive, ?_, by rw [hparts, hagg, hstep.reports]⟩
      rw [hconcluded]
      exact hstep.advances.trans (Context.advances_takeAggregate _)
  · exact ⟨d, latest_concat_of_ne hd he, .refl d, by simp [he]⟩

theorem registration?_eq_none (hes : ∀ r ∈ registrations [e], r.message ≠ m)
    (he : e.message? = some m) : e.registration? = none := by
  cases e with
  | register now r => exact absurd (Option.some.inj he) (hes r (List.mem_singleton_self r))
  | _ => rfl

theorem exists_latest_of_live (hs : t.AllSound) (hc : t.context? m = some c) (hne : c.parts ≠ [])
    {es : List Event} (hes : ∀ r ∈ registrations es, r.message ≠ m) :
    ∃ d, Latest t m es d ∧ c.Advances d ∧ t.reportsOn m es =
      if .pending ∈ c.parts ∧ .pending ∉ d.parts then [d.aggregate] else [] := by
  induction es using List.reverseRecOn with
  | nil => exact ⟨c, .live hc, .refl c, by simp [reportsOn]⟩
  | append_singleton es e ih =>
    rw [registrations_append] at hes
    have hprefix : ∀ r ∈ registrations es, r.message ≠ m :=
      fun r hr => hes r (List.mem_append_left _ hr)
    have hreg : e.message? = some m → e.registration? = none :=
      registration?_eq_none fun r hr => hes r (List.mem_append_right _ hr)
    obtain ⟨d, hlast, hadv, hrep⟩ := ih hprefix
    rw [reportsOn_concat, hrep]
    cases hlive : (t.run es).context? m with
    | none =>
      refine ⟨d, hlast.concat hlive e, hadv, ?_⟩
      by_cases he : e.message? = some m
      · rw [if_pos he, reports_of_context?_none hlive he (hreg he), List.append_nil]
      · rw [if_neg he, List.append_nil]
    | some d' =>
      obtain rfl := hlast.eq_of_live hprefix hlive
      obtain ⟨d', hlast', hadv', hrep'⟩ := latest_concat_of_live (allSound_run hs es) hlive
        (hadv.parts_ne_nil hne) hreg
      exact ⟨d', hlast', hadv.trans hadv', by rw [hrep', reports_trans hadv hadv']⟩

/-- **The course of a context**: what has become of a live context after some events, be they about
its message, about others, or sweeps. -/
structure Course (t : Tracker) (m : MessageId) (c : Context) (es : List Event) (d : Context) :
    Prop where
  latest : Latest t m es d
  /-- If there is still a context, it is this one. -/
  live : ∀ d', (t.run es).context? m = some d' → d' = d
  /-- Each part has gone its way, and none back. -/
  advances : c.Advances d
  /-- The send was reported if its last pending part got a result on the way, and not otherwise. -/
  reports : t.reportsOn m es =
    if .pending ∈ c.parts ∧ .pending ∉ d.parts then [d.aggregate] else []
  /-- What was or could have been reported before stays the overall result. -/
  kept : .pending ∉ c.parts → d.aggregate = c.aggregate

/-- **Every live context has its course** in any events that do not register its message again. -/
theorem course (hs : t.AllSound) (hc : t.context? m = some c) (hne : c.parts ≠ []) {es : List Event}
    (hes : ∀ r ∈ registrations es, r.message ≠ m) : ∃ d, Course t m c es d := by
  obtain ⟨d, hlast, hadv, hrep⟩ := exists_latest_of_live hs hc hne hes
  exact ⟨d, hlast, fun d' hd' => (hlast.eq_of_live hes hd').symm, hadv, hrep, hadv.aggregate_eq⟩

/-- **A whole send is reported once.**  After a registration with at least one part and any events
that do not register its message again, the parts have gone their way, and the events have reported
nothing if a part is pending and else one result, the overall result of the parts as they are (or as
they were when the context went).  As long as the context lives, it holds the last sent token until
the report; an event about it reports exactly if it settles the last pending part, and fires the
token with the overall result; a sweep that finds it too old before fires the token with a timeout
instead; and whatever comes then, its parts only move forward, past sweeps and past what happens to
other messages. -/
theorem whole_send_reported_once (timeout : Nat) (pre : List Event) (now : Int) {r : Registration}
    (hr : 0 < r.partCount) {post : List Event}
    (hpost : ∀ r' ∈ registrations post, r'.message ≠ r.message) :
    let t := (new timeout).run (pre ++ [.register now r])
    (∃ d, Course t r.message (r.opened now) post d ∧
      t.reportsOn r.message post = if .pending ∈ d.parts then [] else [d.aggregate]) ∧
    (∀ c, (t.run post).context? r.message = some c →
      (.pending ∈ c.parts → c.sentToken = r.sentTokens.getLast?) ∧
      (∀ e : Event, e.message? = some r.message → e.registration? = none →
        Reporting (t.run post) r.message c e) ∧
      (∀ later, (t.run post).isExpired later c = true → Expiry (t.run post) r.message c later) ∧
      ∀ more : List Event, (∀ r' ∈ registrations more, r'.message ≠ r.message) →
        ∃ d, Course (t.run post) r.message c more d) ∧
    ∀ (c : Context) (result : SendResult), Overall c.parts result ↔ result = c.aggregate := by
  intro t
  have hs : t.AllSound := sound_of_run timeout _
  have hs' : (t.run post).AllSound := allSound_run hs post
  have hopened : t.context? r.message = some (r.opened now) := by
    show Tracker.context? (Tracker.run _ _) _ = _
    rw [run_concat, handle, context?_register, if_pos rfl]
    rfl
  have hparts : (r.opened now).parts = List.replicate r.partCount .pending := rfl
  have hpending : .pending ∈ (r.opened now).parts := by
    rw [hparts]
    exact List.mem_replicate.2 ⟨by omega, rfl⟩
  have hne : (r.opened now).parts ≠ [] := List.ne_nil_of_mem hpending
  obtain ⟨d, hcourse⟩ := course hs hopened hne hpost
  refine ⟨⟨d, hcourse, ?_⟩, fun c hc => ?_, fun c result => Context.overall_iff⟩
  · rw [hcourse.reports]
    by_cases hd : .pending ∈ d.parts <;> simp [hd, hpending]
  · obtain rfl := hcourse.live c hc
    have hned := hcourse.advances.parts_ne_nil hne
    refine ⟨fun hp => ?_, fun e he hreg => reporting_of_context? hs' hc hned he hreg,
      fun later hold => expiry_of_isExpired hs' hc hned hold, fun more => course hs' hc hned⟩
    exact (hcourse.advances.unreported (((hs' _ _ hc).reported_eq_false_iff hned).2 hp)).2

/-- Three parts: the last fails, the first is delivered twice, and a settlement fails the second. -/
def failedOutOfOrder : List Event :=
  [.signal ⟨7⟩ 2 (.sent .radioOff), .signal ⟨7⟩ 0 .delivered, .signal ⟨7⟩ 0 .delivered,
    .settle ⟨7⟩ [0, 1, 9] .noService]

/-- The failure of the second part is reported, though that of the third came first. -/
theorem whole_send_reported_once_lowest :
    let t := (new 300).run ([] ++ [.register 0 ⟨⟨7⟩, 3, [⟨1⟩], []⟩])
    (∀ r' ∈ registrations failedOutOfOrder, r'.message ≠ ⟨7⟩) ∧
      ∃ d, Latest t ⟨7⟩ failedOutOfOrder d ∧ .pending ∉ d.parts ∧ Overall d.parts .noService ∧
        t.reportsOn ⟨7⟩ failedOutOfOrder = [.noService] := by
  intro t
  have hpost : ∀ r' ∈ registrations failedOutOfOrder, r'.message ≠ ⟨7⟩ := by decide
  have hreports : t.reportsOn ⟨7⟩ failedOutOfOrder = [.noService] := by decide
  obtain ⟨⟨d, hcourse, hrep⟩, -, hoverall⟩ :=
    whole_send_reported_once 300 [] 0 (r := ⟨⟨7⟩, 3, [⟨1⟩], []⟩) (by decide) hpost
  rw [hreports] at hrep
  refine ⟨hpost, d, hcourse.latest, ?_⟩
  split at hrep
  · cases hrep
  · next hd =>
    obtain ⟨hresult, -⟩ := List.cons.inj hrep
    exact ⟨hd, (hoverall d _).2 hresult, hreports⟩

end Tracker

end ShortMessage
