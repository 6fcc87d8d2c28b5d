import ShortMessage.Proofs.Tracker.WholeSend

/-!
# Signals that come again

A part that has heard a signal is deaf to others of the same kind: it keeps its first send result,
and it is delivered once.  So a signal that is delivered again leaves every context as it is, also
after its context has retired, and the rest of the run cannot tell the difference.

* `Progress.Ignores`, `Ignores`: parts that are deaf to a kind of signals, and stay so;
* `Matches`: trackers that differ in the order of their entries and ends and in some counters only,
  and go on so (`Matches.handle`);
* `Redelivered`: a run in which signals come again;
* `redelivery_ignored`: it does the same as the run without them.
-/

namespace ShortMessage

/-- A part is deaf to the signals of a kind. -/
def Progress.Ignores (p : Progress) : Signal → Prop
  | .sent _ => p ≠ .pending
  | .delivered => p ≠ .pending ∧ p ≠ .sent

theorem Progress.Ignores.of_leads {p q : Progress} {s : Signal} (h : p.Ignores s)
    (hlead : p.Leads q) : q.Ignores s := by
  cases s with
  | sent result =>
    rintro rfl
    exact h hlead.eq_pending
  | delivered =>
    cases hlead with
    | stays => exact h
    | sent => exact absurd rfl h.1
    | failed => exact absurd rfl h.1
    | delivered => exact absurd rfl h.1
    | deliveredLater => exact absurd rfl h.2

namespace Tracker

namespace Context

variable {c d : Context} {i : Nat} {s s' : Signal}

/-- The part at an index, if there is one, is deaf to the signals of a kind. -/
def Ignores (c : Context) (i : Nat) (s : Signal) : Prop :=
  ∀ p, c.parts[i]? = some p → p.Ignores s

theorem Ignores.of_advances (h : c.Ignores i s) (hadv : c.Advances d) : d.Ignores i s := by
  intro q hq
  obtain ⟨p, hp, hlead⟩ := hadv.exists_leads hq
  exact (h p hp).of_leads hlead

theorem signal_of_ignores (h : c.Ignores i s) : c.signal i s = (c, none) := by
  rcases signal_cases c i s with hs | ⟨result, rfl, hp, -⟩ | ⟨rfl, hp | hp, -⟩
  · exact hs
  · exact absurd rfl (h _ hp)
  · exact absurd rfl (h _ hp).1
  · exact absurd rfl (h _ hp).2

theorem ignores_signal (c : Context) (i : Nat) (hkind : staleKind s = staleKind s') :
    (c.signal i s).1.Ignores i s' := by
  intro p hp
  have hset : ∀ {q : Progress}, (c.parts.set i q)[i]? = some p → p = q := by
    intro q hq
    rw [List.getElem?_set_self'] at hq
    cases hold : c.parts[i]? <;> simp [hold] at hq
    exact hq.symm
  cases s with
  | sent result =>
    cases s' with
    | delivered => cases hkind
    | sent result' =>
      by_cases hpend : c.parts[i]? = some .pending
      · rw [signal, if_pos hpend] at hp
        rw [hset hp]
        exact ofResult_ne_pending result
      · rw [signal, if_neg hpend] at hp
        rintro rfl
        exact hpend hp
  | delivered =>
    cases s' with
    | sent result => cases hkind
    | delivered =>
      by_cases hopen : c.parts[i]? = some .pending ∨ c.parts[i]? = some .sent
      · rw [signal, if_pos hopen] at hp
        rw [hset hp]
        exact ⟨by decide, by decide⟩
      · rw [signal, if_neg hopen] at hp
        refine ⟨?_, ?_⟩
        · rintro rfl
          exact hopen (Or.inl hp)
        · rintro rfl
          exact hopen (Or.inr hp)

theorem snd_of_mem_timeOut {e : TokenEvent} (h : e ∈ c.timeOut) : e.2 = .fired .timeout := by
  unfold timeOut at h
  rcases List.mem_append.1 h with h | h
  · split at h
    · cases h
    · obtain ⟨τ, -, rfl⟩ := List.mem_map.1 h
      rfl
  · obtain ⟨τ, -, rfl⟩ := List.mem_map.1 h
    rfl

end Context

variable {t t' u v : Tracker} {m : MessageId} {i : Nat} {s s' : Signal} {e : Event}
  {es es₁ es₂ : List Event} {extra extra' : List Counter}

/-! ### Deaf parts -/

/-- A part of a message, if it is tracked, is deaf to the signals of a kind. -/
def Ignores (t : Tracker) (m : MessageId) (i : Nat) (s : Signal) : Prop :=
  ∀ c, t.context? m = some c → c.Ignores i s

theorem Step.exists_advances (h : Step t e t') (he : ∀ r, e.registration? = some r → r.message ≠ m)
    {d : Context} (hd : t'.context? m = some d) : ∃ c, t.context? m = some c ∧ c.Advances d := by
  have hconclude : ∀ {n c c' released}, t.context? n = some c → c.Advances c' →
      (t.conclude n c' released).context? m = some d →
        ∃ c, t.context? m = some c ∧ c.Advances d := by
    intro n c c' released hc hadv hd
    rw [context?_conclude] at hd
    split at hd
    · next hn =>
      obtain ⟨rfl, -⟩ := Context.takeAggregate_eq_of_remains hd
      exact ⟨c, hn ▸ hc, hadv.trans (Context.advances_takeAggregate _)⟩
    · exact ⟨d, hd, .refl d⟩
  cases h with
  | register now r =>
    rw [context?_register, if_neg (Ne.symm (he r rfl))] at hd
    exact ⟨d, hd, .refl d⟩
  | signal s hc hi => exact hconclude hc (Context.advances_signal _ _ s) hd
  | staleSignal s hc => exact ⟨d, hd, .refl d⟩
  | settle indices result hc => exact hconclude hc (Context.advances_settle _ indices result) hd
  | staleSettle indices result hc => exact ⟨d, hd, .refl d⟩
  | sweep now =>
    rw [context?_sweep, Option.filter_eq_some_iff] at hd
    exact ⟨d, hd.1, .refl d⟩

theorem Ignores.run (h : t.Ignores m i s) (hes : ∀ r ∈ registrations es, r.message ≠ m) :
    (t.run es).Ignores m i s := by
  induction es generalizing t with
  | nil => exact h
  | cons e es ih =>
    rw [registrations_cons] at hes
    refine ih (fun d hd => ?_) fun r hr => hes r (List.mem_append_right _ hr)
    obtain ⟨c, hc, hadv⟩ := (step_handle t e).exists_advances
      (fun r hr => hes r (List.mem_append_left _ (Option.mem_toList.2 hr))) hd
    exact (h c hc).of_advances hadv

theorem ignores_handle_signal (t : Tracker) (m : MessageId) (i : Nat)
    (hkind : staleKind s = staleKind s') : (t.handle (.signal m i s)).Ignores m i s' := by
  intro d hd
  have hstep := step_handle t (.signal m i s)
  generalize t.handle (.signal m i s) = t' at hd hstep
  cases hstep with
  | signal s hc hi =>
    rw [context?_conclude, if_pos rfl] at hd
    obtain ⟨rfl, -⟩ := Context.takeAggregate_eq_of_remains hd
    exact (Context.ignores_signal _ i hkind).of_advances (Context.advances_takeAggregate _)
  | staleSignal s hc =>
    intro p hp
    have hle := hc d hd
    rw [List.getElem?_eq_none hle] at hp
    cases hp

/-- A signal of the same kind about the same part came before, and its message has not been
registered since. -/
def Repeats (es : List Event) (s : PartSignal) : Prop :=
  ∃ before first mid, es = before ++ .signal s.message s.index first :: mid ∧
    staleKind first = staleKind s.signal ∧ ∀ r ∈ registrations mid, r.message ≠ s.message

theorem Repeats.ignores {s : PartSignal} (h : Repeats es s) (t : Tracker) :
    (t.run es).Ignores s.message s.index s.signal := by
  obtain ⟨before, first, mid, rfl, hkind, hmid⟩ := h
  rw [run_append, run_cons]
  exact (ignores_handle_signal _ _ _ hkind).run hmid

/-! ### Trackers that match -/

/-- **Trackers that match**: the same contexts, and the same ends of each token; the counters are
the same in some order, with `extra` ones beside them. -/
structure Matches (extra : List Counter) (t u : Tracker) : Prop where
  timeout : u.timeout = t.timeout
  context? : ∀ id, u.context? id = t.context? id
  fates : ∀ τ, u.fates τ = t.fates τ
  counters : u.counters.Perm (t.counters ++ extra)

theorem Matches.refl (t : Tracker) : Matches [] t t :=
  ⟨rfl, fun _ => rfl, fun _ => rfl, by rw [List.append_nil]⟩

theorem Matches.trans (h : Matches extra t u) (h' : Matches extra' u v) :
    Matches (extra ++ extra') t v := by
  refine ⟨h'.timeout.trans h.timeout, fun id => (h'.context? id).trans (h.context? id),
    fun τ => (h'.fates τ).trans (h.fates τ), h'.counters.trans ?_⟩
  rw [← List.append_assoc]
  exact h.counters.append_right _

theorem perm_append_extra {l l' : List Counter} (h : l'.Perm (l ++ extra)) (new : List Counter) :
    (l' ++ new).Perm (l ++ new ++ extra) := by
  refine (h.append_right new).trans ?_
  rw [List.append_assoc, List.append_assoc]
  exact List.perm_append_comm.append_left l

theorem fates_of_outcomes_append {ends : List TokenEvent} (h : t'.outcomes = t.outcomes ++ ends)
    (τ : Token) : t'.fates τ = t.fates τ ++ (ends.filter (·.1 = τ)).map Prod.snd := by
  unfold fates
  rw [h, List.filter_append, List.map_append]

theorem Matches.conclude (h : Matches extra t u) (m : MessageId) (c : Context)
    (released : Option Token) :
    Matches extra (t.conclude m c released) (u.conclude m c released) := by
  refine ⟨?_, fun id => ?_, fun τ => ?_, ?_⟩
  · rw [conclude_eq, conclude_eq]
    exact h.timeout
  · rw [context?_conclude, context?_conclude, h.context?]
  · rw [fates_of_outcomes_append (outcomes_conclude u m c released),
      fates_of_outcomes_append (outcomes_conclude t m c released), h.fates]
  · rw [counters_conclude, counters_conclude]
    exact perm_append_extra h.counters _

theorem Matches.count (h : Matches extra t u) (k : Counter) :
    Matches extra (t.count k) (u.count k) :=
  ⟨h.timeout, h.context?, h.fates, perm_append_extra h.counters [k]⟩

theorem Matches.register (h : Matches extra t u) (now : Int) (r : Registration) :
    Matches extra (t.handle (.register now r)) (u.handle (.register now r)) := by
  refine ⟨h.timeout, fun id => ?_, fun τ => ?_, h.counters⟩
  · show (u.register ..).context? id = (t.register ..).context? id
    rw [context?_register, context?_register, h.context?]
  · have hends : ∀ t : Tracker, (t.handle (.register now r)).outcomes = t.outcomes ++
        (r.surplus ++ ((t.context? r.message).map Context.held).getD []).map Token.close :=
      fun _ => rfl
    rw [fates_of_outcomes_append (hends u), fates_of_outcomes_append (hends t), h.context?, h.fates]

/-- Sweeps go through the contexts in any order: all that they do to a token is a timeout. -/
theorem Matches.sweep (h : Matches extra t u) (now : Int) :
    Matches extra (t.sweep now).2 (u.sweep now).2 := by
  have hexpired : ∀ c, u.isExpired now c = t.isExpired now c := by
    intro c
    unfold isExpired
    rw [h.timeout]
  have hentries : (u.contexts.entries.filter fun e => u.isExpired now e.2).Perm
      (t.contexts.entries.filter fun e => t.isExpired now e.2) := by
    simp only [hexpired]
    exact (Registry.entries_perm_of_get?_eq h.context?).filter _
  refine ⟨h.timeout, fun id => ?_, fun τ => ?_, ?_⟩
  · rw [context?_sweep, context?_sweep, h.context?]
    simp only [hexpired]
  · have hends : ∀ t : Tracker, (t.sweep now).2.outcomes = t.outcomes ++
        (t.contexts.entries.filter fun e => t.isExpired now e.2).flatMap (·.2.timeOut) :=
      fun _ => rfl
    rw [fates_of_outcomes_append (hends u), fates_of_outcomes_append (hends t), h.fates]
    congr 1
    have hperm := ((hentries.flatMap_right fun e => e.2.timeOut).filter (·.1 = τ)).map Prod.snd
    -- two lists of timeouts that are permutations of each other are the same
    have htimeouts : ∀ o ∈ (((t.contexts.entries.filter fun e => t.isExpired now e.2).flatMap
        (·.2.timeOut)).filter (·.1 = τ)).map Prod.snd, o = .fired .timeout := by
      intro o ho
      obtain ⟨e, he, rfl⟩ := List.mem_map.1 ho
      obtain ⟨entry, -, hmem⟩ := List.mem_flatMap.1 (List.mem_filter.1 he).1
      exact Context.snd_of_mem_timeOut hmem
    rw [List.eq_replicate_of_mem htimeouts] at hperm ⊢
    exact List.perm_replicate.1 hperm
  · have hcount : ((u.contexts.entries.filter fun e => u.isExpired now e.2).map
        fun _ => Counter.trackingTimeout).Perm
        ((t.contexts.entries.filter fun e => t.isExpired now e.2).map
          fun _ => Counter.trackingTimeout) := hentries.map _
    exact (hcount.append_left u.counters).trans (perm_append_extra h.counters _)

/-- **One event**: trackers that match go on to match. -/
theorem Matches.handle (h : Matches extra t u) (e : Event) :
    Matches extra (t.handle e) (u.handle e) := by
  have hstep := step_handle t e
  generalize ht : t.handle e = t' at hstep
  cases hstep with
  | register now r =>
    rw [← ht]
    exact h.register now r
  | @signal m c i s hc hi =>
    have hu : u.handle (.signal m i s) = u.conclude m (c.signal i s).1 (c.signal i s).2 :=
      signal_eq ((h.context? m).trans hc) hi s
    rw [hu]
    exact h.conclude _ _ _
  | @staleSignal m i s hc =>
    have hu : u.handle (.signal m i s) = u.count (.staleSignal (staleKind s)) :=
      signal_stale (fun c hc' => hc c ((h.context? m) ▸ hc')) s
    rw [hu]
    exact h.count _
  | @settle m c indices result hc =>
    have hu : u.handle (.settle m indices result) = u.conclude m (c.settle indices result) none :=
      settle_eq ((h.context? m).trans hc) indices result
    rw [hu]
    exact h.conclude _ _ _
  | @staleSettle m indices result hc =>
    have hu : u.handle (.settle m indices result) = u.count (.staleSignal .settle) :=
      settle_stale ((h.context? m).trans hc) indices result
    rw [hu]
    exact h.count _
  | sweep now => exact h.sweep now

theorem Matches.run (h : Matches extra t u) (es : List Event) :
    Matches extra (t.run es) (u.run es) := by
  induction es generalizing t u with
  | nil => exact h
  | cons e es ih => exact ih (h.handle e)

/-! ### Runs in which signals come again -/

/-- **A signal that its part is deaf to** changes nothing, but for a counter if it is stale. -/
theorem matches_signal (hs : t.AllSound) (h : t.Ignores m i s) :
    ∃ extra : List Counter, extra.Sublist [.staleSignal (staleKind s)] ∧
      Matches extra t (t.handle (.signal m i s)) := by
  have hstep := step_handle t (.signal m i s)
  generalize t.handle (.signal m i s) = t' at hstep
  cases hstep with
  | @signal m c i s hc hi =>
    refine ⟨[], List.nil_sublist _, ?_⟩
    rw [Context.signal_of_ignores (h c hc)]
    have hne : c.parts ≠ [] := fun hnil => by
      rw [hnil] at hi
      exact Nat.not_lt_zero _ hi
    obtain ⟨hremains, hends, hreports⟩ := Context.Effect.mk.inj ((hs m c hc).concluded_nil hne)
    have hends : c.conclusion = [] := hends
    refine ⟨?_, fun id => ?_, fun τ => ?_, ?_⟩
    · rw [conclude_eq]
    · rw [context?_conclude, hremains]
      split
      · next hid => rw [hid, hc]
      · rfl
    · rw [fates_of_outcomes_append (outcomes_conclude t m c none), hends]
      exact List.append_nil _
    · rw [counters_conclude, hreports]
      exact .refl _
  | staleSignal s hc =>
    exact ⟨[.staleSignal (staleKind s)], .refl _, rfl, fun _ => rfl, fun _ => rfl, .refl _⟩

/-- **A run in which signals come again**: each of `dups` is put in somewhere after a signal that it
repeats. -/
inductive Redelivered (es : List Event) : List PartSignal → List Event → Prop
  | once : Redelivered es [] es
  | again {dups : List PartSignal} {es₁ es₂ : List Event} {s : PartSignal}
      (h : Redelivered es dups (es₁ ++ es₂)) (hs : Repeats es₁ s) :
    Redelivered es (dups ++ [s]) (es₁ ++ s.event :: es₂)

/-- **Signals that come again are ignored.**  A run in which signals come again, anywhere and as
often as they like, leaves the same contexts and the same ends of every token as the run without
them; it has counted the same, and some of the signals as stale beside. -/
theorem redelivery_ignored (timeout : Nat) {es es' : List Event} {dups : List PartSignal}
    (h : Redelivered es dups es') :
    let t := (new timeout).run es
    let u := (new timeout).run es'
    (∀ id, u.context? id = t.context? id) ∧ (∀ τ, u.fates τ = t.fates τ) ∧
    ∃ late : List PartSignal, late.Sublist dups ∧
      u.counters.Perm (t.counters ++ late.map fun s => .staleSignal (staleKind s.signal)) := by
  suffices hmatch : ∃ late : List PartSignal, late.Sublist dups ∧
      Matches (late.map fun s => .staleSignal (staleKind s.signal)) ((new timeout).run es)
        ((new timeout).run es') by
    obtain ⟨late, hlate, hm⟩ := hmatch
    exact ⟨hm.context?, hm.fates, late, hlate, hm.counters⟩
  induction h with
  | once => exact ⟨[], .refl _, .refl _⟩
  | @again dups es₁ es₂ s h hs ih =>
    obtain ⟨late, hlate, hm⟩ := ih
    obtain ⟨extra, hextra, hsignal⟩ :=
      matches_signal (sound_of_run timeout es₁) (hs.ignores (new timeout))
    have hrest := hsignal.run es₂
    rw [← run_append, ← run_cons, ← run_append] at hrest
    rcases List.sublist_singleton.1 hextra with rfl | rfl
    · have hsame := hm.trans hrest
      rw [List.append_nil] at hsame
      exact ⟨late, hlate.trans (List.sublist_append_left _ _), hsame⟩
    · refine ⟨late ++ [s], hlate.append (.refl _), ?_⟩
      rw [List.map_append]
      exact hm.trans hrest

/-- A message of two parts that are sent, and then delivered. -/
def deliveredTwoParts : List Event :=
  [.register 0 ⟨⟨7⟩, 2, [⟨1⟩], [⟨2⟩, ⟨3⟩]⟩, .signal ⟨7⟩ 0 (.sent .success),
    .signal ⟨7⟩ 1 (.sent .radioOff), .signal ⟨7⟩ 0 .delivered]

/-- A failure that contradicts the first part's success comes in between, and its delivery once more
when the context has retired. -/
theorem redelivery_ignored_late :
    let again : List PartSignal := [⟨⟨7⟩, 0, .sent .noService⟩, ⟨⟨7⟩, 0, .delivered⟩]
    let es' : List Event :=
      [.register 0 ⟨⟨7⟩, 2, [⟨1⟩], [⟨2⟩, ⟨3⟩]⟩, .signal ⟨7⟩ 0 (.sent .success),
        .signal ⟨7⟩ 0 (.sent .noService), .signal ⟨7⟩ 1 (.sent .radioOff), .signal ⟨7⟩ 0 .delivered,
        .signal ⟨7⟩ 0 .delivered]
    Redelivered deliveredTwoParts again es' ∧
      ((new 300).run es').fates ⟨1⟩ = [.fired .radioOff] := by
  intro again es'
  have h : Redelivered deliveredTwoParts again es' := by
    have hsent : Repeats (deliveredTwoParts.take 2) ⟨⟨7⟩, 0, .sent .noService⟩ :=
      ⟨deliveredTwoParts.take 1, .sent .success, [], rfl, rfl, by decide⟩
    have hdelivered : Repeats (es'.take 5) ⟨⟨7⟩, 0, .delivered⟩ :=
      ⟨es'.take 4, .delivered, [], rfl, rfl, by decide⟩
    exact @Redelivered.again _ _ (es'.take 5) [] _
      (@Redelivered.again _ [] (deliveredTwoParts.take 2) (deliveredTwoParts.drop 2) _ .once hsent)
      hdelivered
  refine ⟨h, ?_⟩
  rw [(redelivery_ignored 300 h).2.1]
  decide

end Tracker

end ShortMessage
