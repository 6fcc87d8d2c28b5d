import ShortMessage.Proofs.Fallback.Run

/-!
# What becomes of a registration

A registration lives until a sweep finds its message untracked.  As long as no report of its kind
has come, its content is the registered one without the parts that have been detached; the first
such report that finds it waiting decides, and nothing is decided after that.

* `decisionsOn`, `detached`: what a run decides about a reference, and what it detaches from it;
* `Stands`: how a registration stands after some events, kept by each event (`Stands.concat`);
* `Life`: the whole life of a registration;
* `registration_decides_once`: the life of every registration of a run, and what holds of all
  entries at any time.
-/

namespace ShortMessage

namespace Content

theorem without_nil (c : Content) : c.without [] = c := by
  cases c with
  | sms destination serviceCentre parts => simp [without]
  | mms pdu locationUrl => rfl

theorem without_without (c : Content) (gone gone' : List Nat) :
    (c.without gone).without gone' = c.without (gone ++ gone') := by
  cases c with
  | sms destination serviceCentre parts =>
    simp only [without, List.filter_filter, List.mem_append, not_or, Bool.decide_and, Bool.and_comm]
  | mms pdu locationUrl => rfl

end Content

namespace Fallback

/-- What a report makes of an entry that waits for it. -/
def Decision.of (success : Bool) (e : Entry) : Decision :=
  if success then .succeeded { e with phase := .succeeded }
  else .resend { e with phase := .awaitingResend }

/-- What an event decides about a reference; a report that is ignored decides nothing. -/
def decisionOn (f : Fallback) (r : MessageRef) : Event → Option Decision
  | .report kind ref success =>
    if ref = r ∧ (f.report kind r success).1 ≠ .ignored then some (f.report kind r success).1
    else none
  | _ => none

/-- What a run decides about a reference. -/
def decisionsOn (f : Fallback) (r : MessageRef) : List Event → List Decision
  | [] => []
  | ev :: es => (f.decisionOn r ev).toList ++ (f.handle ev).decisionsOn r es

/-- The parts that an event detaches from a reference. -/
def Event.detached (r : MessageRef) : Event → List Nat
  | .detach ref gone => if ref = r then gone else []
  | _ => []

/-- The parts that a run detaches from a reference. -/
def detached (r : MessageRef) (es : List Event) : List Nat :=
  es.flatMap (Event.detached r)

/-- Every sweep of a run finds the message tracked. -/
def Tracked (m : MessageId) (es : List Event) : Prop :=
  ∀ isTracked, .retire isTracked ∈ es → isTracked m = true

variable {f : Fallback} {r : MessageRef} {e : Entry} {m : MessageId} {c : Content} {ev : Event}
  {es : List Event}

/-! ### Decisions -/

theorem report_eq_of (he : f.entry? r = some e) (hp : e.phase = .awaitingReport) (success : Bool) :
    (f.report e.content.kind r success).1 = .of success e := by
  rw [report_of_awaiting he hp]
  cases success <;> rfl

theorem report_ignored {kind : Kind}
    (h : ∀ e, f.entry? r = some e → e.content.kind = kind → e.phase ≠ .awaitingReport)
    (success : Bool) :
    (f.report kind r success).1 = .ignored ∧ (f.report kind r success).2.entries = f.entries := by
  rw [report_of_not_awaiting h]
  exact ⟨rfl, rfl⟩

theorem decisionOn_eq_none (he : f.entry? r = some e)
    (h : e.phase = .awaitingReport → ∀ success, ev ≠ .report e.content.kind r success) :
    f.decisionOn r ev = none := by
  cases ev with
  | report kind ref success =>
    refine if_neg ?_
    rintro ⟨rfl, hdecided⟩
    refine hdecided (report_ignored (fun e' he' hk hp => ?_) success).1
    rw [he] at he'
    obtain rfl := Option.some.inj he'
    exact h hp success (by rw [hk])
  | register m c => rfl
  | markResent ref => rfl
  | detach ref gone => rfl
  | retire isTracked => rfl

theorem decisionsOn_concat (f : Fallback) (r : MessageRef) (es : List Event) (ev : Event) :
    f.decisionsOn r (es ++ [ev]) = f.decisionsOn r es ++ ((f.run es).decisionOn r ev).toList := by
  induction es generalizing f with
  | nil => exact List.append_nil _
  | cons ev' es ih =>
    rw [List.cons_append]
    unfold decisionsOn
    rw [ih, run_cons, List.append_assoc]

theorem detached_concat (r : MessageRef) (es : List Event) (ev : Event) :
    detached r (es ++ [ev]) = detached r es ++ ev.detached r := by
  unfold detached
  rw [List.flatMap_append, List.flatMap_singleton]

theorem Event.detached_eq_nil (h : ∀ gone, ev ≠ .detach r gone) : ev.detached r = [] := by
  cases ev with
  | detach ref gone => exact if_neg fun heq => h gone (by rw [heq])
  | register m c => rfl
  | report kind ref success => rfl
  | markResent ref => rfl
  | retire isTracked => rfl

/-! ### How a registration stands -/

/-- The registration of `m` with the content `c` that gave the reference `r` and the registry `f`
**stands as the entry** `e` after the events of `es`. -/
structure Stands (f : Fallback) (r : MessageRef) (m : MessageId) (c : Content) (es : List Event)
    (e : Entry) : Prop where
  entry : entry? (f.run es) r = some e
  ref : e.ref = r
  message : e.message = m
  kind : e.content.kind = c.kind
  waiting : e.phase = .awaitingReport →
    e.content = c.without (detached r es) ∧
    e.content.indices = c.indices.filter (· ∉ detached r es) ∧
    (∀ success, .report c.kind r success ∉ es) ∧ f.decisionsOn r es = []
  once : (f.decisionsOn r es).length ≤ 1

theorem stands_of_entry (he : f.entry? r = some ⟨r, m, c, .awaitingReport⟩) :
    Stands f r m c [] ⟨r, m, c, .awaitingReport⟩ where
  entry := he
  ref := rfl
  message := rfl
  kind := rfl
  waiting := by
    intro _
    refine ⟨c.without_nil.symm, ?_, fun _ hmem => (nomatch hmem), rfl⟩
    simp [detached]
  once := Nat.zero_le _

/-- An event that leaves the entry as it is decides nothing about it and detaches nothing. -/
theorem Stands.stays (h : Stands f r m c es e)
    (hentry : entry? (f.run (es ++ [ev])) r = some e)
    (hreport : e.phase = .awaitingReport → ∀ success, ev ≠ .report e.content.kind r success)
    (hdetach : e.phase = .awaitingReport → ∀ gone, ev ≠ .detach r gone) :
    Stands f r m c (es ++ [ev]) e := by
  have hnone := decisionOn_eq_none h.entry hreport
  refine ⟨hentry, h.ref, h.message, h.kind, fun hp => ?_, ?_⟩
  · obtain ⟨hcontent, hindices, hno, hnil⟩ := h.waiting hp
    rw [detached_concat, Event.detached_eq_nil (hdetach hp), List.append_nil, decisionsOn_concat,
      hnone, hnil]
    refine ⟨hcontent, hindices, fun success hmem => ?_, rfl⟩
    rcases List.mem_append.1 hmem with hmem | hmem
    · exact hno success hmem
    · exact hreport hp success (by rw [h.kind]; exact (List.mem_singleton.1 hmem).symm)
  · rw [decisionsOn_concat, hnone, Option.toList_none, List.append_nil]
    exact h.once

theorem Stands.detach {gone : List Nat} (h : Stands f r m c es e) (hp : e.phase = .awaitingReport)
    (hentry : entry? (f.run (es ++ [.detach r gone])) r = some
      { e with
          content := e.content.without gone
          phase := if e.content.exhaustedBy gone then .concluded else .awaitingReport }) :
    Stands f r m c (es ++ [.detach r gone])
      { e with
          content := e.content.without gone
          phase := if e.content.exhaustedBy gone then .concluded else .awaitingReport } := by
  obtain ⟨hcontent, hindices, hno, hnil⟩ := h.waiting hp
  have hdecisions : f.decisionsOn r (es ++ [.detach r gone]) = [] := by
    rw [decisionsOn_concat, hnil]
    rfl
  have hgone : detached r (es ++ [.detach r gone]) = detached r es ++ gone := by
    rw [detached_concat]
    congr 1
    exact if_pos rfl
  refine ⟨hentry, h.ref, h.message, (e.content.kind_without gone).trans h.kind, fun hp' => ?_,
    by simp [hdecisions]⟩
  have hsome : e.content.exhaustedBy gone = false := by
    cases hex : e.content.exhaustedBy gone with
    | false => rfl
    | true =>
      simp only [hex] at hp'
      cases hp'
  refine ⟨?_, ?_, fun success hmem => ?_, hdecisions⟩
  · rw [hgone, hcontent, Content.without_without]
  · rw [hgone, Content.indices_without hsome, hindices, List.filter_filter]
    refine List.filter_congr fun i _ => ?_
    simp only [List.mem_append, not_or, Bool.decide_and, Bool.and_comm]
  · rcases List.mem_append.1 hmem with hmem | hmem
    · exact hno success hmem
    · cases List.mem_singleton.1 hmem

/-- **One event**: a registration that is not retired stands as what the event makes of its
entry. -/
theorem Stands.concat (h : Stands f r m c es e) (hf : f.Numbered)
    (hadm : f.Admissible (es ++ [ev])) (htr : Tracked m [ev]) :
    ∃ e', Stands f r m c (es ++ [ev]) e' := by
  have hlive := h.entry
  have hentry : entry? (f.run (es ++ [ev])) r = e.after ev := by
    rw [run_concat, entry?_handle (hf.run es), hlive]
    · rfl
    · rintro m' c' rfl rfl
      rw [hadm.entry?_nextFree hf] at hlive
      cases hlive
  obtain rfl := h.ref
  have hmoves := e.moves_after ev
  generalize e.after ev = o at hmoves hentry
  cases hmoves with
  | stays hreport hdetach => exact ⟨e, h.stays hentry hreport hdetach⟩
  | decided success hp =>
    refine ⟨_, hentry, rfl, h.message, h.kind, fun hp' => ?_, ?_⟩
    · cases success <;> cases hp'
    · rw [decisionsOn_concat, (h.waiting hp).2.2.2, List.nil_append]
      exact Option.length_toList_le
  | resent hp =>
    refine ⟨_, hentry, rfl, h.message, h.kind, fun hp' => (nomatch hp'), ?_⟩
    rw [decisionsOn_concat]
    simpa [decisionOn] using h.once
  | detached gone hp => exact ⟨_, h.detach hp hentry⟩
  | @retired isTracked hgone =>
    rw [h.message, htr isTracked List.mem_cons_self] at hgone
    cases hgone

theorem Tracked.of_append {es fs : List Event} (h : Tracked m (es ++ fs)) :
    Tracked m es ∧ Tracked m fs :=
  ⟨fun t ht => h t (List.mem_append_left _ ht), fun t ht => h t (List.mem_append_right _ ht)⟩

/-- **A whole run**: a registration stands until it is retired. -/
theorem exists_stands (hf : f.Numbered) (he : f.entry? r = some ⟨r, m, c, .awaitingReport⟩)
    (hadm : f.Admissible es) (htr : Tracked m es) : ∃ e, Stands f r m c es e := by
  induction es using List.reverseRecOn with
  | nil => exact ⟨_, stands_of_entry he⟩
  | append_singleton es ev ih =>
    obtain ⟨e, h⟩ := ih hadm.of_append htr.of_append.1
    exact h.concat hf hadm htr.of_append.2

/-! ### The life of a registration -/

/-- **The life of a registration** of `m` with the content `c` that gave the reference `r` and the
registry `f`, up to the end of a run that does not retire it. -/
structure Life (f : Fallback) (r : MessageRef) (m : MessageId) (c : Content) (es : List Event) :
    Prop where
  /-- Its entry is there. -/
  present : ∃ e, entry? (f.run es) r = some e ∧ e.message = m ∧ e.content.kind = c.kind
  /-- Only a sweep that finds the message untracked takes it out. -/
  ended : ∀ isTracked, isTracked m = false →
    entry? ((f.run es).handle (.retire isTracked)) r = none
  once : (f.decisionsOn r es).length ≤ 1
  /-- A report of its kind that finds it waiting is the first of its kind and decides, with what the
  detaches so far have left of the content. -/
  decides : ∀ before success after, es = before ++ .report c.kind r success :: after →
    (f.run before).phase? r = some .awaitingReport →
      (∀ success', .report c.kind r success' ∉ before) ∧
      ((f.run before).report c.kind r success).1 =
        .of success ⟨r, m, c.without (detached r before), .awaitingReport⟩ ∧
      (c.without (detached r before)).indices = c.indices.filter (· ∉ detached r before)
  /-- All other reports are ignored. -/
  ignores : ∀ before kind success after, es = before ++ .report kind r success :: after →
    (kind = c.kind → (f.run before).phase? r ≠ some .awaitingReport) →
      ((f.run before).report kind r success).1 = .ignored

theorem life_of_entry (hf : f.Numbered) (he : f.entry? r = some ⟨r, m, c, .awaitingReport⟩)
    (hadm : f.Admissible es) (htr : Tracked m es) : Life f r m c es := by
  obtain ⟨e, h⟩ := exists_stands hf he hadm htr
  refine ⟨⟨e, h.entry, h.message, h.kind⟩, fun isTracked hgone => ?_, h.once, ?_, ?_⟩
  · show Fallback.entry? ((f.run es).retire isTracked).2 r = none
    rw [entry?_retire, h.entry, Option.filter_some, h.message, hgone]
    rfl
  · rintro before success after rfl hphase
    obtain ⟨e', h'⟩ := exists_stands hf he hadm.of_append htr.of_append.1
    have hp : e'.phase = .awaitingReport := by
      unfold phase? at hphase
      rw [h'.entry] at hphase
      exact Option.some.inj hphase
    obtain ⟨hcontent, hindices, hno, -⟩ := h'.waiting hp
    refine ⟨hno, ?_, hcontent ▸ hindices⟩
    have hreport := report_eq_of h'.entry hp success
    rw [h'.kind] at hreport
    obtain ⟨ref, message, content, phase⟩ := e'
    obtain rfl : ref = r := h'.ref
    obtain rfl : message = m := h'.message
    rw [hreport, ← show content = c.without (detached ref before) from hcontent]
    cases success <;> rfl
  · rintro before kind success after rfl hother
    obtain ⟨e', h'⟩ := exists_stands hf he hadm.of_append htr.of_append.1
    refine (report_ignored (fun e'' he'' hk hp => ?_) success).1
    obtain rfl : e' = e'' := Option.some.inj (h'.entry.symm.trans he'')
    refine hother (hk.symm.trans h'.kind) ?_
    unfold phase?
    rw [h'.entry, Option.map_some, hp]

/-! ### All entries at any time -/

theorem phase?_handle (hf : f.Numbered) (ev : Event)
    (h : ∀ r, f.phase? r ∈ [none, some .awaitingReport, some .awaitingResend, some .concluded])
    (r : MessageRef) :
    (f.handle ev).phase? r ∈
      [none, some .awaitingReport, some .awaitingResend, some .concluded] := by
  by_cases hnew : ∃ m c, ev = .register m c ∧ r = f.nextFree
  · obtain ⟨m, c, rfl, rfl⟩ := hnew
    have hself : ((f.handle (.register m c)).phase? f.nextFree) = some .awaitingReport :=
      congrArg (Option.map Entry.phase) (f.entry?_register_self m c)
    rw [hself]
    simp
  · have hentry := entry?_handle hf fun m c heq hr => hnew ⟨m, c, heq, hr⟩
    have hbefore := h r
    unfold phase? at hbefore ⊢
    rw [hentry]
    cases he : f.entry? r with
    | none => exact List.mem_cons_self
    | some e =>
      rw [he] at hbefore
      have hmoves := e.moves_after ev
      rw [Option.bind_some]
      generalize e.after ev = o at hmoves
      cases hmoves with
      | stays hreport hdetach => exact hbefore
      | decided success hp => cases success <;> simp
      | resent hp => simp
      | detached gone hp => cases hex : e.content.exhaustedBy gone <;> simp
      | retired hgone => exact List.mem_cons_self

/-- Between operations an entry waits for a report or for its resend, or it is concluded. -/
theorem phase?_run (es : List Event) (r : MessageRef) :
    (new.run es).phase? r ∈
      [none, some .awaitingReport, some .awaitingResend, some .concluded] := by
  induction es using List.reverseRecOn generalizing r with
  | nil => exact List.mem_cons_self
  | append_singleton es ev ih =>
    rw [run_concat]
    exact phase?_handle (numbered_run es) ev ih r

/-- A concluded entry stays as it is until a sweep finds its message untracked. -/
theorem concluded_handle (hf : f.Numbered) (hadm : f.Admissible [ev])
    (he : f.entry? r = some e) (hp : e.phase = .concluded) :
    entry? (f.handle ev) r = some e ∨
      ∃ isTracked, ev = .retire isTracked ∧ isTracked e.message = false := by
  have hentry : entry? (f.handle ev) r = e.after ev := by
    rw [entry?_handle hf, he]
    · rfl
    · rintro m c rfl rfl
      have hfree : entry? (f.run []) (f.run []).nextFree = none := hadm.entry?_nextFree hf
      rw [run_nil, he] at hfree
      cases hfree
  rw [hentry]
  have hmoves := e.moves_after ev
  generalize e.after ev = o at hmoves
  cases hmoves with
  | stays hreport hdetach => exact Or.inl rfl
  | decided success hp' =>
    rw [hp] at hp'
    cases hp'
  | resent hp' =>
    rw [hp] at hp'
    cases hp'
  | detached gone hp' =>
    rw [hp] at hp'
    cases hp'
  | retired hgone => exact Or.inr ⟨_, rfl, hgone⟩

/-- **A registration decides at most once.**  In every run from an empty registry each registration
gets a reference that was free and has its `Life`; a report of the wrong kind or of an unknown
reference is ignored and changes no entry; a concluded entry stays as it is until a sweep takes it
out; and between operations entries are in three phases only. -/
theorem registration_decides_once (h : new.Admissible es) :
    (∀ pre m c mid post, es = pre ++ .register m c :: (mid ++ post) → Tracked m mid →
      entry? (new.run pre) ((new.run pre).register m c).1 = none ∧
      Life ((new.run pre).register m c).2 ((new.run pre).register m c).1 m c mid) ∧
    (∀ pre post, es = pre ++ post → ∀ kind r success,
      (∀ e, entry? (new.run pre) r = some e → e.content.kind ≠ kind) →
        ((new.run pre).report kind r success).1 = .ignored ∧
        ((new.run pre).report kind r success).2.entries = (new.run pre).entries) ∧
    (∀ pre ev post, es = pre ++ ev :: post → ∀ r e, entry? (new.run pre) r = some e →
      e.phase = .concluded →
        entry? (new.run (pre ++ [ev])) r = some e ∨
        ∃ isTracked, ev = .retire isTracked ∧ isTracked e.message = false) ∧
    ∀ pre post, es = pre ++ post → ∀ r,
      (new.run pre).phase? r ∈
        [none, some .awaitingReport, some .awaitingResend, some .concluded] := by
  refine ⟨?_, ?_, ?_, fun pre _ _ r => phase?_run pre r⟩
  · rintro pre m c mid post rfl htr
    refine ⟨h.entry?_nextFree numbered_new, ?_⟩
    have hafter := h.drop
    rw [show .register m c :: (mid ++ post) = [.register m c] ++ mid ++ post by simp] at hafter
    exact life_of_entry ((numbered_run pre).handle (.register m c))
      (entry?_register_self (new.run pre) m c) hafter.of_append.drop htr
  · rintro pre post rfl kind r success hno
    exact report_ignored (fun e he hk => absurd hk (hno e he)) success
  · rintro pre ev post rfl r e he hp
    rw [run_concat]
    refine concluded_handle (numbered_run pre) ?_ he hp
    rw [List.append_cons, List.append_assoc] at h
    exact h.drop.of_append

/-- A message of some of three parts. -/
def threeParts (indices : List Nat) : Content :=
  .sms "10086" none (indices.map fun i => ⟨i, 3, .gsm7, none, [97], none⟩)

/-- The carrier refuses the part in the middle; its report on the others is a failure, which comes
after one of the wrong kind and before a success. -/
def partlyResent : List Event :=
  [.register ⟨7⟩ (threeParts [0, 1, 2]), .detach .first [1], .report .mms .first true,
    .report .sms .first false, .report .sms .first true, .markResent .first]

/-- The failure decides, and the other two parts are to be sent again. -/
theorem registration_decides_once_resent :
    new.Admissible partlyResent ∧
      (let f := (new.register ⟨7⟩ (threeParts [0, 1, 2])).2
      (f.decisionsOn .first partlyResent.tail).length ≤ 1 ∧
        ((f.run [.detach .first [1], .report .mms .first true]).report .sms .first false).1 =
          .resend ⟨.first, ⟨7⟩, threeParts [0, 2], .awaitingResend⟩) := by
  have h : new.Admissible partlyResent := admissible_of_length (by decide)
  have hlife := ((registration_decides_once h).1 [] ⟨7⟩ (threeParts [0, 1, 2])
    partlyResent.tail [] rfl fun isTracked hmem => by simp [partlyResent] at hmem).2
  refine ⟨h, hlife.once, ?_⟩
  exact (hlife.decides [.detach .first [1], .report .mms .first true] false _ rfl rfl).2.1

end Fallback

end ShortMessage
