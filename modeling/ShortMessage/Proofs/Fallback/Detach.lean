import ShortMessage.Proofs.Fallback.Decisions

/-!
# Detaching parts bit by bit

What is detached from an entry is a set of parts: it does not matter in how many calls it is named,
in which order, or how often.  A message of several parts concludes with the call that takes its
last part away, and until then a report finds exactly the parts that are left; a multimedia message
concludes with the first call that names its one part.

* `detach_of_awaiting`, `detach_of_settled`, `detach_of_unknown`: what one call does;
* `detach_detach`: two calls are one; `detach_congr`: only the set of parts counts;
* `run_detach`: any number of calls are one;
* `Fares`: how an entry stands after some calls;
* `detachings_join`: all of this, for every registry.
-/

namespace ShortMessage

namespace Content

theorem exhaustedBy_append (c : Content) (gone gone' : List Nat) :
    c.exhaustedBy (gone ++ gone') = (c.exhaustedBy gone || (c.without gone).exhaustedBy gone') := by
  cases c with
  | sms destination serviceCentre parts =>
    have hsplit : parts.filter (·.index ∉ gone ++ gone') =
        (parts.filter (·.index ∉ gone)).filter (·.index ∉ gone') := by
      simp only [List.filter_filter, List.mem_append, not_or, Bool.decide_and, Bool.and_comm]
    simp only [exhaustedBy, without, hsplit]
    cases parts.filter (·.index ∉ gone) <;> rfl
  | mms pdu locationUrl => simp [exhaustedBy, without]

theorem without_of_exhaustedBy {c : Content} {gone : List Nat} (h : c.exhaustedBy gone = true)
    (gone' : List Nat) : (c.without gone).without gone' = c.without gone := by
  cases c with
  | sms destination serviceCentre parts =>
    have hnil : parts.filter (·.index ∉ gone) = [] := List.isEmpty_iff.1 h
    simp only [without, hnil, List.filter_nil]
  | mms pdu locationUrl => rfl

variable {gone gone' : List Nat}

theorem without_congr (h : ∀ i, i ∈ gone ↔ i ∈ gone') (c : Content) :
    c.without gone = c.without gone' := by
  cases c with
  | sms destination serviceCentre parts => simp only [without, h]
  | mms pdu locationUrl => rfl

theorem exhaustedBy_congr (h : ∀ i, i ∈ gone ↔ i ∈ gone') (c : Content) :
    c.exhaustedBy gone = c.exhaustedBy gone' := by
  cases c with
  | sms destination serviceCentre parts => simp only [exhaustedBy, h]
  | mms pdu locationUrl => simp only [exhaustedBy, h]

end Content

namespace Fallback

variable {f : Fallback} {r : MessageRef} {e : Entry} {gone gone' : List Nat}

/-! ### One call -/

/-- An entry without some parts; with nothing left it is concluded. -/
def Entry.detached (e : Entry) (gone : List Nat) : Entry :=
  { e with
      content := e.content.without gone
      phase := if e.content.exhaustedBy gone then .concluded else .awaitingReport }

theorem detach_of_unknown (h : f.entry? r = none) (gone : List Nat) :
    f.detach r gone = (none, f) := by
  unfold detach
  rw [h]

theorem detach_of_settled (he : f.entry? r = some e) (hp : e.phase ≠ .awaitingReport)
    (gone : List Nat) : f.detach r gone = (some e.phase, f) := by
  unfold detach
  simp only [he, if_pos hp]

theorem detach_of_awaiting (he : f.entry? r = some e) (hp : e.phase = .awaitingReport)
    (gone : List Nat) :
    f.detach r gone =
      (some (e.detached gone).phase, f.move (e.detached gone) (e.detached gone).phase) := by
  unfold detach
  simp only [he, if_neg (not_not_intro hp)]
  rfl

theorem entry?_detach (hf : f.Numbered) (he : f.entry? r = some e) (hp : e.phase = .awaitingReport)
    (gone : List Nat) : entry? (f.detach r gone).2 r = some (e.detached gone) := by
  obtain rfl := hf.ref_eq r e he
  rw [detach_of_awaiting he hp]
  exact (files_move f (e.detached gone) _).self

theorem detach_fst (hf : f.Numbered) (r : MessageRef) (gone : List Nat) :
    (f.detach r gone).1 = phase? (f.detach r gone).2 r := by
  unfold phase?
  cases he : f.entry? r with
  | none =>
    rw [detach_of_unknown he, he]
    rfl
  | some e =>
    by_cases hp : e.phase = .awaitingReport
    · rw [entry?_detach hf he hp, detach_of_awaiting he hp]
      rfl
    · rw [detach_of_settled he hp, he]
      rfl

/-! ### Several calls -/

theorem move_move {e e' : Entry} (h : e'.ref = e.ref) (f : Fallback) (p q : Phase) :
    (f.move e p).move e' q = f.move e' q := by
  unfold move
  rw [h, Registry.insert_insert_self]

/-- **Two calls are one** that names the parts of both. -/
theorem detach_detach (hf : f.Numbered) (r : MessageRef) (gone gone' : List Nat) :
    (f.detach r gone).2.detach r gone' = f.detach r (gone ++ gone') := by
  cases he : f.entry? r with
  | none => rw [detach_of_unknown he, detach_of_unknown he, detach_of_unknown he]
  | some e =>
    by_cases hp : e.phase = .awaitingReport
    · have hafter := entry?_detach hf he hp gone
      cases hused : e.content.exhaustedBy gone with
      | true =>
        -- the first call concludes the entry, so the second finds it settled
        have hdone : (e.detached gone).phase = .concluded := if_pos hused
        have hsame : e.detached (gone ++ gone') = e.detached gone := by
          simp only [Entry.detached, Content.exhaustedBy_append, hused, Bool.true_or,
            ← Content.without_without, Content.without_of_exhaustedBy hused]
        rw [detach_of_settled hafter (by rw [hdone]; exact nofun), detach_of_awaiting he hp,
          detach_of_awaiting he hp, hsame]
      | false =>
        have hwaits : (e.detached gone).phase = .awaitingReport := if_neg (by simp [hused])
        have hsame : (e.detached gone).detached gone' = e.detached (gone ++ gone') := by
          simp only [Entry.detached, Content.exhaustedBy_append, hused, Bool.false_or,
            Content.without_without]
        have href : (e.detached (gone ++ gone')).ref = (e.detached gone).ref := rfl
        rw [detach_of_awaiting hafter hwaits, hsame, detach_of_awaiting he hp,
          detach_of_awaiting he hp]
        exact congrArg _ (move_move href f _ _)
    · rw [detach_of_settled he hp, detach_of_settled he hp, detach_of_settled he hp]

/-- **Only the set of parts counts** that a call names. -/
theorem detach_congr (h : ∀ i, i ∈ gone ↔ i ∈ gone') (f : Fallback) (r : MessageRef) :
    f.detach r gone = f.detach r gone' := by
  unfold detach
  simp only [Content.exhaustedBy_congr h, Content.without_congr h]

theorem detach_comm (hf : f.Numbered) (r : MessageRef) (gone gone' : List Nat) :
    (f.detach r gone).2.detach r gone' = (f.detach r gone').2.detach r gone := by
  rw [detach_detach hf, detach_detach hf]
  exact detach_congr (fun i => by simp only [List.mem_append, or_comm]) f r

/-- **Any number of calls are one**, except that no call does nothing at all. -/
theorem run_detach (hf : f.Numbered) (r : MessageRef) (gone : List Nat) (more : List (List Nat)) :
    f.run ((gone :: more).map (.detach r)) = (f.detach r (gone :: more).flatten).2 := by
  induction more generalizing f gone with
  | nil =>
    rw [List.flatten_singleton]
    rfl
  | cons next more ih =>
    rw [List.map_cons, run_cons, ih (hf.handle (.detach r gone)) next]
    exact congrArg Prod.snd (detach_detach hf r gone (next :: more).flatten)

/-- The entry after any number of calls, if not even an empty list would use it up. -/
theorem entry?_run_detach (hf : f.Numbered) (he : f.entry? r = some e)
    (hp : e.phase = .awaitingReport) (hsome : e.content.exhaustedBy [] = false)
    (lists : List (List Nat)) :
    entry? (f.run (lists.map (.detach r))) r = some (e.detached lists.flatten) := by
  cases lists with
  | nil =>
    have hsame : e.detached [] = e := by
      simp only [Entry.detached, Content.without_nil, hsome, Bool.false_eq_true, if_false, ← hp]
    rw [List.map_nil, run_nil, List.flatten_nil, hsame, he]
  | cons gone more => rw [run_detach hf, entry?_detach hf he hp]

/-! ### How an entry fares -/

/-- **How an entry stands** that waited before some calls: it is concluded exactly if they used it
up, and then every report is ignored; else it still waits, and a report of its kind decides about
what is left of it. -/
structure Fares (e : Entry) (used : Prop) (left : Content) (f : Fallback) : Prop where
  concluded : f.phase? e.ref = some .concluded ↔ used
  ended : used → ∀ kind success, (f.report kind e.ref success).1 = .ignored
  waiting : ¬ used → f.phase? e.ref = some .awaitingReport ∧
    ∀ success, (f.report left.kind e.ref success).1 = .of success { e with content := left }

theorem fares_detached {f' : Fallback} (hp : e.phase = .awaitingReport)
    (he : f'.entry? e.ref = some (e.detached gone)) :
    f'.Fares e (e.content.exhaustedBy gone = true) (e.content.without gone) := by
  have hphase : f'.phase? e.ref = some (e.detached gone).phase := congrArg (Option.map _) he
  cases hused : e.content.exhaustedBy gone with
  | true =>
    have hdone : (e.detached gone).phase = .concluded := if_pos hused
    rw [hdone] at hphase
    refine ⟨iff_of_true hphase rfl, fun _ kind success => ?_, fun h => absurd rfl h⟩
    refine (report_ignored (fun e' he' _ => ?_) success).1
    rw [he] at he'
    obtain rfl := Option.some.inj he'
    rw [hdone]
    exact nofun
  | false =>
    have hwaits : (e.detached gone).phase = .awaitingReport := if_neg (by simp [hused])
    rw [hwaits] at hphase
    have hsame : e.detached gone = { e with content := e.content.without gone } := by
      rw [← hp] at hwaits
      exact congrArg (fun p => { e with content := e.content.without gone, phase := p }) hwaits
    refine ⟨by simp [hphase], nofun, fun _ => ⟨hphase, fun success => ?_⟩⟩
    rw [← hsame]
    exact report_eq_of he hwaits success

theorem fares_run_detach (hf : f.Numbered) (he : f.entry? r = some e)
    (hp : e.phase = .awaitingReport) (hsome : e.content.exhaustedBy [] = false)
    (lists : List (List Nat)) :
    (f.run (lists.map (.detach r))).Fares e (e.content.exhaustedBy lists.flatten = true)
      (e.content.without lists.flatten) := by
  obtain rfl := hf.ref_eq r e he
  exact fares_detached hp (entry?_run_detach hf he hp hsome lists)

/-- **Detaching takes away a set of parts.**  In every registry two calls on one reference leave the
same registry and answer the same state as one call that names the parts of both, in either order. A
message of several parts that waits for its report concludes exactly when all its parts have been
named, and until then a report decides about exactly the others; a multimedia message concludes
exactly when its one part has been named.  On an unknown reference or in any other phase nothing
changes. -/
theorem detachings_join (hf : f.Numbered) (r : MessageRef) :
    (∀ a b, (f.detach r a).2.detach r b = f.detach r (a ++ b) ∧
      (f.detach r a).2.detach r b = (f.detach r b).2.detach r a ∧
      (f.detach r a).1 = phase? (f.detach r a).2 r) ∧
    (∀ m destination serviceCentre parts,
      f.entry? r = some ⟨r, m, .sms destination serviceCentre parts, .awaitingReport⟩ → parts ≠ [] →
      ∀ lists : List (List Nat),
        (f.run (lists.map (.detach r))).Fares
          ⟨r, m, .sms destination serviceCentre parts, .awaitingReport⟩
          (∀ p ∈ parts, ∃ gone ∈ lists, p.index ∈ gone)
          (.sms destination serviceCentre (parts.filter fun p => ∀ gone ∈ lists, p.index ∉ gone))) ∧
    (∀ m pdu locationUrl,
      f.entry? r = some ⟨r, m, .mms pdu locationUrl, .awaitingReport⟩ →
      ∀ lists : List (List Nat),
        (f.run (lists.map (.detach r))).Fares ⟨r, m, .mms pdu locationUrl, .awaitingReport⟩
          (∃ gone ∈ lists, 0 ∈ gone) (.mms pdu locationUrl)) ∧
    (∀ e, f.entry? r = some e → e.phase ≠ .awaitingReport →
      ∀ gone, f.detach r gone = (some e.phase, f)) ∧
    (f.entry? r = none → ∀ gone, f.detach r gone = (none, f)) := by
  refine ⟨fun a b => ⟨detach_detach hf r a b, detach_comm hf r a b, detach_fst hf r a⟩, ?_, ?_,
    fun e he hp => detach_of_settled he hp, fun hnone => detach_of_unknown hnone⟩
  · intro m destination serviceCentre parts he hparts lists
    have hsome : (Content.sms destination serviceCentre parts).exhaustedBy [] = false := by
      simpa [Content.exhaustedBy] using hparts
    have h := fares_run_detach hf he rfl hsome lists
    have hused : (Content.sms destination serviceCentre parts).exhaustedBy lists.flatten = true ↔
        ∀ p ∈ parts, ∃ gone ∈ lists, p.index ∈ gone := by
      simp [Content.exhaustedBy]
    have hleft : (Content.sms destination serviceCentre parts).without lists.flatten =
        .sms destination serviceCentre (parts.filter fun p => ∀ gone ∈ lists, p.index ∉ gone) := by
      simp [Content.without]
    rwa [propext hused, hleft] at h
  · intro m pdu locationUrl he lists
    have h := fares_run_detach hf he rfl rfl lists
    have hused : (Content.mms pdu locationUrl).exhaustedBy lists.flatten = true ↔
        ∃ gone ∈ lists, 0 ∈ gone := by
      simp [Content.exhaustedBy]
    rwa [propext hused] at h

/-- Of three parts the first and the last are detached, one of them twice and with a part that there
is not, and a failure leads to a resend of the other one; detached as well, it ends the message. -/
theorem detachings_join_threeParts :
    let f := (new.register ⟨7⟩ (threeParts [0, 1, 2])).2
    let g := f.run ([[2, 9], [0, 2]].map (.detach .first))
    f.entry? .first = some ⟨.first, ⟨7⟩, threeParts [0, 1, 2], .awaitingReport⟩ ∧
      (g.report .sms .first false).1 =
        .resend ⟨.first, ⟨7⟩, threeParts [1], .awaitingResend⟩ ∧
      (f.run ([[2, 9], [0, 2], [1]].map (.detach .first))).phase? .first = some .concluded := by
  intro f g
  have he : f.entry? .first = some ⟨.first, ⟨7⟩, threeParts [0, 1, 2], .awaitingReport⟩ := rfl
  have hf : f.Numbered := numbered_run [.register ⟨7⟩ (threeParts [0, 1, 2])]
  have h := (detachings_join hf .first).2.1 _ _ _ _ he (by decide)
  exact ⟨he, ((h [[2, 9], [0, 2]]).waiting (by decide)).2 false,
    (h [[2, 9], [0, 2], [1]]).concluded.2 (by decide)⟩

end Fallback

end ShortMessage
