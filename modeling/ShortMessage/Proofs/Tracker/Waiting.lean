import ShortMessage.Proofs.Tracker.Order
import ShortMessage.Proofs.Tracker.Tokens

/-!
# What a live context waits for

A context goes in the very step that leaves it nothing to wait for.  So a context that is still
there waits: for the send result of a part, or for a delivery that a token asks to hear of.

* `Context.Waits`: what there is to wait for;
* `remains_eq_none_iff`: a context that concludes retires exactly if it does not wait;
* `handle_concluded`: an event about a live context changes it and lets it conclude;
* `live_context_waits`: every live context of a run waits.
-/

namespace ShortMessage.Tracker

namespace Context

variable {c : Context}

/-- A part has no send result yet, or it is sent and a token asks for its delivery. -/
def Waits (c : Context) : Prop :=
  .pending ∈ c.parts ∨
    ∃ (i : Nat) (τ : Token), c.parts[i]? = some .sent ∧ c.deliveredTokens[i]? = some (some τ)

theorem allSettled_iff_not_mem : c.allSettled = true ↔ .pending ∉ c.parts := by
  rw [allSettled_iff, List.mem_iff_getElem?, not_exists]

theorem awaits_eq_true_iff {p : Progress} {token : Option Token} :
    awaits p token = true ↔ p = .pending ∨ (p = .sent ∧ ∃ τ, token = some τ) := by
  cases p <;> simp [awaits, Option.isSome_iff_exists]

theorem waits_iff : c.Waits ↔
    ∃ (i : Nat) (p : Progress), c.parts[i]? = some p ∧
      awaits p c.deliveredTokens[i]?.join = true := by
  constructor
  · rintro (hp | ⟨i, τ, hi, hτ⟩)
    · obtain ⟨i, hi⟩ := List.mem_iff_getElem?.1 hp
      exact ⟨i, .pending, hi, awaits_eq_true_iff.2 (Or.inl rfl)⟩
    · have hjoin : c.deliveredTokens[i]?.join = some τ := by rw [hτ, Option.join_some]
      exact ⟨i, .sent, hi, awaits_eq_true_iff.2 (Or.inr ⟨rfl, τ, hjoin⟩)⟩
  · rintro ⟨i, p, hi, hw⟩
    rcases awaits_eq_true_iff.1 hw with rfl | ⟨rfl, τ, hτ⟩
    · exact Or.inl (List.mem_of_getElem? hi)
    · exact Or.inr ⟨i, τ, hi, Option.join_eq_some_iff.1 hτ⟩

theorem not_waits_iff : ¬ c.Waits ↔
    ∀ (i : Nat) (p : Progress), c.parts[i]? = some p →
      awaits p c.deliveredTokens[i]?.join = false := by
  rw [waits_iff]
  simp only [not_exists, not_and, Bool.not_eq_true]

theorem allSettled_of_not_waits (h : ¬ c.Waits) : c.allSettled = true :=
  allSettled_iff_not_mem.2 fun hp => h (Or.inl hp)

theorem reported_takeAggregate (h : c.allSettled = true) : c.takeAggregate.1.reported = true := by
  rcases takeAggregate_cases c with ⟨hr | hr, he⟩ | ⟨-, -, he⟩ <;> rw [he]
  · exact hr
  · rw [h] at hr
    cases hr

/-- **A context that concludes retires exactly if it does not wait.** -/
theorem remains_eq_none_iff : c.remains = none ↔ ¬ c.Waits := by
  have hret : c.remains = none ↔ c.takeAggregate.1.isRetirable = true := by
    unfold remains
    split
    · next hr => simp only [hr]
    · next hr => simp only [hr, reduceCtorEq]
  rw [hret, isRetirable_iff, takeAggregate_parts, takeAggregate_deliveredTokens, not_waits_iff]
  constructor
  · exact fun hw => hw.2
  · intro hw
    have hset := allSettled_of_not_waits (not_waits_iff.2 hw)
    exact ⟨reported_takeAggregate hset, hw⟩

namespace Sound

theorem reported_iff (h : Sound c) (hne : c.parts ≠ []) :
    c.reported = true ↔ .pending ∉ c.parts := by
  rw [← allSettled_iff_not_mem]
  exact ⟨h.settled, h.reported_of_settled hne⟩

theorem reported_eq_false_iff (h : Sound c) (hne : c.parts ≠ []) :
    c.reported = false ↔ .pending ∈ c.parts := by
  have hiff := h.reported_iff hne
  cases hr : c.reported with
  | false => simpa [hr] using hiff
  | true => simpa [hr] using hiff

theorem waits_of_parts (h : Sound c) (hne : c.parts ≠ []) : c.Waits := by
  by_contra hw
  have hrep := h.reported_of_settled hne (allSettled_of_not_waits hw)
  have hret : c.isRetirable = true := isRetirable_iff.2 ⟨hrep, not_waits_iff.1 hw⟩
  rw [h.waits] at hret
  cases hret

theorem concluded_nil (h : Sound c) (hne : c.parts ≠ []) : c.concluded [] = ⟨some c, [], []⟩ := by
  cases hr : c.reported with
  | true => simp [concluded_of_reported hr, h.waits]
  | false =>
    have hset : c.allSettled = false := by
      by_contra hs
      have := h.reported_of_settled hne (by simpa using hs)
      rw [hr] at this
      cases this
    simp [concluded_of_unsettled hset hr]

/-- A signal lets a context with parts conclude, also if there is no part that it is about. -/
theorem hear_eq (h : Sound c) (hne : c.parts ≠ []) (i : Nat) (s : Signal) :
    c.hear i s = (c.signal i s).1.concluded (c.signal i s).2.toList := by
  unfold hear
  split
  · rfl
  · next hi =>
    have hnone : c.parts[i]? = none := List.getElem?_eq_none (Nat.not_lt.1 hi)
    have hsame : c.signal i s = (c, none) := by
      rcases signal_cases c i s with he | ⟨_, -, hp, -⟩ | ⟨-, hp, -⟩
      · exact he
      · rw [hnone] at hp
        cases hp
      · rw [hnone] at hp
        rcases hp with hp | hp <;> cases hp
    rw [hsame]
    exact (h.concluded_nil hne).symm

end Sound

end Context

variable {t : Tracker} {m : MessageId} {c : Context} {e : Event}

/-! ### An event about a live context -/

/-- **An event about a live context** with parts, no registration, changes it and lets it
conclude. -/
theorem handle_concluded (hs : t.AllSound) (hc : t.context? m = some c) (hne : c.parts ≠ [])
    (he : e.message? = some m) (hreg : e.registration? = none) :
    ∃ released : List Token,
      (t.handle e).context? m = ((c.after e).concluded released).context ∧
      (t.handle e).outcomes = t.outcomes ++ ((c.after e).concluded released).ends ∧
      (t.handle e).tally =
        t.tally ++ ((c.after e).concluded released).reports.map .aggregateReported := by
  cases e with
  | register now r => cases hreg
  | signal m' i s =>
    obtain rfl := Option.some.inj he
    refine ⟨(c.signal i s).2.toList, ?_⟩
    have heard : t.heard m' i s = (c.signal i s).1.concluded (c.signal i s).2.toList := by
      rw [heard_of_context? hc]
      exact (hs m' c hc).hear_eq hne i s
    obtain ⟨hctx, hout, htally⟩ := signal_heard t m' i s
    rw [heard] at hctx hout htally
    refine ⟨?_, hout, htally⟩
    have hself := hctx m'
    rwa [if_pos rfl] at hself
  | settle m' indices result =>
    obtain rfl := Option.some.inj he
    have hstep : t.handle (.settle m' indices result) =
        t.conclude m' (c.settle indices result) none := settle_eq hc indices result
    refine ⟨[], ?_⟩
    rw [hstep]
    refine ⟨?_, outcomes_conclude t m' _ none, tally_conclude t m' _ none⟩
    rw [context?_conclude, if_pos rfl]
    rfl
  | sweep now => cases he

theorem context?_handle_eq_none_iff (hs : t.AllSound) (hc : t.context? m = some c)
    (hne : c.parts ≠ []) (he : e.message? = some m) (hreg : e.registration? = none) :
    (t.handle e).context? m = none ↔ ¬ (c.after e).Waits := by
  obtain ⟨released, hctx, -, -⟩ := handle_concluded hs hc hne he hreg
  rw [hctx]
  exact Context.remains_eq_none_iff

/-- A context without parts waits for a settlement, whatever that is to settle. -/
theorem context?_handle_of_no_parts (hc : t.context? m = some c)
    (hnil : c.parts = []) (he : e.message? = some m) (hreg : e.registration? = none) :
    (t.handle e).context? m = none ↔ ∃ indices result, e = .settle m indices result := by
  cases e with
  | register now r => cases hreg
  | signal m' i s =>
    obtain rfl := Option.some.inj he
    have hstale : t.signal m' i s = t.count (.staleSignal (staleKind s)) := by
      refine signal_stale (fun c' hc' => ?_) s
      rw [hc] at hc'
      obtain rfl := Option.some.inj hc'
      rw [hnil]
      exact Nat.zero_le i
    have hstays : (t.handle (.signal m' i s)).context? m' = some c := by
      show (t.signal m' i s).context? m' = some c
      rw [hstale, context?_count, hc]
    rw [hstays]
    constructor
    · intro h
      cases h
    · rintro ⟨indices, result, h⟩
      cases h
  | settle m' indices result =>
    obtain rfl := Option.some.inj he
    have hnone : (c.settle indices result).parts = [] := by
      unfold Context.settle
      rw [hnil]
      rfl
    have hidle : ¬ (c.settle indices result).Waits := by
      rintro (hp | ⟨i, τ, hi, -⟩)
      · rw [hnone] at hp
        cases hp
      · rw [hnone] at hi
        cases hi
    have hgone : (t.handle (.settle m' indices result)).context? m' = none := by
      show (t.settle m' indices result).2.context? m' = none
      rw [settle_eq hc, context?_conclude, if_pos rfl]
      exact Context.remains_eq_none_iff.2 hidle
    exact ⟨fun _ => ⟨indices, result, rfl⟩, fun _ => hgone⟩
  | sweep now => cases he

/-- **Every live context of a run waits.**  It has one place for a token per part; with at least one
part it has reported exactly if no part is pending; it holds the sent token only before the report,
and no token of a part that is delivered; it may not retire, so with at least one part it waits.  An
event about its message, other than a new registration, retires it exactly if it leaves it nothing
to wait for; without parts, with the first settlement. -/
theorem live_context_waits (timeout : Nat) (es : List Event) {m : MessageId} {c : Context}
    (hc : ((new timeout).run es).context? m = some c) :
    c.deliveredTokens.length = c.parts.length ∧
    (c.parts ≠ [] → (c.reported = true ↔ .pending ∉ c.parts)) ∧
    (∀ τ, c.sentToken = some τ → c.reported = false) ∧
    (∀ i : Nat, c.parts[i]? = some .delivered → c.deliveredTokens[i]? = some none) ∧
    c.isRetirable = false ∧ (c.parts ≠ [] → c.Waits) ∧
    ∀ e : Event, e.message? = some m → e.registration? = none →
      ((((new timeout).run es).handle e).context? m = none ↔
        if c.parts = [] then ∃ indices result, e = .settle m indices result
        else ¬ (c.after e).Waits) := by
  have hs := sound_of_run timeout es
  have hsound := hs m c hc
  refine ⟨hsound.length_eq, hsound.reported_iff, fun τ hτ => ?_, fun i hi => ?_, hsound.waits,
    hsound.waits_of_parts, fun e he hreg => ?_⟩
  · by_contra hr
    rw [hsound.spent (by simpa using hr)] at hτ
    cases hτ
  · have hlt : i < c.deliveredTokens.length := by
      rw [hsound.length_eq]
      exact (List.getElem?_eq_some_iff.1 hi).1
    have hfree := hsound.released i hi
    rw [List.getElem?_eq_getElem hlt] at hfree ⊢
    rw [Option.join_some] at hfree
    rw [hfree]
  · split
    · next hnil => exact context?_handle_of_no_parts hc hnil he hreg
    · next hne => exact context?_handle_eq_none_iff hs hc hne he hreg

/-- Two parts: the first is sent, the second fails. -/
def sentThenFailed : List Event :=
  [.register 0 ⟨⟨7⟩, 2, [⟨1⟩], [⟨2⟩, ⟨3⟩]⟩, .signal ⟨7⟩ 0 (.sent .success),
    .signal ⟨7⟩ 1 (.sent .radioOff)]

/-- The whole send is reported, and the context waits for the delivery of the first part alone. -/
theorem live_context_waits_for_delivery :
    ∃ c, ((new 300).run sentThenFailed).context? ⟨7⟩ = some c ∧ .pending ∉ c.parts ∧ c.Waits ∧
      ¬ (c.after (.signal ⟨7⟩ 0 .delivered)).Waits := by
  have hc : ((new 300).run sentThenFailed).context? ⟨7⟩ =
      some ⟨0, [.sent, .failed .radioOff], none, [some ⟨2⟩, some ⟨3⟩], true⟩ := by decide
  obtain ⟨-, hreported, -, -, -, hwaits, hgone⟩ := live_context_waits 300 sentThenFailed hc
  refine ⟨_, hc, (hreported (by decide)).1 rfl, hwaits (by decide), ?_⟩
  exact (hgone (.signal ⟨7⟩ 0 .delivered) rfl rfl).1 (by decide)

end ShortMessage.Tracker
