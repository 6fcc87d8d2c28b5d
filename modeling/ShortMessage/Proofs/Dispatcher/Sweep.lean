import ShortMessage.Proofs.Dispatcher.Entries
import ShortMessage.Proofs.Tracker.Reports
import ShortMessage.Proofs.Tracker.Tokens

/-!
# Sweeps

A sweep retires the contexts that are too old and fires what they still hold with a timeout.  A
message that it has retired is deaf from then on.  Of two sweeps the later one alone would have done
the same: whatever was too old for the first is too old for the second.

* `Tracker.Swept`, `swept_sweep`: what a sweep does;
* `handle_of_retired`: what a signal about a retired message does;
* `contexts_sweep_sweep`, `fates_sweep_sweep`, `entries_sweep_sweep`: two sweeps are one;
* `sweep_law`: all of this, for every run.
-/

namespace ShortMessage

theorem Registry.retain_retain {κ α : Type} (r : Registry κ α) {keep keep' : κ → α → Bool}
    (h : ∀ k a, keep' k a = true → keep k a = true) :
    (r.retain keep).retain keep' = r.retain keep' := by
  unfold retain
  congr 1
  rw [List.filter_filter]
  refine List.filter_congr fun e _ => ?_
  cases hkeep : keep' e.1 e.2 with
  | false => rfl
  | true => rw [h _ _ hkeep, Bool.and_true]

namespace Tracker

variable {t : Tracker} {now later : Int} {m : MessageId} {τ : Token}

/-! ### One sweep -/

/-- **What a sweep does**: it retires the messages `gone`, those whose context has reached the age
of the timeout, and leaves the contexts of the others as they are.  The tokens that come to an end
are those that the retired contexts hold – the sent token only before the report –, each once and
with a timeout. -/
structure Swept (t : Tracker) (now : Int) (gone : List MessageId) (t' : Tracker) : Prop where
  nodup : gone.Nodup
  mem_iff : ∀ m, m ∈ gone ↔
    ∃ c, t.context? m = some c ∧ t.timeout ≤ (now - c.openedAt).toNat
  context?_eq : ∀ m, t'.context? m = if m ∈ gone then none else t.context? m
  fired : ∃ ends, t'.outcomes = t.outcomes ++ ends ∧
    (∀ τ o, (τ, o) ∈ ends ↔ o = .fired .timeout ∧ ∃ m ∈ gone, ∃ c, t.context? m = some c ∧
      ((c.reported = false ∧ c.sentToken = some τ) ∨
        ∃ i : Nat, c.deliveredTokens[i]? = some (some τ))) ∧
    t.held.Perm (ends.map Prod.fst ++ t'.held)

theorem mem_retired {x : MessageId × Context} :
    x ∈ t.retired now ↔ t.context? x.1 = some x.2 ∧ t.timeout ≤ (now - x.2.openedAt).toNat := by
  rw [retired_eq, List.mem_filter, show x = (x.1, x.2) from rfl, Registry.mem_entries_iff]
  exact and_congr_right fun _ => decide_eq_true_iff

theorem sweep_fst (t : Tracker) (now : Int) : (t.sweep now).1 = (t.retired now).map (·.1) := by
  rw [retired_eq]
  rfl

theorem mem_sweep_fst : m ∈ (t.sweep now).1 ↔
    ∃ c, t.context? m = some c ∧ t.timeout ≤ (now - c.openedAt).toNat := by
  rw [sweep_fst, List.mem_map]
  constructor
  · rintro ⟨x, hx, rfl⟩
    exact ⟨x.2, mem_retired.1 hx⟩
  · rintro ⟨c, hc⟩
    exact ⟨(m, c), mem_retired.2 hc, rfl⟩

theorem outcomes_sweep (t : Tracker) (now : Int) :
    (t.sweep now).2.outcomes = t.outcomes ++ (t.retired now).flatMap (·.2.timeOut) := by
  rw [retired_eq]
  rfl

theorem mem_timeOut_iff {c : Context} {o : Outcome} :
    (τ, o) ∈ c.timeOut ↔ o = .fired .timeout ∧ ((c.reported = false ∧ c.sentToken = some τ) ∨
      ∃ i : Nat, c.deliveredTokens[i]? = some (some τ)) := by
  have hfire : ∀ l : List Token,
      (τ, o) ∈ l.map (Token.fire .timeout) ↔ o = .fired .timeout ∧ τ ∈ l := by
    intro l
    rw [List.mem_map]
    constructor
    · rintro ⟨τ', hτ', heq⟩
      obtain ⟨rfl, rfl⟩ := Prod.mk.inj heq
      exact ⟨rfl, hτ'⟩
    · rintro ⟨rfl, hτ⟩
      exact ⟨τ, hτ, rfl⟩
  have hdelivered : τ ∈ c.deliveredTokens.filterMap id ↔
      ∃ i : Nat, c.deliveredTokens[i]? = some (some τ) := by
    rw [List.mem_filterMap]
    simp only [id_eq, exists_eq_right]
    exact List.mem_iff_getElem?
  unfold Context.timeOut
  rw [List.mem_append, hfire, hdelivered]
  cases c.reported with
  | true => simp
  | false =>
    rw [if_neg (by decide), hfire, Option.mem_toList]
    simp only [true_and, ← and_or_left]

theorem swept_sweep (hs : t.AllSound) (now : Int) :
    t.Swept now (t.sweep now).1 (t.sweep now).2 where
  nodup := by
    have hkeys : (t.contexts.entries.map (·.1)).Nodup := by
      rw [List.Nodup, List.pairwise_map]
      exact t.contexts.distinct
    exact hkeys.sublist (List.filter_sublist.map _)
  mem_iff _ := mem_sweep_fst
  context?_eq m := by
    rw [context?_sweep]
    cases hc : t.context? m with
    | none => simp
    | some c =>
      have hiff : m ∈ (t.sweep now).1 ↔ t.isExpired now c = true := by
        rw [mem_sweep_fst, hc]
        simp only [Option.some.injEq, exists_eq_left']
        exact decide_eq_true_iff.symm
      by_cases hold : m ∈ (t.sweep now).1
      · rw [if_pos hold, Option.filter_some, hiff.1 hold]
        rfl
      · rw [if_neg hold, Option.filter_some, Bool.eq_false_iff.2 (hold ∘ hiff.2)]
        rfl
  fired := by
    refine ⟨_, outcomes_sweep t now, fun τ o => ?_, ?_⟩
    · rw [List.mem_flatMap]
      constructor
      · rintro ⟨x, hx, hmem⟩
        obtain ⟨rfl, hτ⟩ := mem_timeOut_iff.1 hmem
        obtain ⟨hc, hold⟩ := mem_retired.1 hx
        exact ⟨rfl, x.1, mem_sweep_fst.2 ⟨x.2, hc, hold⟩, x.2, hc, hτ⟩
      · rintro ⟨rfl, m, hm, c, hc, hτ⟩
        obtain ⟨c', hc', hold⟩ := mem_sweep_fst.1 hm
        rw [hc] at hc'
        obtain rfl := Option.some.inj hc'
        exact ⟨(m, c), mem_retired.2 ⟨hc, hold⟩, mem_timeOut_iff.2 ⟨rfl, hτ⟩⟩
    · have haccount := account_sweep hs now
      unfold account at haccount
      rw [show (t.handle (.sweep now)).outcomes = _ from outcomes_sweep t now, List.map_append,
        List.append_assoc] at haccount
      exact ((List.perm_append_left_iff _).1 haccount).symm

/-! ### Late signals -/

/-- **A signal about a message without a context**, or a settlement of it, changes neither contexts
nor tokens. -/
theorem handle_of_retired {e : Event} (hm : t.context? m = none) (he : e.message? = some m)
    (hreg : e.registration? = none) :
    (t.handle e).contexts = t.contexts ∧ (t.handle e).outcomes = t.outcomes := by
  have hstep := step_handle t e
  generalize t.handle e = t' at hstep
  cases hstep with
  | register now r => cases hreg
  | signal s hc hi =>
    obtain rfl := Option.some.inj he
    rw [hm] at hc
    cases hc
  | staleSignal s hc => exact ⟨rfl, rfl⟩
  | settle indices result hc =>
    obtain rfl := Option.some.inj he
    rw [hm] at hc
    cases hc
  | staleSettle indices result hc => exact ⟨rfl, rfl⟩
  | sweep now => cases he

/-! ### Two sweeps -/

theorem isExpired_mono (h : now ≤ later) {c : Context} (hc : t.isExpired now c = true) :
    t.isExpired later c = true := by
  unfold isExpired Context.age at hc ⊢
  simp only [decide_eq_true_eq] at hc ⊢
  omega

theorem contexts_sweep_sweep (h : now ≤ later) (t : Tracker) :
    ((t.sweep now).2.sweep later).2.contexts = (t.sweep later).2.contexts := by
  show (t.contexts.retain fun _ c => !t.isExpired now c).retain (fun _ c => !t.isExpired later c) =
    t.contexts.retain fun _ c => !t.isExpired later c
  refine t.contexts.retain_retain fun _ c hyoung => ?_
  cases hold : t.isExpired now c with
  | false => rfl
  | true =>
    rw [isExpired_mono h hold] at hyoung
    cases hyoung

/-- What two sweeps retire one after the other the later one retires alone. -/
theorem retired_sweep (h : now ≤ later) (t : Tracker) :
    (t.retired now ++ (t.sweep now).2.retired later).Perm (t.retired later) := by
  have hfirst : t.retired now =
      (t.retired later).filter fun x => t.isExpired now x.2 := by
    rw [retired_eq, retired_eq, List.filter_filter]
    refine List.filter_congr fun x _ => ?_
    cases hold : t.isExpired now x.2 with
    | false => rfl
    | true => rw [isExpired_mono h hold, Bool.and_true]
  have hsecond : (t.sweep now).2.retired later =
      (t.retired later).filter fun x => !t.isExpired now x.2 := by
    rw [retired_eq, retired_eq, List.filter_filter]
    show (t.contexts.entries.filter fun x => !t.isExpired now x.2).filter _ = _
    rw [List.filter_filter]
    refine List.filter_congr fun x _ => Bool.and_comm _ _
  rw [hfirst, hsecond]
  exact List.filter_append_perm _ _

theorem fates_sweep (t : Tracker) (now : Int) (τ : Token) :
    (t.sweep now).2.fates τ = t.fates τ ++
      List.replicate (((t.retired now).flatMap (·.2.timeOut)).filter (·.1 = τ)).length
        (.fired .timeout) := by
  unfold fates
  rw [outcomes_sweep, List.filter_append, List.map_append]
  congr 1
  refine List.eq_replicate_iff.2 ⟨List.length_map _, fun o ho => ?_⟩
  obtain ⟨⟨τ', o'⟩, hmem, rfl⟩ := List.mem_map.1 ho
  obtain ⟨x, -, hmem⟩ := List.mem_flatMap.1 (List.mem_filter.1 hmem).1
  exact (mem_timeOut_iff.1 hmem).1

theorem fates_sweep_sweep (h : now ≤ later) (t : Tracker) (τ : Token) :
    ((t.sweep now).2.sweep later).2.fates τ = (t.sweep later).2.fates τ := by
  have hperm := ((retired_sweep h t).flatMap_right fun x => x.2.timeOut).filter (·.1 = τ)
  have hlen := hperm.length_eq
  rw [List.flatMap_append, List.filter_append, List.length_append] at hlen
  rw [fates_sweep, fates_sweep, fates_sweep, List.append_assoc, List.replicate_append_replicate,
    hlen]

end Tracker

namespace Dispatcher

theorem entries_sweep_sweep {σ : Type} {now later : Int} (h : now ≤ later) (d : Dispatcher σ) :
    ((d.sweep now).2.sweep later).2.fallback.entries = (d.sweep later).2.fallback.entries := by
  have hlive : ∀ m, Tracker.isLive ((d.tracker.sweep now).2.sweep later).2 m =
      Tracker.isLive (d.tracker.sweep later).2 m := fun m => by
    unfold Tracker.isLive
    rw [Tracker.contexts_sweep_sweep h]
  have hsecond : ((d.sweep now).2.sweep later).2.fallback.entries =
      (d.fallback.entries.retain fun _ e => Tracker.isLive (d.tracker.sweep now).2 e.message).retain
        fun _ e => Tracker.isLive (d.tracker.sweep later).2 e.message := by
    simp only [← hlive]
    rfl
  rw [hsecond]
  refine d.fallback.entries.retain_retain fun _ e hstays => ?_
  rw [← hlive] at hstays
  cases hgone : Tracker.isLive (d.tracker.sweep now).2 e.message with
  | true => rfl
  | false =>
    have hnone := (Tracker.develops_sweep (d.tracker.sweep now).2 later).context?_none
      (Registry.contains_eq_false_iff.1 hgone)
    rw [show Tracker.isLive _ e.message = false from Registry.contains_eq_false_iff.2 hnone]
      at hstays
    cases hstays

/-- **Sweeps.**  In every state that a run of a tracker leads to, a sweep retires exactly the
contexts that have reached the age of the timeout, fires what they hold with a timeout, and touches
no other context.  However the run goes on, as long as it does not register a retired message again,
signals about that message and settlements of it change neither contexts nor tokens.  A later sweep
leaves the contexts and the ends of all tokens – and in a dispatcher the entries – as if the first
one had not been. -/
theorem sweep_law (timeout : Nat) (ts : List Tracker.Event) (now : Int) :
    let t := (Tracker.new timeout).run ts
    let swept := (t.sweep now).2
    t.Swept now (t.sweep now).1 swept ∧
    (∀ m ∈ (t.sweep now).1, ∀ fs, (∀ r ∈ Tracker.registrations fs, r.message ≠ m) →
      ∀ e : Tracker.Event, e.message? = some m → e.registration? = none →
        ((swept.run fs).handle e).contexts = (swept.run fs).contexts ∧
        ((swept.run fs).handle e).outcomes = (swept.run fs).outcomes) ∧
    ∀ later, now ≤ later →
      (swept.sweep later).2.contexts = (t.sweep later).2.contexts ∧
      (∀ τ, (swept.sweep later).2.fates τ = (t.sweep later).2.fates τ) ∧
      ∀ (σ : Type) (d : Dispatcher σ),
        ((d.sweep now).2.sweep later).2.fallback.entries = (d.sweep later).2.fallback.entries := by
  intro t swept
  have hswept := Tracker.swept_sweep (Tracker.sound_of_run timeout ts) now
  refine ⟨hswept, fun m hm fs hfs e he hreg => ?_, fun later h => ⟨?_, fun τ => ?_, ?_⟩⟩
  · have hgone : swept.context? m = none := (hswept.context?_eq m).trans (if_pos hm)
    exact Tracker.handle_of_retired (Tracker.context?_none_run hfs hgone) he hreg
  · exact Tracker.contexts_sweep_sweep h t
  · exact Tracker.fates_sweep_sweep h t τ
  · exact fun σ d => entries_sweep_sweep h d

/-- Two messages; a part of the older one has been delivered. -/
def twoAges : List Tracker.Event :=
  [.register 0 ⟨⟨7⟩, 2, [⟨0⟩], [⟨1⟩, ⟨2⟩]⟩, .register 5 ⟨⟨8⟩, 1, [⟨3⟩], []⟩,
    .signal ⟨7⟩ 0 .delivered]

/-- The older message times out, is deaf to the delivery of its second part, and leaves nothing to
do but the younger one for a later sweep. -/
theorem sweep_law_twoAges :
    let t := (Tracker.new 10).run twoAges
    let swept := (t.sweep 12).2
    (⟨7⟩ ∈ (t.sweep 12).1 ∧ ⟨8⟩ ∉ (t.sweep 12).1 ∧
      swept.outcomes = [(⟨1⟩, .fired .success), (⟨0⟩, .fired .timeout), (⟨2⟩, .fired .timeout)]) ∧
    (swept.handle (.signal ⟨7⟩ 1 .delivered)).outcomes = swept.outcomes ∧
    (swept.sweep 20).2.contexts = (t.sweep 20).2.contexts := by
  intro t swept
  obtain ⟨hswept, hdeaf, htwice⟩ := sweep_law 10 twoAges 12
  have holder : (⟨7⟩ : MessageId) ∈ (t.sweep 12).1 := (hswept.mem_iff _).2 ⟨_, rfl, by decide⟩
  exact ⟨⟨holder, by decide, by decide⟩,
    (hdeaf _ holder [] nofun (.signal ⟨7⟩ 1 .delivered) rfl rfl).2, (htwice 20 (by decide)).1⟩

end Dispatcher

end ShortMessage
