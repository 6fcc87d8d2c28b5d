import Mathlib.Algebra.BigOperators.Group.Finset.Basic
import Mathlib.Data.Fintype.OfMap
import ShortMessage.Proofs.Tracker.Develop
import ShortMessage.Proofs.Tracker.Waiting

/-!
# What a tracker counts

A context that is live has reported its whole send or has not, and a report is counted when it is
made.  So the contexts that have not reported and the reports that were counted add up to the same
number, whatever a tracker hears of its messages (`Hears.tells`); a new context adds one, and a
sweep takes away those that it retires too early (`unreported_register`, `unreported_sweep`).

* `unreported`, `reportCount`: the two sides of the balance;
* `Tells`: what is counted while a tracker hears of a message;
* `retired`, `counters_sweep`: the contexts that a sweep retires;
* `Parted`: the live contexts have parts; `unreported_eq`: which of them have not reported.
-/

namespace ShortMessage

instance : Fintype SendResult :=
  .ofList [.success, .genericFailure, .radioOff, .nullPdu, .noService, .limitExceeded,
    .fdnCheckFailure, .timeout] fun result => by cases result <;> decide

/-! ### Counters of reports -/

/-- How often a whole send was reported, with whatever result. -/
def reportCount (ks : List Counter) : Nat :=
  ∑ result : SendResult, ks.count (.aggregateReported result)

theorem reportCount_append (ks ls : List Counter) :
    reportCount (ks ++ ls) = reportCount ks + reportCount ls := by
  unfold reportCount
  rw [← Finset.sum_add_distrib]
  exact Finset.sum_congr rfl fun result _ => List.count_append

theorem reportCount_perm {ks ls : List Counter} (h : ks.Perm ls) :
    reportCount ks = reportCount ls :=
  Finset.sum_congr rfl fun _ _ => h.count_eq _

theorem reportCount_eq_zero {ks : List Counter}
    (h : ∀ k ∈ ks, ∀ result, k ≠ .aggregateReported result) : reportCount ks = 0 :=
  Finset.sum_eq_zero fun result _ => List.count_eq_zero.2 fun hk => h _ hk result rfl

@[simp] theorem reportCount_nil : reportCount [] = 0 :=
  reportCount_eq_zero fun _ hk => (nomatch hk)

theorem reportCount_toList (result : Option SendResult) :
    reportCount (result.toList.map .aggregateReported) = result.toList.length := by
  cases result with
  | none => exact reportCount_nil
  | some result =>
    unfold reportCount
    rw [Finset.sum_eq_single result]
    · exact List.count_singleton_self
    · intro other _ hne
      refine List.count_eq_zero.2 fun hk => hne ?_
      exact Counter.aggregateReported.inj (List.mem_singleton.1 hk)
    · exact fun hno => absurd (Finset.mem_univ _) hno

/-- A counter that signals and settlements raise. -/
def Counter.OfSignals (k : Counter) : Prop :=
  (∃ kind, k = .staleSignal kind) ∨ ∃ result, k = .aggregateReported result

namespace Tracker

open Context

variable {t t' t'' : Tracker} {m n : MessageId} {c c' : Context} {new new' : List Counter}

/-- How many of the live contexts have not reported. -/
def unreported (t : Tracker) : Nat :=
  t.contexts.entries.countP fun x => !x.2.reported

/-! ### Hearing of one message -/

/-- A context that concludes stays unreported or reports now, unless it has reported before. -/
theorem Context.countP_remains_add (c : Context) :
    c.remains.toList.countP (!·.reported) + c.takeAggregate.2.toList.length =
      if c.reported then 0 else 1 := by
  unfold remains
  rcases takeAggregate_cases c with ⟨hwhy, h⟩ | ⟨hr, -, h⟩ <;> rw [h]
  · simp only
    split
    · next hret =>
      rw [if_pos (isRetirable_iff.1 hret).1]
      rfl
    · cases hr : c.reported <;> simp [hr]
  · rw [hr]
    simp only
    split <;> rfl

theorem entries_conclude (t : Tracker) (m : MessageId) (c : Context)
    (released : Option Token) :
    (t.conclude m c released).contexts.entries =
      (t.contexts.erase m).entries ++ c.remains.toList.map (m, ·) := by
  rw [conclude_eq]
  cases c.remains with
  | none => exact (List.append_nil _).symm
  | some c' => rfl

theorem unreported_conclude (hc : t.context? m = some c) (hr : c'.reported = c.reported)
    (released : Option Token) :
    (t.conclude m c' released).unreported + c'.takeAggregate.2.toList.length = t.unreported := by
  have hbefore := (Registry.entries_perm_of_get? hc).countP_eq fun x => !x.2.reported
  have hself := c'.countP_remains_add
  have hafter : (c'.remains.toList.map (m, ·)).countP (fun x => !x.2.reported) =
      c'.remains.toList.countP (!·.reported) := List.countP_map ..
  unfold unreported
  rw [entries_conclude, hbefore, List.countP_append, hafter, List.countP_cons, Nat.add_assoc,
    hself, hr]
  cases c.reported <;> rfl

/-- What is counted while a tracker hears of a message: stale signals, and one report for each
context that has reported since. -/
structure Tells (t : Tracker) (new : List Counter) (t' : Tracker) : Prop where
  counters : t'.counters = t.counters ++ new
  ofSignals : ∀ k ∈ new, k.OfSignals
  balance : t'.unreported + reportCount new = t.unreported

theorem Tells.refl (t : Tracker) : t.Tells [] t :=
  ⟨(List.append_nil _).symm, fun _ hk => (nomatch hk), by rw [reportCount_nil, Nat.add_zero]⟩

theorem Tells.trans (h : t.Tells new t') (h' : t'.Tells new' t'') :
    t.Tells (new ++ new') t'' := by
  refine ⟨by rw [h'.counters, h.counters, List.append_assoc], fun k hk => ?_, ?_⟩
  · rcases List.mem_append.1 hk with hk | hk
    · exact h.ofSignals k hk
    · exact h'.ofSignals k hk
  · rw [reportCount_append, ← h.balance, ← h'.balance]
    omega

theorem tells_stale (t : Tracker) (kind : StaleKind) :
    t.Tells [.staleSignal kind] (t.count (.staleSignal kind)) := by
  have hmem : ∀ k ∈ [Counter.staleSignal kind], k = .staleSignal kind :=
    fun k hk => List.mem_singleton.1 hk
  refine ⟨rfl, fun k hk => Or.inl ⟨kind, hmem k hk⟩, ?_⟩
  rw [reportCount_eq_zero fun k hk result => by rw [hmem k hk]; exact nofun]
  rfl

theorem tells_conclude (hc : t.context? m = some c) (hr : c'.reported = c.reported)
    (released : Option Token) :
    t.Tells (c'.takeAggregate.2.toList.map .aggregateReported) (t.conclude m c' released) := by
  refine ⟨counters_conclude _ _ _ _, fun k hk => ?_, ?_⟩
  · obtain ⟨result, -, rfl⟩ := List.mem_map.1 hk
    exact Or.inr ⟨result, rfl⟩
  · rw [reportCount_toList]
    exact unreported_conclude hc hr released

theorem Step.tells {e : Event} (h : Step t e t') (hm : e.message? = some m)
    (hreg : e.registration? = none) : ∃ new, t.Tells new t' := by
  cases h with
  | register now r => cases hreg
  | signal s hc hi => exact ⟨_, tells_conclude hc (signal_reported _ _ _) _⟩
  | staleSignal s hc => exact ⟨_, tells_stale t _⟩
  | settle indices result hc => exact ⟨_, tells_conclude hc (settle_reported _ indices result) _⟩
  | staleSettle indices result hc => exact ⟨_, tells_stale t _⟩
  | sweep now => cases hm

/-- **The balance**: whatever a tracker hears of a message, a context that has not reported any more
less is a report more. -/
theorem Hears.tells (h : t.Hears m t') : ∃ new, t.Tells new t' := by
  obtain ⟨es, hes, rfl⟩ := h
  induction es generalizing t with
  | nil => exact ⟨[], .refl t⟩
  | cons e es ih =>
    obtain ⟨hm, hreg⟩ := hes e List.mem_cons_self
    obtain ⟨new, hstep⟩ := (step_handle t e).tells hm hreg
    obtain ⟨new', hrest⟩ := ih fun e' he' => hes e' (List.mem_cons_of_mem _ he')
    exact ⟨new ++ new', hstep.trans hrest⟩

/-! ### Registrations and sweeps -/

theorem unreported_register {now : Int} {partCount : Nat}
    {sentTokens deliveredTokens : List Token} (hnew : t.context? m = none) :
    (t.register now m partCount sentTokens deliveredTokens).unreported = t.unreported + 1 := by
  unfold unreported
  show (t.contexts.insert m _).entries.countP _ = _
  rw [Registry.entries_insert, Registry.entries_erase_of_get?_none hnew, List.countP_append]
  rfl

/-- The contexts that a sweep retires. -/
def retired (t : Tracker) (now : Int) : List (MessageId × Context) :=
  t.contexts.entries.filter fun x => !(t.sweep now).2.isLive x.1

theorem retired_eq (t : Tracker) (now : Int) :
    t.retired now = t.contexts.entries.filter fun x => t.isExpired now x.2 := by
  refine List.filter_congr fun x hx => ?_
  have hafter := context?_sweep t now x.1
  rw [show t.context? x.1 = some x.2 from Registry.get?_of_mem hx, Option.filter_some] at hafter
  show (!((t.sweep now).2.context? x.1).isSome) = _
  rw [hafter]
  cases t.isExpired now x.2 <;> rfl

theorem counters_sweep (t : Tracker) (now : Int) :
    (t.sweep now).2.counters = t.counters ++ (t.retired now).map fun _ => .trackingTimeout := by
  rw [retired_eq]
  rfl

theorem unreported_sweep (t : Tracker) (now : Int) :
    (t.sweep now).2.unreported + (t.retired now).countP (fun x => !x.2.reported) =
      t.unreported := by
  rw [retired_eq]
  unfold unreported
  show (t.contexts.entries.filter fun x => !t.isExpired now x.2).countP _ + _ = _
  rw [List.countP_eq_countP_filter_add t.contexts.entries (fun x => !x.2.reported)
    fun x => t.isExpired now x.2]
  exact Nat.add_comm _ _

/-! ### The contexts that have not reported -/

/-- All live contexts of a tracker have parts. -/
def Parted (t : Tracker) : Prop :=
  ∀ m c, t.context? m = some c → c.parts ≠ []

theorem parted_conclude (h : t.Parted) {c : Context} (hc : c.parts ≠ []) (m : MessageId)
    (released : Option Token) : (t.conclude m c released).Parted := by
  intro n c' hc'
  rw [context?_conclude] at hc'
  split at hc'
  · obtain ⟨rfl, -⟩ := takeAggregate_eq_of_remains hc'
    rwa [takeAggregate_parts]
  · exact h n c' hc'

theorem Step.parted {e : Event} (hstep : Step t e t') (h : t.Parted)
    (hreg : ∀ r, e.registration? = some r → r.partCount ≠ 0) : t'.Parted := by
  cases hstep with
  | register now r =>
    intro n c hc
    rw [context?_register] at hc
    split at hc
    · obtain rfl := Option.some.inj hc
      intro hnone
      exact hreg r rfl ((List.replicate_eq_nil_iff _).1 hnone)
    · exact h n c hc
  | signal s hc hi =>
    refine parted_conclude h (fun hnone => h _ _ hc ?_) _ _
    rw [← List.length_eq_zero_iff] at hnone ⊢
    rwa [length_parts_signal] at hnone
  | staleSignal s hc => exact h
  | settle indices result hc =>
    exact parted_conclude h (fun hnone => h _ _ hc (List.mapIdx_eq_nil_iff.1 hnone)) _ _
  | staleSettle indices result hc => exact h
  | sweep now =>
    intro n c hc
    rw [context?_sweep, Option.filter_eq_some_iff] at hc
    exact h n c hc.1

theorem Hears.parted (h : t.Hears m t') (hp : t.Parted) : t'.Parted := by
  obtain ⟨es, hes, rfl⟩ := h
  induction es generalizing t with
  | nil => exact hp
  | cons e es ih =>
    have hstep := (step_handle t e).parted hp fun r hr => by
      rw [(hes e List.mem_cons_self).2] at hr
      cases hr
    exact ih hstep fun e' he' => hes e' (List.mem_cons_of_mem _ he')

theorem unreported_eq (hs : t.AllSound) (hp : t.Parted) :
    t.unreported = t.contexts.entries.countP fun x => .pending ∈ x.2.parts := by
  refine List.countP_congr fun x hx => ?_
  have hc := Registry.get?_of_mem hx
  rw [Bool.not_eq_true', decide_eq_true_eq]
  exact (hs _ _ hc).reported_eq_false_iff (hp _ _ hc)

end Tracker

end ShortMessage
