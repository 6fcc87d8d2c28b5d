import ShortMessage.Proofs.Registry
import ShortMessage.Proofs.Tracker.Context

/-!
# Runs of a tracker

Every call on a tracker is an `Event`, and a run is a list of events handled one after the other.
`Step` says once what an event can do; invariants are proved by cases on it.

* `Event`, `handle`, `run`: the calls and their runs;
* `step_handle`: what an event does;
* `context?_conclude`, `outcomes_conclude`, `counters_conclude`: the end of a step on a context;
* `sound_of_run`: every live context of a run is sound.
-/

namespace ShortMessage.Tracker

/-- What a tracker is told when it opens a context. -/
structure Registration where
  message : MessageId
  partCount : Nat
  sentTokens : List Token
  deliveredTokens : List Token
deriving DecidableEq

namespace Registration

/-- The tokens that a registration hands over. -/
def tokens (r : Registration) : List Token :=
  r.sentTokens ++ r.deliveredTokens

/-- The tokens of a registration that its context does not take. -/
def surplus (r : Registration) : List Token :=
  Tracker.surplus r.partCount r.sentTokens r.deliveredTokens

/-- The context that a registration opens. -/
def opened (r : Registration) (now : Int) : Context :=
  .opened now r.partCount r.sentTokens r.deliveredTokens

end Registration

/-- A call on a tracker. -/
inductive Event
  | register (now : Int) (r : Registration)
  | signal (message : MessageId) (index : Nat) (signal : Signal)
  | settle (message : MessageId) (indices : List Nat) (result : SendResult)
  | sweep (now : Int)
deriving DecidableEq

/-- The registration that an event is. -/
def Event.registration? : Event → Option Registration
  | .register _ r => some r
  | _ => none

/-- The message that an event is about; a sweep is about all. -/
def Event.message? : Event → Option MessageId
  | .register _ r => some r.message
  | .signal message .. | .settle message .. => some message
  | .sweep _ => none

/-- The registrations of a run, in their order. -/
def registrations (es : List Event) : List Registration :=
  es.filterMap Event.registration?

/-- What one event makes of a tracker. -/
def handle (t : Tracker) : Event → Tracker
  | .register now r => t.register now r.message r.partCount r.sentTokens r.deliveredTokens
  | .signal message index s => t.signal message index s
  | .settle message indices result => (t.settle message indices result).2
  | .sweep now => (t.sweep now).2

/-- A tracker after a list of events. -/
def run (t : Tracker) (es : List Event) : Tracker :=
  es.foldl handle t

variable {t : Tracker}

@[simp] theorem run_nil (t : Tracker) : t.run [] = t := rfl

theorem run_cons (t : Tracker) (e : Event) (es : List Event) :
    t.run (e :: es) = (t.handle e).run es := rfl

theorem run_append (t : Tracker) (es fs : List Event) :
    t.run (es ++ fs) = (t.run es).run fs :=
  List.foldl_append

theorem run_concat (t : Tracker) (es : List Event) (e : Event) :
    t.run (es ++ [e]) = (t.run es).handle e := by
  rw [run_append, run_cons, run_nil]

theorem registrations_append (es fs : List Event) :
    registrations (es ++ fs) = registrations es ++ registrations fs :=
  List.filterMap_append

/-! ### What an event does -/

/-- **What an event does**: a registration opens a context, a sweep retires old ones, a signal or a
settlement is stale or changes one context, which then concludes. -/
inductive Step (t : Tracker) : Event → Tracker → Prop
  | register (now : Int) (r : Registration) :
    Step t (.register now r)
      (t.register now r.message r.partCount r.sentTokens r.deliveredTokens)
  | signal {message : MessageId} {c : Context} {index : Nat} (s : Signal)
      (hc : t.context? message = some c) (hi : index < c.parts.length) :
    Step t (.signal message index s)
      (t.conclude message (c.signal index s).1 (c.signal index s).2)
  | staleSignal {message : MessageId} {index : Nat} (s : Signal)
      (hc : ∀ c, t.context? message = some c → c.parts.length ≤ index) :
    Step t (.signal message index s) (t.count (.staleSignal (staleKind s)))
  | settle {message : MessageId} {c : Context} (indices : List Nat) (result : SendResult)
      (hc : t.context? message = some c) :
    Step t (.settle message indices result)
      (t.conclude message (c.settle indices result) none)
  | staleSettle {message : MessageId} (indices : List Nat) (result : SendResult)
      (hc : t.context? message = none) :
    Step t (.settle message indices result) (t.count (.staleSignal .settle))
  | sweep (now : Int) : Step t (.sweep now) (t.sweep now).2

theorem signal_eq {message : MessageId} {c : Context} {index : Nat}
    (hc : t.context? message = some c) (hi : index < c.parts.length) (s : Signal) :
    t.signal message index s = t.conclude message (c.signal index s).1 (c.signal index s).2 := by
  unfold Tracker.signal
  simp only [hc]
  rw [if_pos hi]

theorem signal_stale {message : MessageId} {index : Nat}
    (hc : ∀ c, t.context? message = some c → c.parts.length ≤ index) (s : Signal) :
    t.signal message index s = t.count (.staleSignal (staleKind s)) := by
  unfold Tracker.signal
  cases hm : t.context? message with
  | none => rfl
  | some c => exact if_neg (Nat.not_lt.2 (hc c hm))

theorem settle_eq {message : MessageId} {c : Context} (hc : t.context? message = some c)
    (indices : List Nat) (result : SendResult) :
    (t.settle message indices result).2 =
      t.conclude message (c.settle indices result) none := by
  unfold Tracker.settle
  rw [hc]

theorem settle_stale {message : MessageId} (hc : t.context? message = none)
    (indices : List Nat) (result : SendResult) :
    (t.settle message indices result).2 = t.count (.staleSignal .settle) := by
  unfold Tracker.settle
  rw [hc]

theorem step_handle (t : Tracker) (e : Event) : Step t e (t.handle e) := by
  cases e with
  | register now r => exact .register now r
  | signal message index s =>
    show Step t _ (t.signal message index s)
    by_cases h : ∃ c, t.context? message = some c ∧ index < c.parts.length
    · obtain ⟨c, hc, hi⟩ := h
      rw [signal_eq hc hi]
      exact .signal s hc hi
    · have hc : ∀ c, t.context? message = some c → c.parts.length ≤ index :=
        fun c hc => Nat.not_lt.1 fun hi => h ⟨c, hc, hi⟩
      rw [signal_stale hc]
      exact .staleSignal s hc
  | settle message indices result =>
    show Step t _ (t.settle message indices result).2
    cases hc : t.context? message with
    | none =>
      rw [settle_stale hc]
      exact .staleSettle indices result hc
    | some c =>
      rw [settle_eq hc]
      exact .settle indices result hc
  | sweep now => exact .sweep now

/-! ### The end of a step on a context -/

theorem conclude_eq (t : Tracker) (message : MessageId) (c : Context) (released : Option Token) :
    t.conclude message c released =
      { timeout := t.timeout
        contexts :=
          match c.remains with
          | none => t.contexts.erase message
          | some c' => t.contexts.insert message c'
        outcomes := t.outcomes ++ (released.toList.map (Token.fire .success) ++ c.conclusion)
        counters := t.counters ++ c.takeAggregate.2.toList.map .aggregateReported } := by
  unfold conclude Context.remains Context.conclusion
  rcases Context.takeAggregate_cases c with ⟨-, h⟩ | ⟨-, -, h⟩ <;> rw [h] <;>
    simp only <;> split <;> simp [resolve, count]

theorem outcomes_conclude (t : Tracker) (message : MessageId) (c : Context)
    (released : Option Token) :
    (t.conclude message c released).outcomes =
      t.outcomes ++ (released.toList.map (Token.fire .success) ++ c.conclusion) := by
  rw [conclude_eq]

theorem counters_conclude (t : Tracker) (message : MessageId) (c : Context)
    (released : Option Token) :
    (t.conclude message c released).counters =
      t.counters ++ c.takeAggregate.2.toList.map .aggregateReported := by
  rw [conclude_eq]

theorem context?_conclude (t : Tracker) (message : MessageId) (c : Context)
    (released : Option Token) (j : MessageId) :
    (t.conclude message c released).context? j =
      if j = message then c.remains else t.context? j := by
  rw [conclude_eq]
  unfold context?
  cases c.remains with
  | none => exact Registry.get?_erase _ _ _
  | some c' => exact Registry.get?_insert _ _ _ _

theorem context?_register (t : Tracker) (now : Int) (message : MessageId) (partCount : Nat)
    (sentTokens deliveredTokens : List Token) (j : MessageId) :
    (t.register now message partCount sentTokens deliveredTokens).context? j =
      if j = message then some (.opened now partCount sentTokens deliveredTokens)
      else t.context? j :=
  Registry.get?_insert _ _ _ _

theorem context?_sweep (t : Tracker) (now : Int) (j : MessageId) :
    (t.sweep now).2.context? j = (t.context? j).filter fun c => !t.isExpired now c :=
  Registry.get?_retain _ _ _

@[simp] theorem context?_count (t : Tracker) (k : Counter) (j : MessageId) :
    (t.count k).context? j = t.context? j := rfl

theorem timeout_handle (t : Tracker) (e : Event) : (t.handle e).timeout = t.timeout := by
  have hstep := step_handle t e
  generalize t.handle e = t' at hstep
  cases hstep with
  | register now r => rfl
  | signal s hc hi => rw [conclude_eq]
  | staleSignal s hc => rfl
  | settle indices result hc => rw [conclude_eq]
  | staleSettle indices result hc => rfl
  | sweep now => rfl

theorem timeout_run (t : Tracker) (es : List Event) : (t.run es).timeout = t.timeout := by
  induction es generalizing t with
  | nil => rfl
  | cons e es ih => rw [run_cons, ih, timeout_handle]

theorem Step.context?_of_ne {e : Event} {t' : Tracker} (h : Step t e t') {j m : MessageId}
    (he : e.message? = some m) (hj : j ≠ m) : t'.context? j = t.context? j := by
  cases h with
  | register now r =>
    obtain rfl := Option.some.inj he
    rw [context?_register, if_neg hj]
  | signal s hc hi =>
    obtain rfl := Option.some.inj he
    rw [context?_conclude, if_neg hj]
  | staleSignal s hc => rfl
  | settle indices result hc =>
    obtain rfl := Option.some.inj he
    rw [context?_conclude, if_neg hj]
  | staleSettle indices result hc => rfl
  | sweep now => cases he

/-! ### Live contexts are sound -/

/-- All live contexts of a tracker are sound. -/
def AllSound (t : Tracker) : Prop :=
  ∀ id c, t.context? id = some c → c.Sound

theorem allSound_new (timeout : Nat) : (new timeout).AllSound :=
  fun _ _ h => by cases h

theorem allSound_conclude (h : t.AllSound) (message : MessageId) {c : Context}
    (hc : c.Consistent) (released : Option Token) :
    (t.conclude message c released).AllSound := by
  intro id c' hc'
  rw [context?_conclude] at hc'
  split at hc'
  · exact Context.sound_of_remains hc hc'
  · exact h id c' hc'

theorem Step.allSound {e : Event} {t' : Tracker} (hstep : Step t e t') (h : t.AllSound) :
    t'.AllSound := by
  cases hstep with
  | register now r =>
    intro id c hc
    rw [context?_register] at hc
    split at hc
    · obtain rfl := Option.some.inj hc
      exact Context.sound_opened _ _ _ _
    · exact h id c hc
  | signal s hc hi =>
    exact allSound_conclude h _ (Context.consistent_signal (h _ _ hc).toConsistent _ s) _
  | staleSignal s hc => exact h
  | settle indices result hc =>
    exact allSound_conclude h _ (Context.consistent_settle (h _ _ hc).toConsistent indices result) _
  | staleSettle indices result hc => exact h
  | sweep now =>
    intro id c hc
    rw [context?_sweep, Option.filter_eq_some_iff] at hc
    exact h id c hc.1

theorem allSound_run (h : t.AllSound) (es : List Event) : (t.run es).AllSound := by
  induction es generalizing t with
  | nil => exact h
  | cons e es ih => exact ih ((step_handle t e).allSound h)

theorem sound_of_run (timeout : Nat) (es : List Event) : ((new timeout).run es).AllSound :=
  allSound_run (allSound_new timeout) es

end ShortMessage.Tracker
