import ShortMessage.Proofs.Reordering
import ShortMessage.Proofs.Tracker.Account
import ShortMessage.Proofs.Tracker.Signals

/-!
# The order of signals does not matter

Signals about different parts commute, up to the order in which ends and counters are written down,
also when one of them retires the context and makes the other stale.  So a list of signals may be
reordered freely as long as the signals about each part keep their order (`signals_reordered`).

* `Alike`: trackers that differ in that order and in their stale signals only;
* `alike_signal_comm`: two signals about different parts.
-/

namespace ShortMessage

/-- Counts a signal that was too late. -/
def Counter.isStale : Counter → Bool
  | .staleSignal _ => true
  | _ => false

namespace Tracker

/-- A signal and the part it is about. -/
structure PartSignal where
  message : MessageId
  index : Nat
  signal : Signal
deriving DecidableEq

/-- The part that a signal is about. -/
def PartSignal.part (s : PartSignal) : MessageId × Nat :=
  (s.message, s.index)

/-- The signal as an event of a run. -/
def PartSignal.event (s : PartSignal) : Event :=
  .signal s.message s.index s.signal

/-- The counters other than those of stale signals. -/
def tally (t : Tracker) : List Counter :=
  t.counters.filter (!·.isStale)

/-- **Alike**: the same contexts, and the same ends and counters in some order, but for stale
signals. -/
structure Alike (t u : Tracker) : Prop where
  context? : ∀ id, t.context? id = u.context? id
  outcomes : t.outcomes.Perm u.outcomes
  tally : t.tally.Perm u.tally

variable {t u : Tracker} {m n : MessageId} {i j : Nat} {s r : Signal}

theorem alike_equivalence : Equivalence Alike where
  refl _ := ⟨fun _ => rfl, .refl _, .refl _⟩
  symm h := ⟨fun id => (h.context? id).symm, h.outcomes.symm, h.tally.symm⟩
  trans h h' :=
    ⟨fun id => (h.context? id).trans (h'.context? id), h.outcomes.trans h'.outcomes,
      h.tally.trans h'.tally⟩

/-! ### One signal -/

/-- The effect of a signal on the context of its message. -/
def heard (t : Tracker) (m : MessageId) (i : Nat) (s : Signal) : Context.Effect :=
  match t.context? m with
  | none => ⟨none, [], []⟩
  | some c => c.hear i s

theorem heard_of_context? {c : Context} (h : t.context? m = some c) (i : Nat) (s : Signal) :
    t.heard m i s = c.hear i s := by
  unfold heard
  rw [h]

theorem heard_of_context?_none (h : t.context? m = none) (i : Nat) (s : Signal) :
    t.heard m i s = ⟨none, [], []⟩ := by
  unfold heard
  rw [h]

theorem heard_congr (h : t.context? m = u.context? m) (i : Nat) (s : Signal) :
    t.heard m i s = u.heard m i s := by
  unfold heard
  rw [h]

theorem tally_conclude (t : Tracker) (m : MessageId) (c : Context) (released : Option Token) :
    (t.conclude m c released).tally =
      t.tally ++ c.takeAggregate.2.toList.map .aggregateReported := by
  unfold tally
  rw [counters_conclude, List.filter_append]
  refine congrArg (t.counters.filter _ ++ ·) (List.filter_eq_self.2 fun k hk => ?_)
  obtain ⟨result, -, rfl⟩ := List.mem_map.1 hk
  rfl

theorem signal_heard (t : Tracker) (m : MessageId) (i : Nat) (s : Signal) :
    (∀ id, (t.signal m i s).context? id =
      if id = m then (t.heard m i s).context else t.context? id) ∧
    (t.signal m i s).outcomes = t.outcomes ++ (t.heard m i s).ends ∧
    (t.signal m i s).tally = t.tally ++ (t.heard m i s).reports.map .aggregateReported := by
  have hstale : ∀ k, (t.count (.staleSignal k)).tally = t.tally := fun k => by
    simp [tally, count, Counter.isStale]
  cases hm : t.context? m with
  | none =>
    rw [signal_stale (by simp [hm]), heard_of_context?_none hm, hstale]
    refine ⟨fun id => ?_, by simp [count], by simp⟩
    rw [context?_count]
    split
    · next h => rw [h, hm]
    · rfl
  | some c =>
    rw [heard_of_context? hm]
    by_cases hi : i < c.parts.length
    · rw [signal_eq hm hi, Context.hear, if_pos hi]
      exact ⟨fun id => context?_conclude t m _ _ id, outcomes_conclude t m _ _,
        tally_conclude t m _ _⟩
    · rw [signal_stale (by simpa [hm] using hi), Context.hear, if_neg hi, hstale]
      refine ⟨fun id => ?_, by simp [count], by simp⟩
      rw [context?_count]
      split
      · next h => rw [h, hm]
      · rfl

theorem context?_signal (t : Tracker) (m : MessageId) (i : Nat) (s : Signal) (id : MessageId) :
    (t.signal m i s).context? id = if id = m then (t.heard m i s).context else t.context? id :=
  (signal_heard t m i s).1 id

theorem outcomes_signal (t : Tracker) (m : MessageId) (i : Nat) (s : Signal) :
    (t.signal m i s).outcomes = t.outcomes ++ (t.heard m i s).ends :=
  (signal_heard t m i s).2.1

theorem tally_signal (t : Tracker) (m : MessageId) (i : Nat) (s : Signal) :
    (t.signal m i s).tally = t.tally ++ (t.heard m i s).reports.map .aggregateReported :=
  (signal_heard t m i s).2.2

theorem Alike.signal (h : t.Alike u) (m : MessageId) (i : Nat) (s : Signal) :
    (t.signal m i s).Alike (u.signal m i s) := by
  have hheard := heard_congr (h.context? m) i s
  refine ⟨fun id => ?_, ?_, ?_⟩
  · rw [context?_signal, context?_signal, hheard, h.context? id]
  · rw [outcomes_signal, outcomes_signal, hheard]
    exact h.outcomes.append_right _
  · rw [tally_signal, tally_signal, hheard]
    exact h.tally.append_right _

/-! ### Two signals -/

theorem heard_signal_self (t : Tracker) (m : MessageId) (i j : Nat) (s r : Signal) :
    ((t.signal m i s).heard m j r).after (t.heard m i s).ends (t.heard m i s).reports =
      (t.heard m i s).andThen (Context.hear j r) := by
  have hafter := context?_signal t m i s m
  rw [if_pos rfl] at hafter
  cases hc : (t.heard m i s).context with
  | none =>
    rw [heard_of_context?_none (hafter.trans hc), Context.Effect.andThen_none hc, ← hc]
    simp [Context.Effect.after]
  | some c =>
    rw [heard_of_context? (hafter.trans hc), Context.Effect.andThen_some hc]

theorem heard_signal_of_ne (t : Tracker) (h : n ≠ m) (i j : Nat) (s r : Signal) :
    (t.signal m i s).heard n j r = t.heard n j r :=
  heard_congr (by rw [context?_signal, if_neg h]) j r

theorem heard_comm (h : t.AllSound) (hij : i ≠ j) (m : MessageId) (s r : Signal) :
    ((t.heard m i s).andThen (Context.hear j r)).Same
      ((t.heard m j r).andThen (Context.hear i s)) := by
  cases hm : t.context? m with
  | none =>
    rw [heard_of_context?_none hm, heard_of_context?_none hm, Context.Effect.andThen_none rfl,
      Context.Effect.andThen_none rfl]
    exact .refl _
  | some c =>
    rw [heard_of_context? hm, heard_of_context? hm]
    exact Context.hear_comm (h m c hm).toConsistent hij s r

theorem alike_of_same
    (h : (((t.signal m i s).heard m j r).after (t.heard m i s).ends (t.heard m i s).reports).Same
      (((t.signal m j r).heard m i s).after (t.heard m j r).ends (t.heard m j r).reports)) :
    ((t.signal m i s).signal m j r).Alike ((t.signal m j r).signal m i s) := by
  refine ⟨fun id => ?_, ?_, ?_⟩
  · simp only [context?_signal]
    split
    · exact h.context
    · rfl
  · simp only [outcomes_signal, List.append_assoc]
    exact h.ends.append_left _
  · simp only [tally_signal, List.append_assoc, ← List.map_append]
    exact (h.reports.map _).append_left _

/-- **Signals about different parts commute**, up to the order of what they write down. -/
theorem alike_signal_comm (h : t.AllSound) (hne : (m, i) ≠ (n, j)) (s r : Signal) :
    ((t.signal m i s).signal n j r).Alike ((t.signal n j r).signal m i s) := by
  by_cases hmn : m = n
  · subst hmn
    have hij : i ≠ j := fun hij => hne (by rw [hij])
    refine alike_of_same ?_
    rw [heard_signal_self, heard_signal_self]
    exact heard_comm h hij m s r
  · refine ⟨fun id => ?_, ?_, ?_⟩
    · simp only [context?_signal, heard_signal_of_ne t hmn, heard_signal_of_ne t (Ne.symm hmn)]
      split
      · next hid => rw [if_neg (by rw [hid]; exact Ne.symm hmn)]
      · rfl
    · simp only [outcomes_signal, heard_signal_of_ne t hmn, heard_signal_of_ne t (Ne.symm hmn),
        List.append_assoc]
      exact List.perm_append_comm.append_left _
    · simp only [tally_signal, heard_signal_of_ne t hmn, heard_signal_of_ne t (Ne.symm hmn),
        List.append_assoc]
      exact List.perm_append_comm.append_left _

theorem commuting_signals :
    Commuting PartSignal.part (fun t s => Tracker.signal t s.message s.index s.signal) AllSound
      Alike where
  equivalence := alike_equivalence
  inv_step s h := (step_handle _ s.event).allSound h
  congr s h := h.signal s.message s.index s.signal
  comm h hne := alike_signal_comm h hne _ _

/-! ### Lists of signals -/

theorem run_signals (t : Tracker) (l : List PartSignal) :
    t.run (l.map PartSignal.event) =
      l.foldl (fun t s => Tracker.signal t s.message s.index s.signal) t := by
  unfold run
  rw [List.foldl_map]
  rfl

theorem handed_signals (es : List Event) (l : List PartSignal) :
    handed (es ++ l.map PartSignal.event) = handed es := by
  have hnil : registrations (l.map PartSignal.event) = [] := by
    unfold registrations
    rw [List.filterMap_map, List.filterMap_eq_nil_iff]
    exact fun _ _ => rfl
  rw [handed_append]
  unfold handed
  rw [hnil, List.flatMap_nil, List.append_nil]

theorem fates_perm (h : t.Alike u) (τ : Token) : (t.fates τ).Perm (u.fates τ) :=
  (h.outcomes.filter _).map _

theorem mem_held_congr (h : t.Alike u) (τ : Token) : τ ∈ t.held ↔ τ ∈ u.held := by
  rw [mem_held, mem_held]
  simp only [h.context?]

theorem length_fates_le_one (timeout : Nat) {es : List Event} (h : (handed es).Nodup) (τ : Token) :
    (((new timeout).run es).fates τ).length ≤ 1 := by
  have hbalance := (account_new_run timeout es).count_eq τ
  have hone := List.nodup_iff_count_le_one.1 h τ
  unfold account at hbalance
  rw [List.count_append, ← length_fates] at hbalance
  omega

theorem fates_eq_of_perm {l₁ l₂ : List Outcome} (h : l₁.Perm l₂) (hlen : l₁.length ≤ 1) :
    l₁ = l₂ := by
  match l₁, hlen with
  | [], _ => exact h.nil_eq
  | [o], _ => exact (List.singleton_perm.1 h).symm ▸ rfl

/-- **The order of signals does not matter.**  From any state that a run reaches, two lists of
signals that are reorderings of each other, with the signals about each part in their order, leave
the same contexts; every token is held or has the same ends; and the counters agree, but for those
of stale signals.  If no token was handed over twice, the end of each is the same. -/
theorem signals_reordered (timeout : Nat) (es : List Event) {l₁ l₂ : List PartSignal}
    (h : Reordering PartSignal.part l₁ l₂) :
    let t₁ := ((new timeout).run es).run (l₁.map PartSignal.event)
    let t₂ := ((new timeout).run es).run (l₂.map PartSignal.event)
    (∀ id, t₁.context? id = t₂.context? id) ∧
    (∀ τ, (τ ∈ t₁.held ↔ τ ∈ t₂.held) ∧ (t₁.fates τ).Perm (t₂.fates τ)) ∧
    ((handed es).Nodup → ∀ τ, t₁.fates τ = t₂.fates τ) ∧
    ∀ k : Counter, (∀ kind, k ≠ .staleSignal kind) → t₁.counters.count k = t₂.counters.count k := by
  intro t₁ t₂
  have halike : t₁.Alike t₂ := by
    show (Tracker.run _ _).Alike (Tracker.run _ _)
    rw [run_signals, run_signals]
    exact commuting_signals.foldl_reordering h (sound_of_run timeout es)
  refine ⟨halike.context?, fun τ => ⟨mem_held_congr halike τ, fates_perm halike τ⟩, ?_, ?_⟩
  · intro hnd τ
    refine fates_eq_of_perm (fates_perm halike τ) ?_
    show (fates (Tracker.run _ _) τ).length ≤ 1
    rw [← run_append]
    exact length_fates_le_one timeout (by rwa [handed_signals]) τ
  · intro k hk
    have hlasting : (!k.isStale) = true := by
      cases k with
      | staleSignal kind => exact absurd rfl (hk kind)
      | _ => rfl
    have hcount : ∀ t : Tracker, t.tally.count k = t.counters.count k :=
      fun t => List.count_filter hlasting
    rw [← hcount, ← hcount]
    exact halike.tally.count_eq k

/-- Two parts: the first is sent and delivered, the second fails. -/
def sentDeliveredFailed : List PartSignal :=
  [⟨⟨7⟩, 0, .sent .success⟩, ⟨⟨7⟩, 0, .delivered⟩, ⟨⟨7⟩, 1, .sent .radioOff⟩]

/-- The failure may come first: the sent token is fired with it all the same. -/
theorem signals_reordered_failure_first :
    let es : List Event := [.register 0 ⟨⟨7⟩, 2, [⟨1⟩], [⟨2⟩, ⟨3⟩]⟩]
    let l : List PartSignal :=
      [⟨⟨7⟩, 1, .sent .radioOff⟩, ⟨⟨7⟩, 0, .sent .success⟩, ⟨⟨7⟩, 0, .delivered⟩]
    Reordering PartSignal.part sentDeliveredFailed l ∧
      (((new 300).run es).run (l.map PartSignal.event)).fates ⟨1⟩ = [.fired .radioOff] := by
  intro es l
  have h : Reordering PartSignal.part sentDeliveredFailed l := by decide
  refine ⟨h, ?_⟩
  rw [← (signals_reordered 300 es h).2.2.1 (by decide) ⟨1⟩]
  decide

end Tracker

end ShortMessage
