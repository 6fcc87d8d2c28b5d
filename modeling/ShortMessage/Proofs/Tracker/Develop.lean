import ShortMessage.Proofs.Tracker.Run

/-!
# What happens to a tracker between registrations

Without a registration no part becomes pending and no context opens.  A tracker `Develops` into
another by any events that register nothing; most of the time it just `Hears` of one message.

* `Pending`: a part of a live context that has no send result yet;
* `Hears`: signals about one message, and settlements of it;
* `Develops.pending`, `Develops.context?_none`: both only come to an end;
* `not_pending_signal`, `not_pending_settle`: what brings a pending part to its end.
-/

namespace ShortMessage.Tracker

/-- A part of a live context that has no send result yet. -/
def Pending (t : Tracker) (m : MessageId) (i : Nat) : Prop :=
  ∃ c, t.context? m = some c ∧ c.parts[i]? = some .pending

/-- `t'` comes from `t` by events that register nothing. -/
def Develops (t t' : Tracker) : Prop :=
  ∃ es, registrations es = [] ∧ t' = t.run es

variable {t t' t'' : Tracker} {m n : MessageId} {i j : Nat}

theorem pending_iff {c : Context} (hc : t.context? m = some c) :
    t.Pending m i ↔ c.parts[i]? = some .pending := by
  unfold Pending
  rw [hc]
  simp

theorem Develops.refl (t : Tracker) : t.Develops t :=
  ⟨[], rfl, rfl⟩

theorem Develops.trans (h : t.Develops t') (h' : t'.Develops t'') : t.Develops t'' := by
  obtain ⟨es, hes, rfl⟩ := h
  obtain ⟨fs, hfs, rfl⟩ := h'
  refine ⟨es ++ fs, ?_, (run_append t es fs).symm⟩
  rw [registrations_append, hes, hfs, List.append_nil]

theorem develops_sweep (t : Tracker) (now : Int) : t.Develops (t.sweep now).2 :=
  ⟨[.sweep now], rfl, rfl⟩

/-! ### Hearing of one message -/

/-- `t'` comes from `t` by signals about one message and settlements of it. -/
def Hears (t : Tracker) (m : MessageId) (t' : Tracker) : Prop :=
  ∃ es, (∀ e ∈ es, e.message? = some m ∧ e.registration? = none) ∧ t' = t.run es

theorem Hears.refl (t : Tracker) (m : MessageId) : t.Hears m t :=
  ⟨[], fun _ he => (nomatch he), rfl⟩

theorem Hears.trans (h : t.Hears m t') (h' : t'.Hears m t'') : t.Hears m t'' := by
  obtain ⟨es, hes, rfl⟩ := h
  obtain ⟨fs, hfs, rfl⟩ := h'
  refine ⟨es ++ fs, fun e he => ?_, (run_append t es fs).symm⟩
  rcases List.mem_append.1 he with he | he
  · exact hes e he
  · exact hfs e he

theorem hears_handle (t : Tracker) {e : Event} (he : e.message? = some m)
    (hreg : e.registration? = none) : t.Hears m (t.handle e) :=
  ⟨[e], fun _ h => List.mem_singleton.1 h ▸ ⟨he, hreg⟩, rfl⟩

theorem hears_signal (t : Tracker) (m : MessageId) (i : Nat) (s : Signal) :
    t.Hears m (t.signal m i s) :=
  hears_handle t (e := .signal m i s) rfl rfl

theorem hears_settle (t : Tracker) (m : MessageId) (indices : List Nat) (result : SendResult) :
    t.Hears m (t.settle m indices result).2 :=
  hears_handle t (e := .settle m indices result) rfl rfl

theorem hears_callBack (t : Tracker) (b : Callback) (s : Signal) :
    t.Hears b.message (t.callBack b s) := by
  unfold callBack
  split
  · exact hears_signal t _ _ s
  · exact .refl t _

theorem hears_foldl_signal {α : Type} (l : List α) (m : MessageId) (index : α → Nat)
    (s : Signal) (t : Tracker) : t.Hears m (l.foldl (fun t a => t.signal m (index a) s) t) := by
  induction l generalizing t with
  | nil => exact .refl t m
  | cons a l ih => exact (hears_signal t m _ s).trans (ih _)

theorem Hears.develops (h : t.Hears m t') : t.Develops t' := by
  obtain ⟨es, hes, rfl⟩ := h
  exact ⟨es, List.filterMap_eq_nil_iff.2 fun e he => (hes e he).2, rfl⟩

theorem develops_signal (t : Tracker) (m : MessageId) (i : Nat) (s : Signal) :
    t.Develops (t.signal m i s) :=
  (hears_signal t m i s).develops

theorem develops_settle (t : Tracker) (m : MessageId) (indices : List Nat) (result : SendResult) :
    t.Develops (t.settle m indices result).2 :=
  (hears_settle t m indices result).develops

theorem develops_callBack (t : Tracker) (b : Callback) (s : Signal) :
    t.Develops (t.callBack b s) :=
  (hears_callBack t b s).develops

/-! ### Pending parts -/

theorem pending_conclude {c : Context} {released : Option Token}
    (h : (t.conclude m c released).Pending n j) :
    (n = m ∧ c.parts[j]? = some .pending) ∨ (n ≠ m ∧ t.Pending n j) := by
  obtain ⟨c', hc', hp⟩ := h
  rw [context?_conclude] at hc'
  split at hc'
  · next hn =>
    obtain ⟨rfl, -⟩ := Context.takeAggregate_eq_of_remains hc'
    rw [Context.takeAggregate_parts] at hp
    exact Or.inl ⟨hn, hp⟩
  · next hn => exact Or.inr ⟨hn, c', hc', hp⟩

theorem Step.pending {e : Event} (h : Step t e t')
    (he : ∀ r, e.registration? = some r → r.message ≠ n) (hp : t'.Pending n j) :
    t.Pending n j := by
  cases h with
  | register now r =>
    obtain ⟨c, hc, hp⟩ := hp
    rw [context?_register, if_neg (Ne.symm (he r rfl))] at hc
    exact ⟨c, hc, hp⟩
  | signal s hc hi =>
    rcases pending_conclude hp with ⟨rfl, hpart⟩ | ⟨-, hother⟩
    · exact ⟨_, hc, Context.pending_of_signal hpart⟩
    · exact hother
  | staleSignal s hc => exact hp
  | settle indices result hc =>
    rcases pending_conclude hp with ⟨rfl, hpart⟩ | ⟨-, hother⟩
    · exact ⟨_, hc, (Context.pending_of_settle hpart).1⟩
    · exact hother
  | staleSettle indices result hc => exact hp
  | sweep now =>
    obtain ⟨c, hc, hp⟩ := hp
    rw [context?_sweep, Option.filter_eq_some_iff] at hc
    exact ⟨c, hc.1, hp⟩

theorem Step.context?_none {e : Event} (h : Step t e t')
    (he : ∀ r, e.registration? = some r → r.message ≠ n) (hn : t.context? n = none) :
    t'.context? n = none := by
  cases h with
  | register now r => rw [context?_register, if_neg (Ne.symm (he r rfl)), hn]
  | @signal m c i s hc hi =>
    rw [context?_conclude, if_neg, hn]
    rintro rfl
    rw [hn] at hc
    cases hc
  | staleSignal s hc => exact hn
  | @settle m c indices result hc =>
    rw [context?_conclude, if_neg, hn]
    rintro rfl
    rw [hn] at hc
    cases hc
  | staleSettle indices result hc => exact hn
  | sweep now => rw [context?_sweep, hn, Option.filter_none]

theorem registrations_cons (e : Event) (es : List Event) :
    registrations (e :: es) = e.registration?.toList ++ registrations es := by
  unfold registrations
  cases he : e.registration? <;> simp [he]

theorem pending_run {es : List Event} (h : ∀ r ∈ registrations es, r.message ≠ n)
    (hp : (t.run es).Pending n j) : t.Pending n j := by
  induction es generalizing t with
  | nil => exact hp
  | cons e es ih =>
    rw [registrations_cons] at h
    refine (step_handle t e).pending (fun r hr => h r ?_) (ih (fun r hr => h r ?_) hp)
    · exact List.mem_append_left _ (Option.mem_toList.2 hr)
    · exact List.mem_append_right _ hr

theorem context?_none_run {es : List Event} (h : ∀ r ∈ registrations es, r.message ≠ n)
    (hn : t.context? n = none) : (t.run es).context? n = none := by
  induction es generalizing t with
  | nil => exact hn
  | cons e es ih =>
    rw [registrations_cons] at h
    refine ih (fun r hr => h r ?_) ((step_handle t e).context?_none (fun r hr => h r ?_) hn)
    · exact List.mem_append_right _ hr
    · exact List.mem_append_left _ (Option.mem_toList.2 hr)

/-- **No part becomes pending** without a registration. -/
theorem Develops.pending (h : t.Develops t') (hp : t'.Pending n j) : t.Pending n j := by
  obtain ⟨es, hes, rfl⟩ := h
  exact pending_run (fun r hr => by rw [hes] at hr; cases hr) hp

/-- **No context opens** without a registration. -/
theorem Develops.context?_none (h : t.Develops t') (hn : t.context? n = none) :
    t'.context? n = none := by
  obtain ⟨es, hes, rfl⟩ := h
  exact context?_none_run (fun r hr => by rw [hes] at hr; cases hr) hn

theorem Pending.isLive (h : t.Pending m i) : t.isLive m = true := by
  obtain ⟨c, hc, -⟩ := h
  exact Registry.contains_eq_true_iff.2 ⟨c, hc⟩

theorem pending_register {now : Int} {partCount : Nat} {sentTokens deliveredTokens : List Token}
    (h : (t.register now m partCount sentTokens deliveredTokens).Pending n j) :
    (n = m ∧ j < partCount) ∨ (n ≠ m ∧ t.Pending n j) := by
  obtain ⟨c, hc, hp⟩ := h
  rw [context?_register] at hc
  split at hc
  · next hn =>
    obtain rfl := Option.some.inj hc
    refine Or.inl ⟨hn, ?_⟩
    have := (List.getElem?_eq_some_iff.1 hp).1
    simpa [Context.opened] using this
  · next hn => exact Or.inr ⟨hn, c, hc, hp⟩

/-! ### Ends of pending parts -/

theorem not_pending_signal (t : Tracker) (m : MessageId) (i : Nat) (result : SendResult) :
    ¬ (t.signal m i (.sent result)).Pending m i := by
  intro h
  have hbefore := (develops_signal t m i (.sent result)).pending h
  obtain ⟨c, hc, hp⟩ := hbefore
  have hi : i < c.parts.length := (List.getElem?_eq_some_iff.1 hp).1
  rw [signal_eq hc hi] at h
  rcases pending_conclude h with ⟨-, h⟩ | ⟨h, -⟩
  · rw [Context.signal, if_pos hp, List.getElem?_set_self hi] at h
    exact Context.ofResult_ne_pending result (Option.some.inj h)
  · exact h rfl

theorem not_pending_foldl_signal {α : Type} {l : List α} (index : α → Nat) {a : α} (ha : a ∈ l)
    (t : Tracker) (m : MessageId) (result : SendResult) :
    ¬ (l.foldl (fun t a => t.signal m (index a) (.sent result)) t).Pending m (index a) := by
  obtain ⟨l₁, l₂, rfl⟩ := List.append_of_mem ha
  intro h
  rw [List.foldl_append, List.foldl_cons] at h
  exact not_pending_signal _ m (index a) result
    ((hears_foldl_signal l₂ m index _ _).develops.pending h)

theorem not_pending_settle {indices : List Nat} (hi : i ∈ indices) (t : Tracker) (m : MessageId)
    (result : SendResult) : ¬ (t.settle m indices result).2.Pending m i := by
  intro h
  cases hc : t.context? m with
  | none =>
    obtain ⟨c, hc', -⟩ := (develops_settle t m indices result).pending h
    rw [hc] at hc'
    cases hc'
  | some c =>
    rw [settle_eq hc] at h
    rcases pending_conclude h with ⟨-, h⟩ | ⟨h, -⟩
    · exact (Context.pending_of_settle h).2 hi
    · exact h rfl

end ShortMessage.Tracker
