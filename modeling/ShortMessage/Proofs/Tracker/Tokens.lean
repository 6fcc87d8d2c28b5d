import ShortMessage.Proofs.Tracker.Account

/-!
# Every token comes to its end once

Which event ends a token, and how, follows from what the token was handed over for: the last sent
token hears of the whole send, a delivered token of its part, and a surplus token of nothing.

* `ends`, `Cause`: the tokens that an event ends, and the reasons it can have;
* `mem_ends`, `exists_end`: every end of a token in a run has a cause;
* `DeliveryEnd`: the reasons for the end of the delivered token of a part;
* `tokens_end_once`: what has become of the tokens of a registration after any run.
-/

namespace ShortMessage.Tracker

/-- What an event that is about the message of a context changes in it before it concludes. -/
def Context.after (c : Context) : Event → Context
  | .signal _ index s => (c.signal index s).1
  | .settle _ indices result => c.settle indices result
  | .register .. | .sweep _ => c

/-- The tokens that an event ends, with their outcomes. -/
def ends (t : Tracker) (e : Event) : List TokenEvent :=
  (t.handle e).outcomes.drop t.outcomes.length

/-- Why an event ends a token, and how. -/
inductive Cause (t : Tracker) (τ : Token) : Event → Outcome → Prop
  | surplus {now : Int} {r : Registration} (hτ : τ ∈ r.surplus) :
    Cause t τ (.register now r) .closed
  | replaced {now : Int} {r : Registration} {c : Context} (hc : t.context? r.message = some c)
      (hτ : τ ∈ c.held) :
    Cause t τ (.register now r) .closed
  | reported {e : Event} {m : MessageId} {c : Context} {result : SendResult}
      (hc : t.context? m = some c) (hτ : c.sentToken = some τ) :
    Cause t τ e (.fired result)
  | delivered {m : MessageId} {c : Context} {i : Nat} (hc : t.context? m = some c)
      (hp : c.parts[i]? = some .pending ∨ c.parts[i]? = some .sent)
      (hτ : c.deliveredTokens[i]? = some (some τ)) :
    Cause t τ (.signal m i .delivered) (.fired .success)
  | failed {e : Event} {m : MessageId} {c : Context} {i : Nat} {result : SendResult}
      (he : e.message? = some m) (hc : t.context? m = some c)
      (hp : (c.after e).parts[i]? = some (.failed result))
      (hτ : c.deliveredTokens[i]? = some (some τ)) (hgone : (t.handle e).context? m = none) :
    Cause t τ e .closed
  | timedOut {now : Int} {m : MessageId} {c : Context} (hc : t.context? m = some c)
      (hold : t.isExpired now c = true) (hτ : τ ∈ c.held) :
    Cause t τ (.sweep now) (.fired .timeout)

variable {t : Tracker} {es : List Event} {τ : Token} {o : Outcome} {r : Registration}

/-! ### Every end has a cause -/

/-- What the end of a step on a context does to tokens: it fires the one that was released, and the
context concludes. -/
theorem cause_of_conclude {e : Event} {m : MessageId} {c c' : Context} {released : Option Token}
    (he : e.message? = some m) (hc : t.context? m = some c)
    (hafter : c.after e = c') (hcons : c'.Consistent) (hsent : c'.sentToken = c.sentToken)
    (hkept : ∀ (i : Nat) τ, c'.deliveredTokens[i]? = some (some τ) →
      c.deliveredTokens[i]? = some (some τ))
    (hrel : ∀ τ, released = some τ → Cause t τ e (.fired .success))
    (hstep : t.handle e = t.conclude m c' released)
    (h : (τ, o) ∈ released.toList.map (Token.fire .success) ++ c'.conclusion) :
    Cause t τ e o := by
  rcases List.mem_append.1 h with h | h
  · obtain ⟨τ', hτ', heq⟩ := List.mem_map.1 h
    obtain ⟨rfl, rfl⟩ := Prod.mk.inj heq
    exact hrel _ (Option.mem_toList.1 hτ')
  · rcases Context.mem_conclusion hcons h with ⟨hs, rfl⟩ | ⟨rfl, hrem, i, result, hτ, hp⟩
    · exact .reported hc (hsent ▸ hs)
    · refine .failed he hc (hafter ▸ hp) (hkept i τ hτ) ?_
      rw [hstep, context?_conclude, if_pos rfl, hrem]

theorem mem_timeOut {c : Context} (h : (τ, o) ∈ c.timeOut) : τ ∈ c.held ∧ o = .fired .timeout := by
  unfold Context.timeOut at h
  rcases List.mem_append.1 h with h | h
  · split at h
    · cases h
    · obtain ⟨τ', hτ', heq⟩ := List.mem_map.1 h
      obtain ⟨rfl, rfl⟩ := Prod.mk.inj heq
      exact ⟨List.mem_append_left _ hτ', rfl⟩
  · obtain ⟨τ', hτ', heq⟩ := List.mem_map.1 h
    obtain ⟨rfl, rfl⟩ := Prod.mk.inj heq
    exact ⟨List.mem_append_right _ hτ', rfl⟩

theorem Step.cause {e : Event} {t' : Tracker} (hstep : Step t e t') (ht' : t.handle e = t')
    (hs : t.AllSound) :
    ∃ new, t'.outcomes = t.outcomes ++ new ∧ ∀ τ o, (τ, o) ∈ new → Cause t τ e o := by
  cases hstep with
  | register now r =>
    refine ⟨_, rfl, fun τ o h => ?_⟩
    obtain ⟨τ', hτ', heq⟩ := List.mem_map.1 h
    obtain ⟨rfl, rfl⟩ := Prod.mk.inj heq
    rcases List.mem_append.1 hτ' with hτ' | hτ'
    · exact .surplus hτ'
    · cases hc : t.context? r.message with
      | none => rw [hc] at hτ'; cases hτ'
      | some c => rw [hc] at hτ'; exact .replaced hc hτ'
  | @signal m c index s hc hi =>
    refine ⟨_, outcomes_conclude _ _ _ _, fun τ o h => ?_⟩
    refine cause_of_conclude (m := m) rfl hc rfl
      (Context.consistent_signal (hs _ _ hc).toConsistent _ s) (Context.signal_sentToken _ _ _)
      (fun i τ hτ => Context.deliveredTokens_of_signal hτ) (fun τ hrel => ?_) ht' h
    rcases Context.signal_cases c index s with he | ⟨_, -, -, he⟩ | ⟨rfl, hp, he⟩ <;>
      rw [he] at hrel
    · cases hrel
    · cases hrel
    · exact .delivered hc hp (Option.join_eq_some_iff.1 hrel)
  | staleSignal s hc => exact ⟨[], (List.append_nil _).symm, fun _ _ h => by cases h⟩
  | @settle m c indices result hc =>
    refine ⟨_, outcomes_conclude _ _ _ _, fun τ o h => ?_⟩
    exact cause_of_conclude (m := m) rfl hc rfl
      (Context.consistent_settle (hs _ _ hc).toConsistent indices result) rfl
      (fun i τ hτ => hτ) (fun τ hrel => by cases hrel) ht' h
  | staleSettle indices result hc => exact ⟨[], (List.append_nil _).symm, fun _ _ h => by cases h⟩
  | sweep now =>
    refine ⟨_, rfl, fun τ o h => ?_⟩
    obtain ⟨⟨m, c⟩, hmem, h⟩ := List.mem_flatMap.1 h
    obtain ⟨hmem, hold⟩ := List.mem_filter.1 hmem
    obtain ⟨hτ, rfl⟩ := mem_timeOut h
    exact .timedOut (Registry.get?_of_mem hmem) hold hτ

theorem outcomes_handle (hs : t.AllSound) (e : Event) :
    (t.handle e).outcomes = t.outcomes ++ t.ends e := by
  obtain ⟨new, hnew, -⟩ := (step_handle t e).cause rfl hs
  unfold ends
  rw [hnew, List.drop_left]

theorem outcomes_run (hs : t.AllSound) (es : List Event) :
    ∃ new, (t.run es).outcomes = t.outcomes ++ new := by
  induction es generalizing t with
  | nil => exact ⟨[], (List.append_nil _).symm⟩
  | cons e es ih =>
    obtain ⟨new, hnew⟩ := ih ((step_handle t e).allSound hs)
    refine ⟨t.ends e ++ new, ?_⟩
    rw [run_cons, hnew, outcomes_handle hs, List.append_assoc]

theorem mem_ends (hs : t.AllSound) {e : Event} (h : (τ, o) ∈ t.ends e) : Cause t τ e o := by
  obtain ⟨new, hnew, hcause⟩ := (step_handle t e).cause rfl hs
  unfold ends at h
  rw [hnew, List.drop_left] at h
  exact hcause τ o h

theorem exists_end {timeout : Nat} (h : (τ, o) ∈ ((new timeout).run es).outcomes) :
    ∃ pre e post, es = pre ++ e :: post ∧ (τ, o) ∈ ((new timeout).run pre).ends e := by
  induction es using List.reverseRecOn with
  | nil => cases h
  | append_singleton es e ih =>
    rw [run_concat, outcomes_handle (sound_of_run timeout es)] at h
    rcases List.mem_append.1 h with h | h
    · obtain ⟨pre, e', post, rfl, hend⟩ := ih h
      exact ⟨pre, e', post ++ [e], by simp, hend⟩
    · exact ⟨es, e, [], rfl, h⟩

/-- After a fresh run a token has not ended and is held, or it has ended once, by one event. -/
theorem fates_cases (timeout : Nat) (h : Fresh es) (hτ : τ ∈ handed es) :
    (((new timeout).run es).fates τ = [] ∧ τ ∈ ((new timeout).run es).held) ∨
    (∃ o, ((new timeout).run es).fates τ = [o] ∧ τ ∉ ((new timeout).run es).held ∧
      ∃ pre e post, es = pre ++ e :: post ∧ (τ, o) ∈ ((new timeout).run pre).ends e) := by
  have hone := length_fates_add_count timeout h hτ
  match hf : ((new timeout).run es).fates τ with
  | [] =>
    rw [hf] at hone
    refine Or.inl ⟨rfl, List.count_pos_iff.1 ?_⟩
    rw [List.length_nil] at hone
    omega
  | [o] =>
    rw [hf] at hone
    refine Or.inr ⟨o, rfl, List.count_eq_zero.1 ?_, exists_end (mem_fates.1 ?_)⟩
    · rw [List.length_singleton] at hone
      omega
    · rw [hf]; exact List.mem_singleton_self o
  | o :: o' :: os =>
    rw [hf] at hone
    simp only [List.length_cons] at hone
    omega

/-! ### What a token was handed over for -/

theorem Registration.last_not_mem (h : r.tokens.Nodup)
    (hτ : r.sentTokens.getLast? = some τ) :
    τ ∉ r.surplus ∧ τ ∉ r.deliveredTokens.take r.partCount := by
  have hnd := r.tokens_perm.nodup h
  rw [hτ, Option.toList_some] at hnd
  obtain ⟨-, hrest, hdisj⟩ := List.nodup_append.1 hnd
  refine ⟨fun hs => hdisj τ hs τ (by simp) rfl, fun ht => ?_⟩
  exact (List.nodup_append.1 hrest).2.2 τ (by simp) τ ht rfl

theorem Registration.surplus_not_mem (h : r.tokens.Nodup) (hτ : τ ∈ r.surplus) :
    r.sentTokens.getLast? ≠ some τ ∧ τ ∉ r.deliveredTokens.take r.partCount := by
  refine ⟨fun hl => (last_not_mem h hl).1 hτ, fun ht => ?_⟩
  have hnd := r.tokens_perm.nodup h
  exact (List.nodup_append.1 hnd).2.2 τ hτ τ (List.mem_append_right _ ht) rfl

theorem Registration.delivered_injective (h : r.tokens.Nodup) {i j : Nat}
    (hi : (r.deliveredTokens.take r.partCount)[i]? = some τ)
    (hj : (r.deliveredTokens.take r.partCount)[j]? = some τ) : i = j := by
  have hnd : (r.deliveredTokens.take r.partCount).Nodup :=
    ((List.nodup_append.1 h).2.1).sublist (List.take_sublist _ _)
  exact (List.getElem?_inj (List.getElem?_eq_some_iff.1 hi).1 hnd).1 (hi.trans hj.symm)

theorem Registration.mem_tokens_of_surplus (h : τ ∈ r.surplus) : τ ∈ r.tokens :=
  r.tokens_perm.mem_iff.2 (List.mem_append_left _ h)

theorem Registration.mem_tokens_of_last (h : r.sentTokens.getLast? = some τ) : τ ∈ r.tokens :=
  List.mem_append_left _ (List.mem_of_getLast? h)

theorem Registration.mem_tokens_of_delivered {i : Nat}
    (h : (r.deliveredTokens.take r.partCount)[i]? = some τ) : τ ∈ r.tokens :=
  List.mem_append_right _ (List.mem_of_mem_take (List.mem_of_getElem? h))

/-! ### The ends of the tokens of a registration -/

/-- Why an event ends the delivered token of a part, and how: the part is delivered, or a sweep
retires the context, or the context retires while the part has failed. -/
inductive DeliveryEnd (t : Tracker) (m : MessageId) (i : Nat) : Event → Outcome → Prop
  | delivered {c : Context} (hc : t.context? m = some c)
      (hp : c.parts[i]? = some .pending ∨ c.parts[i]? = some .sent)
      (hd : (c.after (.signal m i .delivered)).parts[i]? = some .delivered) :
    DeliveryEnd t m i (.signal m i .delivered) (.fired .success)
  | timedOut {now : Int} (hm : m ∈ (t.sweep now).1)
      (hgone : (t.handle (.sweep now)).context? m = none) :
    DeliveryEnd t m i (.sweep now) (.fired .timeout)
  | failed {e : Event} {c : Context} {result : SendResult} (he : e.message? = some m)
      (hc : t.context? m = some c) (hp : (c.after e).parts[i]? = some (.failed result))
      (hgone : (t.handle e).context? m = none) :
    DeliveryEnd t m i e .closed

section

variable {timeout : Nat} {pre post : List Event} {e : Event}

theorem fired_of_last (h : Fresh (pre ++ e :: post)) (hr : r ∈ registrations (pre ++ e :: post))
    (hτ : r.sentTokens.getLast? = some τ) (hc : Cause ((new timeout).run pre) τ e o) :
    ∃ result, o = .fired result := by
  have htok := Registration.mem_tokens_of_last hτ
  have hrole := Registration.last_not_mem (h.nodup_tokens hr) hτ
  cases hc with
  | @surplus now r' hs =>
    have hr' : r' ∈ registrations (pre ++ .register now r' :: post) := by
      rw [registrations_append]
      exact List.mem_append_right _ List.mem_cons_self
    obtain rfl := h.eq_of_mem_tokens hr hr' htok (Registration.mem_tokens_of_surplus hs)
    exact absurd hs hrole.1
  | replaced hc hheld => rw [h.context?_eq_none] at hc; cases hc
  | reported hc hs => exact ⟨_, rfl⟩
  | delivered hc hp hd => exact ⟨_, rfl⟩
  | failed he hc hp hd hgone =>
    obtain ⟨-, hown⟩ := owns_of_mem_held h hr htok hc (Context.mem_held.2 (Or.inr ⟨_, hd⟩))
    exact absurd (List.mem_of_getElem? (hown.delivered _ _ hd)) hrole.2
  | timedOut hc hold hheld => exact ⟨_, rfl⟩

theorem closed_of_surplus (h : Fresh (pre ++ e :: post))
    (hr : r ∈ registrations (pre ++ e :: post)) (hτ : τ ∈ r.surplus)
    (hc : Cause ((new timeout).run pre) τ e o) : o = .closed ∧ ∃ now, e = .register now r := by
  have htok := Registration.mem_tokens_of_surplus hτ
  have hrole := Registration.surplus_not_mem (h.nodup_tokens hr) hτ
  have hnot : ∀ {m c}, ((new timeout).run pre).context? m = some c → τ ∉ c.held := by
    intro m c hc hheld
    obtain ⟨-, hown⟩ := owns_of_mem_held h hr htok hc hheld
    rcases Context.mem_held.1 hheld with hs | ⟨i, hi⟩
    · exact hrole.1 (hown.sent τ hs)
    · exact hrole.2 (List.mem_of_getElem? (hown.delivered i τ hi))
  cases hc with
  | @surplus now r' hs =>
    have hr' : r' ∈ registrations (pre ++ .register now r' :: post) := by
      rw [registrations_append]
      exact List.mem_append_right _ List.mem_cons_self
    obtain rfl := h.eq_of_mem_tokens hr hr' htok (Registration.mem_tokens_of_surplus hs)
    exact ⟨rfl, now, rfl⟩
  | replaced hc hheld => exact absurd hheld (hnot hc)
  | reported hc hs => exact absurd (Context.mem_held.2 (Or.inl hs)) (hnot hc)
  | delivered hc hp hd => exact absurd (Context.mem_held.2 (Or.inr ⟨_, hd⟩)) (hnot hc)
  | failed he hc hp hd hgone =>
    exact absurd (Context.mem_held.2 (Or.inr ⟨_, hd⟩)) (hnot hc)
  | timedOut hc hold hheld => exact absurd hheld (hnot hc)

theorem deliveryEnd_of_cause (h : Fresh (pre ++ e :: post))
    (hr : r ∈ registrations (pre ++ e :: post)) {i : Nat}
    (hτ : (r.deliveredTokens.take r.partCount)[i]? = some τ)
    (hc : Cause ((new timeout).run pre) τ e o) :
    DeliveryEnd ((new timeout).run pre) r.message i e o := by
  have htok := Registration.mem_tokens_of_delivered hτ
  have hnd := h.nodup_tokens hr
  -- the part whose token this is in a context that holds it
  have hpart : ∀ {m c j}, ((new timeout).run pre).context? m = some c →
      c.deliveredTokens[j]? = some (some τ) → m = r.message ∧ j = i := by
    intro m c j hc hd
    obtain ⟨hm, hown⟩ := owns_of_mem_held h hr htok hc (Context.mem_held.2 (Or.inr ⟨j, hd⟩))
    exact ⟨hm.symm, Registration.delivered_injective hnd (hown.delivered j τ hd) hτ⟩
  have hmem := List.mem_of_getElem? hτ
  cases hc with
  | @surplus now r' hs =>
    have hr' : r' ∈ registrations (pre ++ .register now r' :: post) := by
      rw [registrations_append]
      exact List.mem_append_right _ List.mem_cons_self
    obtain rfl := h.eq_of_mem_tokens hr hr' htok (Registration.mem_tokens_of_surplus hs)
    exact absurd hmem (Registration.surplus_not_mem hnd hs).2
  | replaced hc hheld => rw [h.context?_eq_none] at hc; cases hc
  | reported hc hs =>
    obtain ⟨-, hown⟩ := owns_of_mem_held h hr htok hc (Context.mem_held.2 (Or.inl hs))
    exact absurd hmem (Registration.last_not_mem hnd (hown.sent τ hs)).2
  | @delivered m c j hc hp hd =>
    obtain ⟨rfl, rfl⟩ := hpart hc hd
    refine .delivered hc hp ?_
    have hlt : j < c.parts.length := by
      rcases hp with hp | hp <;> exact (List.getElem?_eq_some_iff.1 hp).1
    show (c.signal j .delivered).1.parts[j]? = some .delivered
    rw [Context.signal, if_pos hp]
    exact List.getElem?_set_self hlt
  | failed he hc hp hd hgone =>
    obtain ⟨rfl, rfl⟩ := hpart hc hd
    exact .failed he hc hp hgone
  | @timedOut now m c hc hold hheld =>
    obtain ⟨rfl, -⟩ := owns_of_mem_held h hr htok hc hheld
    refine .timedOut ?_ ?_
    · refine List.mem_map.2 ⟨(r.message, c), List.mem_filter.2 ⟨?_, hold⟩, rfl⟩
      exact Registry.mem_of_get? hc
    · rw [handle, context?_sweep, hc, Option.filter_some, hold]
      rfl

end

/-! ### After a run -/

section

variable (timeout : Nat) (h : Fresh es) (hr : r ∈ registrations es)
include h hr

theorem holder_of_mem_tokens (hτ : τ ∈ r.tokens) (hheld : τ ∈ ((new timeout).run es).held) :
    ∃ c, ((new timeout).run es).context? r.message = some c ∧ τ ∈ c.held ∧ r.Owns c := by
  obtain ⟨id, c, hc, hτc⟩ := mem_held.1 hheld
  rw [← List.append_nil es] at h hr
  obtain ⟨rfl, hown⟩ := owns_of_mem_held h hr hτ hc hτc
  exact ⟨c, hc, hτc, hown⟩

theorem fates_of_mem_tokens (hτ : τ ∈ r.tokens) :
    (((new timeout).run es).fates τ).length ≤ 1 ∧
      (((new timeout).run es).fates τ = [] ↔
        ∃ c, ((new timeout).run es).context? r.message = some c ∧ τ ∈ c.held) := by
  rcases fates_cases timeout h (List.mem_flatMap.2 ⟨r, hr, hτ⟩) with
    ⟨hf, hheld⟩ | ⟨o, hf, hheld, -⟩ <;> rw [hf]
  · obtain ⟨c, hc, hτc, -⟩ := holder_of_mem_tokens timeout h hr hτ hheld
    exact ⟨Nat.zero_le 1, fun _ => ⟨c, hc, hτc⟩, fun _ => rfl⟩
  · refine ⟨Nat.le_refl 1, fun hnone => (nomatch hnone), fun ⟨c, hc, hτc⟩ => ?_⟩
    exact absurd (mem_held.2 ⟨_, c, hc, hτc⟩) hheld

/-- The last sent token is held until the report, and then it is fired. -/
theorem fates_of_last (hτ : r.sentTokens.getLast? = some τ) :
    (((new timeout).run es).fates τ = [] ∧
      ∃ c, ((new timeout).run es).context? r.message = some c ∧ c.sentToken = some τ ∧
        c.reported = false) ∨
    ∃ result, ((new timeout).run es).fates τ = [.fired result] := by
  have hτr := Registration.mem_tokens_of_last hτ
  rcases fates_cases timeout h (List.mem_flatMap.2 ⟨r, hr, hτr⟩) with
    ⟨hf, hheld⟩ | ⟨o, hf, -, pre, e, post, rfl, hend⟩
  · obtain ⟨c, hc, hτc, hown⟩ := holder_of_mem_tokens timeout h hr hτr hheld
    have hrole := Registration.last_not_mem (h.nodup_tokens hr) hτ
    refine Or.inl ⟨hf, c, hc, ?_⟩
    rcases Context.mem_held.1 hτc with hs | ⟨i, hi⟩
    · refine ⟨hs, Bool.eq_false_iff.2 fun hrep => ?_⟩
      rw [(sound_of_run timeout es _ _ hc).spent hrep] at hs
      cases hs
    · exact absurd (List.mem_of_getElem? (hown.delivered i τ hi)) hrole.2
  · obtain ⟨result, rfl⟩ := fired_of_last h hr hτ (mem_ends (sound_of_run timeout pre) hend)
    exact Or.inr ⟨result, hf⟩

theorem fates_of_surplus (hτ : τ ∈ r.surplus) :
    ((new timeout).run es).fates τ = [.closed] ∧
      ∃ pre now post, es = pre ++ .register now r :: post ∧
        (τ, .closed) ∈ ((new timeout).run pre).ends (.register now r) := by
  have hτr := Registration.mem_tokens_of_surplus hτ
  rcases fates_cases timeout h (List.mem_flatMap.2 ⟨r, hr, hτr⟩) with
    ⟨hf, hheld⟩ | ⟨o, hf, -, pre, e, post, rfl, hend⟩
  · obtain ⟨c, hc, hτc, hown⟩ := holder_of_mem_tokens timeout h hr hτr hheld
    have hrole := Registration.surplus_not_mem (h.nodup_tokens hr) hτ
    rcases Context.mem_held.1 hτc with hs | ⟨i, hi⟩
    · exact absurd (hown.sent τ hs) hrole.1
    · exact absurd (List.mem_of_getElem? (hown.delivered i τ hi)) hrole.2
  · obtain ⟨rfl, now, rfl⟩ :=
      closed_of_surplus h hr hτ (mem_ends (sound_of_run timeout pre) hend)
    exact ⟨hf, pre, now, post, rfl, hend⟩

/-- The delivered token of a part is held until one of the reasons of `DeliveryEnd`. -/
theorem fates_of_delivered {i : Nat} (hτ : (r.deliveredTokens.take r.partCount)[i]? = some τ) :
    (((new timeout).run es).fates τ = [] ∧
      ∃ c, ((new timeout).run es).context? r.message = some c ∧
        c.deliveredTokens[i]? = some (some τ)) ∨
    ∃ o, ((new timeout).run es).fates τ = [o] ∧
      ∃ pre e post, es = pre ++ e :: post ∧ (τ, o) ∈ ((new timeout).run pre).ends e ∧
        DeliveryEnd ((new timeout).run pre) r.message i e o := by
  have hτr := Registration.mem_tokens_of_delivered hτ
  rcases fates_cases timeout h (List.mem_flatMap.2 ⟨r, hr, hτr⟩) with
    ⟨hf, hheld⟩ | ⟨o, hf, -, pre, e, post, rfl, hend⟩
  · obtain ⟨c, hc, hτc, hown⟩ := holder_of_mem_tokens timeout h hr hτr hheld
    have hnd := h.nodup_tokens hr
    refine Or.inl ⟨hf, c, hc, ?_⟩
    rcases Context.mem_held.1 hτc with hs | ⟨j, hj⟩
    · have hrole := (Registration.last_not_mem hnd (hown.sent τ hs)).2
      exact absurd (List.mem_of_getElem? hτ) hrole
    · rw [Registration.delivered_injective hnd hτ (hown.delivered j τ hj)]
      exact hj
  · exact Or.inr ⟨o, hf, pre, e, post, rfl, hend,
      deliveryEnd_of_cause h hr hτ (mem_ends (sound_of_run timeout pre) hend)⟩

end

/-- **Every token comes to its end once.**  After a run in which identities and tokens are used
once, and for each of its registrations: a token has ended at most once, and has not ended exactly
if the live context holds it; the last sent token is held until the report, and then it has been
fired; the other sent tokens and the delivered tokens without a part were closed by the
registration; the delivered token of a part is held until one of the reasons of `DeliveryEnd`. -/
theorem tokens_end_once (timeout : Nat) (h : Fresh es) (hr : r ∈ registrations es) :
    let t := (new timeout).run es
    (∀ τ ∈ r.tokens, (t.fates τ).length ≤ 1 ∧
      (t.fates τ = [] ↔ ∃ c, t.context? r.message = some c ∧ τ ∈ c.held)) ∧
    (∀ τ, r.sentTokens.getLast? = some τ →
      (t.fates τ = [] ∧
        ∃ c, t.context? r.message = some c ∧ c.sentToken = some τ ∧ c.reported = false) ∨
      ∃ result, t.fates τ = [.fired result]) ∧
    (∀ τ ∈ r.surplus, t.fates τ = [.closed] ∧
      ∃ pre now post, es = pre ++ .register now r :: post ∧
        (τ, .closed) ∈ ((new timeout).run pre).ends (.register now r)) ∧
    ∀ (i : Nat) τ, i < r.partCount → r.deliveredTokens[i]? = some τ →
      (t.fates τ = [] ∧
        ∃ c, t.context? r.message = some c ∧ c.deliveredTokens[i]? = some (some τ)) ∨
      ∃ o, t.fates τ = [o] ∧
        ∃ pre e post, es = pre ++ e :: post ∧ (τ, o) ∈ ((new timeout).run pre).ends e ∧
          DeliveryEnd ((new timeout).run pre) r.message i e o := by
  intro t
  refine ⟨fun τ hτ => fates_of_mem_tokens timeout h hr hτ,
    fun τ hτ => fates_of_last timeout h hr hτ, fun τ hτ => fates_of_surplus timeout h hr hτ,
    fun i τ hi hτ => fates_of_delivered timeout h hr ?_⟩
  rw [List.getElem?_take, if_pos hi, hτ]

/-- Two parts: the first fails, the second is delivered. -/
def failedThenDelivered : List Event :=
  [.register 0 ⟨⟨7⟩, 2, [⟨0⟩, ⟨1⟩], [⟨2⟩, ⟨3⟩, ⟨4⟩]⟩, .signal ⟨7⟩ 0 (.sent .radioOff),
    .signal ⟨7⟩ 1 .delivered]

/-- The token of the failed part is closed when the context retires. -/
theorem tokens_end_once_failed_part :
    Fresh failedThenDelivered ∧
      ∃ pre e post, failedThenDelivered = pre ++ e :: post ∧
        ((⟨2⟩, .closed) : TokenEvent) ∈ ((new 300).run pre).ends e ∧
          DeliveryEnd ((new 300).run pre) ⟨7⟩ 0 e .closed := by
  have hfresh : Fresh failedThenDelivered := ⟨by decide, by decide⟩
  refine ⟨hfresh, ?_⟩
  have hr : (⟨⟨7⟩, 2, [⟨0⟩, ⟨1⟩], [⟨2⟩, ⟨3⟩, ⟨4⟩]⟩ : Registration) ∈
      registrations failedThenDelivered := by decide
  have hfates : ((new 300).run failedThenDelivered).fates ⟨2⟩ = [.closed] := by decide
  rcases (tokens_end_once 300 hfresh hr).2.2.2 0 ⟨2⟩ (by decide) rfl with
    ⟨hnone, -⟩ | ⟨o, ho, hend⟩
  · rw [hfates] at hnone
    cases hnone
  · rw [hfates] at ho
    obtain rfl := List.singleton_inj.1 ho
    exact hend

end ShortMessage.Tracker
