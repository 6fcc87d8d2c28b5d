import ShortMessage.Proofs.Tracker.Account
import ShortMessage.Proofs.Tracker.Develop

/-!
# The account of one message

An event about a message changes the context of that message only, and the tokens that it ends were
held there or are handed over by the event itself.  So a message has an account of its own, which
the events about other messages do not touch.

* `heldBy`: the tokens that the context of a message holds;
* `Step.balance`: the account of the message that an event is about;
* `Attends`: any number of events about one message, as when a tracker hears of it;
* `Attends.context?_of_ne`, `Attends.filter_outcomes`: what they leave alone.
-/

namespace ShortMessage.Tracker

/-- The tokens that the context of a message holds. -/
def heldBy (t : Tracker) (m : MessageId) : List Token :=
  ((t.context? m).map Context.held).getD []

variable {t t' t'' : Tracker} {m n : MessageId} {tokens : List Token} {τ : Token}

theorem heldBy_eq {c : Context} (hc : t.context? m = some c) : t.heldBy m = c.held := by
  unfold heldBy
  rw [hc]
  rfl

theorem mem_heldBy : τ ∈ t.heldBy m ↔ ∃ c, t.context? m = some c ∧ τ ∈ c.held := by
  unfold heldBy
  cases t.context? m with
  | none => simp
  | some c => simp

/-! ### One event -/

/-- What a step on a context ends and what the context holds afterwards was held before. -/
theorem balance_conclude {c c' : Context} {released : Option Token}
    (hc : t.context? m = some c) (hheld : c.held.Perm (released.toList ++ c'.held)) :
    ∃ new, (t.conclude m c' released).outcomes = t.outcomes ++ new ∧
      (new.map Prod.fst ++ (t.conclude m c' released).heldBy m).Perm (t.heldBy m) := by
  refine ⟨_, outcomes_conclude _ _ _ _, ?_⟩
  have hleft : (t.conclude m c' released).heldBy m = c'.remains.toList.flatMap Context.held := by
    unfold heldBy
    rw [context?_conclude, if_pos rfl]
    cases c'.remains <;> simp
  rw [heldBy_eq hc, hleft, List.map_append, Token.map_fst_fire, List.append_assoc]
  exact ((Context.held_perm_conclusion c').symm.append_left _).trans hheld.symm

theorem balance_register (t : Tracker) (now : Int) (r : Registration) :
    ∃ new, (t.handle (.register now r)).outcomes = t.outcomes ++ new ∧
      (new.map Prod.fst ++ (t.handle (.register now r)).heldBy r.message).Perm
        (t.heldBy r.message ++ r.tokens) := by
  refine ⟨(r.surplus ++ t.heldBy r.message).map Token.close, rfl, ?_⟩
  have hopen : (t.handle (.register now r)).heldBy r.message = (r.opened now).held :=
    heldBy_eq ((context?_register _ _ _ _ _ _ _).trans (if_pos rfl))
  rw [Token.map_fst_close, hopen, r.held_opened now]
  refine List.perm_iff_count.2 fun τ => ?_
  have htok := r.tokens_perm.count_eq τ
  simp only [List.count_append] at htok ⊢
  omega

theorem handed_of_none {e : Event} (he : e.registration? = none) : handed [e] = [] := by
  simp [handed, registrations, he]

/-- **The account of one message**: what an event about it ends, and what its context holds
afterwards, is what the context held before and what the event hands over. -/
theorem Step.balance {e : Event} (hstep : Step t e t') (he : e.message? = some m) :
    ∃ new, t'.outcomes = t.outcomes ++ new ∧
      (new.map Prod.fst ++ t'.heldBy m).Perm (t.heldBy m ++ handed [e]) := by
  cases hstep with
  | register now r =>
    obtain rfl := Option.some.inj he
    rw [handed_register]
    exact balance_register t now r
  | signal s hc hi =>
    obtain rfl := Option.some.inj he
    rw [handed_of_none rfl, List.append_nil]
    exact balance_conclude hc (Context.held_signal _ _ s)
  | staleSignal s hc =>
    rw [handed_of_none rfl, List.append_nil]
    exact ⟨[], (List.append_nil _).symm, .refl _⟩
  | settle indices result hc =>
    obtain rfl := Option.some.inj he
    rw [handed_of_none rfl, List.append_nil]
    exact balance_conclude hc (.refl _)
  | staleSettle indices result hc =>
    rw [handed_of_none rfl, List.append_nil]
    exact ⟨[], (List.append_nil _).symm, .refl _⟩
  | sweep now => cases he

/-! ### Events about one message -/

/-- `t'` comes from `t` by events about one message, which hand over the given tokens. -/
def Attends (t : Tracker) (m : MessageId) (tokens : List Token) (t' : Tracker) : Prop :=
  ∃ es, (∀ e ∈ es, e.message? = some m) ∧ handed es = tokens ∧ t' = t.run es

theorem Attends.refl (t : Tracker) (m : MessageId) : t.Attends m [] t :=
  ⟨[], fun _ he => (nomatch he), rfl, rfl⟩

theorem Attends.trans (h : t.Attends m tokens t') (h' : t'.Attends m [] t'') :
    t.Attends m tokens t'' := by
  obtain ⟨es, hes, rfl, rfl⟩ := h
  obtain ⟨fs, hfs, hnone, rfl⟩ := h'
  refine ⟨es ++ fs, fun e he => ?_, ?_, (run_append t es fs).symm⟩
  · rcases List.mem_append.1 he with he | he
    · exact hes e he
    · exact hfs e he
  · rw [handed_append, hnone, List.append_nil]

theorem attends_handle (t : Tracker) {e : Event} (he : e.message? = some m) :
    t.Attends m (handed [e]) (t.handle e) :=
  ⟨[e], fun _ h => List.mem_singleton.1 h ▸ he, rfl, rfl⟩

theorem Hears.attends (h : t.Hears m t') : t.Attends m [] t' := by
  obtain ⟨es, hes, rfl⟩ := h
  refine ⟨es, fun e he => (hes e he).1, ?_, rfl⟩
  unfold handed registrations
  rw [List.filterMap_eq_nil_iff.2 fun e he => (hes e he).2]
  rfl

theorem attends_register (t : Tracker) (now : Int) (r : Registration) :
    t.Attends r.message r.tokens
      (t.register now r.message r.partCount r.sentTokens r.deliveredTokens) := by
  rw [← handed_register now r]
  exact attends_handle t (e := .register now r) rfl

theorem Attends.context?_of_ne (h : t.Attends m tokens t') (hn : n ≠ m) :
    t'.context? n = t.context? n := by
  obtain ⟨es, hes, -, rfl⟩ := h
  induction es generalizing t with
  | nil => rfl
  | cons e es ih =>
    rw [run_cons, ih fun e he => hes e (List.mem_cons_of_mem _ he)]
    exact (step_handle t e).context?_of_ne (hes e List.mem_cons_self) hn

theorem Attends.heldBy_of_ne (h : t.Attends m tokens t') (hn : n ≠ m) :
    t'.heldBy n = t.heldBy n := by
  unfold heldBy
  rw [h.context?_of_ne hn]

theorem Attends.balance (h : t.Attends m tokens t') :
    ∃ new, t'.outcomes = t.outcomes ++ new ∧
      (new.map Prod.fst ++ t'.heldBy m).Perm (t.heldBy m ++ tokens) := by
  obtain ⟨es, hes, rfl, rfl⟩ := h
  induction es generalizing t with
  | nil => exact ⟨[], (List.append_nil _).symm, by simp [handed, registrations]⟩
  | cons e es ih =>
    obtain ⟨new, hnew, hperm⟩ := (step_handle t e).balance (hes e List.mem_cons_self)
    obtain ⟨rest, hrest, hperm'⟩ := ih fun e he => hes e (List.mem_cons_of_mem _ he)
    refine ⟨new ++ rest, ?_, List.perm_iff_count.2 fun τ => ?_⟩
    · rw [run_cons, hrest, hnew, List.append_assoc]
    · have h1 := hperm.count_eq τ
      have h2 := hperm'.count_eq τ
      have hcons : handed (e :: es) = handed [e] ++ handed es := handed_append [e] es
      rw [run_cons, hcons]
      simp only [List.map_append, List.count_append] at h1 h2 ⊢
      omega

/-- **Tokens of other messages** do not end. -/
theorem Attends.filter_outcomes (h : t.Attends m tokens t') (hheld : τ ∉ t.heldBy m)
    (htok : τ ∉ tokens) :
    t'.outcomes.filter (·.1 = τ) = t.outcomes.filter (·.1 = τ) := by
  obtain ⟨new, hnew, hperm⟩ := h.balance
  have hnone : new.filter (·.1 = τ) = [] := by
    refine List.filter_eq_nil_iff.2 fun x hx heq => ?_
    have hmem : x.1 ∈ t.heldBy m ++ tokens :=
      hperm.subset (List.mem_append_left _ (List.mem_map_of_mem hx))
    rw [of_decide_eq_true heq] at hmem
    rcases List.mem_append.1 hmem with hmem | hmem
    · exact hheld hmem
    · exact htok hmem
  rw [hnew, List.filter_append, hnone, List.append_nil]

end ShortMessage.Tracker
