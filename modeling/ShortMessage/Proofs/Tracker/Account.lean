import Mathlib.Data.List.Induction
import Mathlib.Data.List.Nodup
import Mathlib.Data.List.Pairwise
import ShortMessage.Proofs.Tracker.Run

/-!
# The account of a tracker's tokens

The tokens that a tracker was given are those that have come to an end and those that its live
contexts hold.  Every event keeps this account (`account_run`), so in a run whose tokens are all
different each token is held in one place or has ended once (`length_fates_add_count`).

* `held`, `fates`: where the tokens are, and what became of one;
* `handed`, `Fresh`: what a run hands over, and that identities and tokens are used once;
* `account_run`: the balance;
* `owner_of_context?`: a live context holds only tokens of the registration of its message.
-/

namespace ShortMessage.Tracker

/-- The tokens that the live contexts hold. -/
def held (t : Tracker) : List Token :=
  t.contexts.entries.flatMap (·.2.held)

/-- What became of a token so far, oldest first. -/
def fates (t : Tracker) (τ : Token) : List Outcome :=
  (t.outcomes.filter (·.1 = τ)).map Prod.snd

/-- The tokens that have ended and those that are held. -/
def account (t : Tracker) : List Token :=
  t.outcomes.map Prod.fst ++ t.held

/-- The tokens that a run hands over. -/
def handed (es : List Event) : List Token :=
  (registrations es).flatMap Registration.tokens

/-- A run in which every message is registered once and every token is handed over once. -/
structure Fresh (es : List Event) : Prop where
  messages : ((registrations es).map Registration.message).Nodup
  tokens : (handed es).Nodup

variable {t : Tracker} {es : List Event} {τ : Token}

theorem mem_held : τ ∈ t.held ↔ ∃ id c, t.context? id = some c ∧ τ ∈ c.held := by
  unfold held
  rw [List.mem_flatMap]
  constructor
  · rintro ⟨e, he, hτ⟩
    exact ⟨e.1, e.2, Registry.get?_of_mem he, hτ⟩
  · rintro ⟨id, c, hc, hτ⟩
    exact ⟨(id, c), Registry.mem_of_get? hc, hτ⟩

theorem mem_fates {o : Outcome} : o ∈ t.fates τ ↔ (τ, o) ∈ t.outcomes := by
  unfold fates
  rw [List.mem_map]
  constructor
  · rintro ⟨⟨τ', o'⟩, hm, rfl⟩
    obtain ⟨hin, he⟩ := List.mem_filter.1 hm
    obtain rfl : τ' = τ := of_decide_eq_true he
    exact hin
  · intro hm
    exact ⟨(τ, o), List.mem_filter.2 ⟨hm, by simp⟩, rfl⟩

theorem length_filter_fst (l : List TokenEvent) (τ : Token) :
    ((l.filter (·.1 = τ)).map Prod.snd).length = (l.map Prod.fst).count τ := by
  rw [List.length_map, ← List.countP_eq_length_filter, List.count_eq_countP, List.countP_map]
  refine List.countP_congr fun e _ => ?_
  simp

theorem length_fates (t : Tracker) (τ : Token) :
    (t.fates τ).length = (t.outcomes.map Prod.fst).count τ :=
  length_filter_fst t.outcomes τ

theorem handed_append (es fs : List Event) : handed (es ++ fs) = handed es ++ handed fs := by
  unfold handed
  rw [registrations_append, List.flatMap_append]

theorem Fresh.of_append {es fs : List Event} (h : Fresh (es ++ fs)) : Fresh es := by
  obtain ⟨hm, ht⟩ := h
  rw [registrations_append, List.map_append] at hm
  rw [handed_append] at ht
  exact ⟨hm.of_append_left, ht.of_append_left⟩

/-! ### The balance -/

theorem Registration.tokens_perm (r : Registration) :
    r.tokens.Perm
      (r.surplus ++ (r.sentTokens.getLast?.toList ++ r.deliveredTokens.take r.partCount)) := by
  have hsent : r.sentTokens.Perm (r.sentTokens.dropLast ++ r.sentTokens.getLast?.toList) := by
    cases h : r.sentTokens.getLast? with
    | none =>
      rw [List.getLast?_eq_none_iff] at h
      simp [h]
    | some a => rw [Option.toList_some, List.dropLast_append_getLast? a h]
  refine List.perm_iff_count.2 fun τ => ?_
  have h1 := hsent.count_eq τ
  have h2 := congrArg (List.count τ) (List.take_append_drop r.partCount r.deliveredTokens)
  simp only [Registration.tokens, Registration.surplus, Tracker.surplus,
    List.count_append] at h1 h2 ⊢
  omega

theorem Registration.held_opened (r : Registration) (now : Int) :
    (r.opened now).held =
      r.sentTokens.getLast?.toList ++ r.deliveredTokens.take r.partCount := by
  have hsome : ∀ l : List Token, (l.map some).filterMap id = l := fun l => by
    rw [List.filterMap_map]; exact List.filterMap_some
  simp only [Registration.opened, Context.opened, Context.held, List.filterMap_append, hsome]
  rw [List.filterMap_replicate_of_none rfl, List.append_nil]

/-- The tokens held by the contexts of the other messages. -/
def heldBeside (t : Tracker) (id : MessageId) : List Token :=
  (t.contexts.erase id).entries.flatMap (·.2.held)

theorem held_of_context? {id : MessageId} {c : Context} (h : t.context? id = some c) :
    t.held.Perm (c.held ++ t.heldBeside id) :=
  (Registry.entries_perm_of_get? h).flatMap_right _

theorem held_of_context?_none {id : MessageId} (h : t.context? id = none) :
    t.held = t.heldBeside id := by
  unfold held heldBeside
  rw [Registry.entries_erase_of_get?_none h]

theorem held_conclude (t : Tracker) (id : MessageId) (c : Context) (released : Option Token) :
    (t.conclude id c released).held =
      t.heldBeside id ++ c.remains.toList.flatMap Context.held := by
  rw [conclude_eq]
  unfold held heldBeside
  cases c.remains with
  | none => simp
  | some c' => simp [Registry.entries_insert]

theorem account_conclude {id : MessageId} {c c' : Context} (released : Option Token)
    (hc : t.context? id = some c) (hheld : c.held.Perm (released.toList ++ c'.held)) :
    (t.conclude id c' released).account.Perm t.account := by
  refine List.perm_iff_count.2 fun τ => ?_
  have h1 := (held_of_context? hc).count_eq τ
  have h2 := hheld.count_eq τ
  have h3 := (Context.held_perm_conclusion c').count_eq τ
  unfold account
  rw [outcomes_conclude, held_conclude]
  simp only [List.map_append, List.count_append, Token.map_fst_fire] at h1 h2 h3 ⊢
  omega

theorem account_register (t : Tracker) (now : Int) (r : Registration) :
    (t.handle (.register now r)).account.Perm (t.account ++ r.tokens) := by
  refine List.perm_iff_count.2 fun τ => ?_
  have htok := r.tokens_perm.count_eq τ
  have hopen := congrArg (List.count τ) (r.held_opened now)
  have hheld : (t.handle (.register now r)).held =
      t.heldBeside r.message ++ (r.opened now).held := by
    simp [handle, register, resolve, held, heldBeside, Registry.entries_insert,
      Registration.opened]
  have hout : (t.handle (.register now r)).outcomes.map Prod.fst =
      t.outcomes.map Prod.fst ++
        (r.surplus ++ ((t.context? r.message).map Context.held).getD []) := by
    simp only [handle, register, resolve, List.map_append, Token.map_fst_close]
    rfl
  unfold account
  rw [hheld, hout]
  cases hc : t.context? r.message with
  | none =>
    have h1 := congrArg (List.count τ) (held_of_context?_none hc)
    simp only [Option.map_none, Option.getD_none, List.count_append, List.count_nil] at *
    omega
  | some c =>
    have h1 := (held_of_context? hc).count_eq τ
    simp only [Option.map_some, Option.getD_some, List.count_append] at *
    omega

theorem timeOut_fst {c : Context} (h : c.Sound) : c.timeOut.map Prod.fst = c.held := by
  unfold Context.timeOut Context.held
  rw [List.map_append, Token.map_fst_fire]
  cases hr : c.reported with
  | false => rw [if_neg (by simp), Token.map_fst_fire]
  | true =>
    rw [if_pos rfl, h.spent hr]
    rfl

theorem account_sweep (h : t.AllSound) (now : Int) :
    (t.handle (.sweep now)).account.Perm t.account := by
  have hfst : (t.contexts.entries.filter fun e => t.isExpired now e.2).flatMap
      (fun e => e.2.timeOut.map Prod.fst) =
      (t.contexts.entries.filter fun e => t.isExpired now e.2).flatMap (·.2.held) := by
    rw [List.flatMap_def, List.flatMap_def]
    refine congrArg List.flatten (List.map_congr_left fun e he => ?_)
    exact timeOut_fst (h e.1 e.2 (Registry.get?_of_mem (List.mem_filter.1 he).1))
  refine List.perm_iff_count.2 fun τ => ?_
  have hsplit := ((List.filter_append_perm (fun e => t.isExpired now e.2)
    t.contexts.entries).flatMap_right fun e => e.2.held).count_eq τ
  simp only [account, handle, sweep, held, Registry.retain, List.map_append, List.map_flatMap,
    List.flatMap_append, List.count_append, hfst] at hsplit ⊢
  omega

theorem handed_register (now : Int) (r : Registration) :
    handed [.register now r] = r.tokens := by
  simp [handed, registrations, Event.registration?]

theorem Step.account {e : Event} {t' : Tracker} (hstep : Step t e t') (h : t.AllSound) :
    t'.account.Perm (t.account ++ handed [e]) := by
  have hnil : ∀ l : List Token, l.Perm (l ++ []) := fun l => by rw [List.append_nil]
  cases hstep with
  | register now r =>
    rw [handed_register]
    exact account_register t now r
  | signal s hc hi =>
    exact (account_conclude _ hc (Context.held_signal _ _ s)).trans (hnil _)
  | staleSignal s hc => exact hnil _
  | settle indices result hc =>
    refine (account_conclude none hc ?_).trans (hnil _)
    rfl
  | staleSettle indices result hc => exact hnil _
  | sweep now => exact (account_sweep h now).trans (hnil _)

/-- **The balance**: what was handed over has ended or is held. -/
theorem account_run (h : t.AllSound) (es : List Event) :
    (t.run es).account.Perm (t.account ++ handed es) := by
  induction es generalizing t with
  | nil => simp [handed, registrations]
  | cons e es ih =>
    have hstep := (step_handle t e).account h
    have hrun := ih ((step_handle t e).allSound h)
    rw [run_cons]
    refine hrun.trans ((hstep.append_right _).trans ?_)
    rw [List.append_assoc, ← handed_append]
    rfl

theorem account_new_run (timeout : Nat) (es : List Event) :
    ((new timeout).run es).account.Perm (handed es) :=
  account_run (allSound_new timeout) es

/-- A token of a run with fresh tokens is held in one place or has ended once. -/
theorem length_fates_add_count (timeout : Nat) (h : Fresh es) (hτ : τ ∈ handed es) :
    (((new timeout).run es).fates τ).length + ((new timeout).run es).held.count τ = 1 := by
  have hperm := (account_new_run timeout es).count_eq τ
  rw [List.count_eq_one_of_mem h.tokens hτ] at hperm
  unfold account at hperm
  rw [List.count_append] at hperm
  rw [length_fates]
  exact hperm

/-! ### Whose tokens a context holds -/

/-- A context holds only tokens that its registration handed over, each in its place. -/
structure Registration.Owns (r : Registration) (c : Context) : Prop where
  length_eq : c.parts.length = r.partCount
  sent : ∀ τ, c.sentToken = some τ → r.sentTokens.getLast? = some τ
  delivered : ∀ (i : Nat) τ, c.deliveredTokens[i]? = some (some τ) →
    (r.deliveredTokens.take r.partCount)[i]? = some τ

variable {r : Registration} {c : Context}

theorem Registration.owns_opened (r : Registration) (now : Int) : r.Owns (r.opened now) := by
  refine ⟨by simp [Registration.opened, Context.opened], fun _ h => h, fun i τ h => ?_⟩
  simp only [Registration.opened, Context.opened] at h
  rw [List.getElem?_append] at h
  split at h
  · rw [List.getElem?_map, Option.map_eq_some_iff] at h
    obtain ⟨a, ha, he⟩ := h
    rw [ha, Option.some.inj he]
  · have := List.eq_of_mem_replicate (List.mem_of_getElem? h)
    cases this

theorem Context.deliveredTokens_of_signal {i j : Nat} {s : Signal}
    (h : (c.signal i s).1.deliveredTokens[j]? = some (some τ)) :
    c.deliveredTokens[j]? = some (some τ) := by
  rcases Context.signal_cases c i s with hs | ⟨_, -, -, hs⟩ | ⟨-, -, hs⟩ <;> rw [hs] at h
  · exact h
  · exact h
  · rw [List.getElem?_set] at h
    split at h
    · split at h <;> cases h
    · exact h

theorem Registration.Owns.signal (h : r.Owns c) (i : Nat) (s : Signal) :
    r.Owns (c.signal i s).1 := by
  refine ⟨by rw [Context.length_parts_signal, h.length_eq], fun τ hτ => ?_, fun j τ hτ => ?_⟩
  · rw [Context.signal_sentToken] at hτ
    exact h.sent τ hτ
  · exact h.delivered j τ (Context.deliveredTokens_of_signal hτ)

theorem Registration.Owns.settle (h : r.Owns c) (indices : List Nat) (result : SendResult) :
    r.Owns (c.settle indices result) :=
  ⟨by simpa [Context.settle] using h.length_eq, h.sent, h.delivered⟩

theorem Registration.Owns.remains (h : r.Owns c) {c' : Context} (hc : c.remains = some c') :
    r.Owns c' := by
  obtain ⟨rfl, -⟩ := Context.takeAggregate_eq_of_remains hc
  refine ⟨by rw [Context.takeAggregate_parts, h.length_eq], fun τ hτ => ?_, fun i τ hτ => ?_⟩
  · rcases Context.takeAggregate_cases c with ⟨-, ha⟩ | ⟨-, -, ha⟩ <;> rw [ha] at hτ
    · exact h.sent τ hτ
    · cases hτ
  · rw [Context.takeAggregate_deliveredTokens] at hτ
    exact h.delivered i τ hτ

/-- Every live context belongs to one of the given registrations. -/
def OwnedBy (rs : List Registration) (t : Tracker) : Prop :=
  ∀ id c, t.context? id = some c → ∃ r ∈ rs, r.message = id ∧ r.Owns c

theorem OwnedBy.mono {rs rs' : List Registration} (h : OwnedBy rs t) (hsub : rs ⊆ rs') :
    OwnedBy rs' t := by
  intro id c hc
  obtain ⟨r, hr, hid, hown⟩ := h id c hc
  exact ⟨r, hsub hr, hid, hown⟩

theorem OwnedBy.conclude {rs : List Registration} (h : OwnedBy rs t) {id : MessageId}
    (hc : ∃ r ∈ rs, r.message = id ∧ r.Owns c) (released : Option Token) :
    OwnedBy rs (t.conclude id c released) := by
  intro j c' hc'
  rw [context?_conclude] at hc'
  split at hc'
  · next hj =>
    obtain ⟨r, hr, hid, hown⟩ := hc
    exact ⟨r, hr, hid.trans hj.symm, hown.remains hc'⟩
  · exact h j c' hc'

theorem Step.ownedBy {rs : List Registration} {e : Event} {t' : Tracker} (hstep : Step t e t')
    (h : OwnedBy rs t) : OwnedBy (rs ++ e.registration?.toList) t' := by
  have hsub : rs ⊆ rs ++ e.registration?.toList := List.subset_append_left _ _
  cases hstep with
  | register now r =>
    intro id c hc
    rw [context?_register] at hc
    split at hc
    · next hid =>
      obtain rfl := Option.some.inj hc
      exact ⟨r, by simp [Event.registration?], hid.symm, r.owns_opened now⟩
    · exact h.mono hsub id c hc
  | signal s hc hi =>
    obtain ⟨r, hr, hid, hown⟩ := h.mono hsub _ _ hc
    exact (h.mono hsub).conclude ⟨r, hr, hid, hown.signal _ s⟩ _
  | staleSignal s hc => exact h.mono hsub
  | settle indices result hc =>
    obtain ⟨r, hr, hid, hown⟩ := h.mono hsub _ _ hc
    exact (h.mono hsub).conclude ⟨r, hr, hid, hown.settle indices result⟩ _
  | staleSettle indices result hc => exact h.mono hsub
  | sweep now =>
    intro id c hc
    rw [context?_sweep, Option.filter_eq_some_iff] at hc
    exact h.mono hsub id c hc.1

theorem owned_of_run (timeout : Nat) (es : List Event) :
    OwnedBy (registrations es) ((new timeout).run es) := by
  induction es using List.reverseRecOn with
  | nil => exact fun _ _ h => by cases h
  | append_singleton es e ih =>
    rw [run_concat, registrations_append]
    have := (step_handle ((new timeout).run es) e).ownedBy ih
    cases he : e.registration? <;> simpa [registrations, he] using this

/-- Where all tokens are different, a token shows what it belongs to. -/
theorem eq_of_mem_flatMap {α : Type} {f : α → List Token} {l : List α} (h : (l.flatMap f).Nodup)
    {a b : α} (ha : a ∈ l) (hb : b ∈ l) (hτ : τ ∈ f a) (hτ' : τ ∈ f b) : a = b := by
  by_contra hne
  have hdisj := (List.nodup_flatMap.1 h).2
  have : Std.Symm (Function.onFun List.Disjoint f) := ⟨fun _ _ hd τ h1 h2 => hd h2 h1⟩
  exact hdisj.forall ha hb hne hτ hτ'

theorem Fresh.eq_of_mem_tokens (h : Fresh es) {r r' : Registration} (hr : r ∈ registrations es)
    (hr' : r' ∈ registrations es) (hτ : τ ∈ r.tokens) (hτ' : τ ∈ r'.tokens) : r = r' :=
  eq_of_mem_flatMap h.tokens hr hr' hτ hτ'

theorem Fresh.nodup_tokens (h : Fresh es) (hr : r ∈ registrations es) : r.tokens.Nodup :=
  (List.nodup_flatMap.1 h.tokens).1 r hr

theorem Registration.Owns.mem_tokens (h : r.Owns c) (hτ : τ ∈ c.held) : τ ∈ r.tokens := by
  unfold Registration.tokens
  rcases Context.mem_held.1 hτ with hs | ⟨i, hi⟩
  · exact List.mem_append_left _ (List.mem_of_getLast? (h.sent τ hs))
  · have htake := List.mem_of_getElem? (h.delivered i τ hi)
    exact List.mem_append_right _ (List.mem_of_mem_take htake)

theorem owns_of_mem_held {timeout : Nat} {pre post : List Event} (h : Fresh (pre ++ post))
    (hr : r ∈ registrations (pre ++ post)) (hτ : τ ∈ r.tokens) {id : MessageId}
    (hc : ((new timeout).run pre).context? id = some c) (hheld : τ ∈ c.held) :
    r.message = id ∧ r.Owns c := by
  obtain ⟨r', hr', hid, hown⟩ := owned_of_run timeout pre id c hc
  have hτ' := hown.mem_tokens hheld
  have hmem : r' ∈ registrations (pre ++ post) := by
    rw [registrations_append]
    exact List.mem_append_left _ hr'
  obtain rfl := h.eq_of_mem_tokens hr hmem hτ hτ'
  exact ⟨hid, hown⟩

theorem Fresh.context?_eq_none {timeout : Nat} {pre post : List Event} {now : Int}
    (h : Fresh (pre ++ .register now r :: post)) :
    ((new timeout).run pre).context? r.message = none := by
  rw [Option.eq_none_iff_forall_not_mem]
  intro c hc
  obtain ⟨r', hr', hid, -⟩ := owned_of_run timeout pre _ _ hc
  have hnd := h.messages
  have hcons : registrations (.register now r :: post) = r :: registrations post := rfl
  rw [registrations_append, hcons, List.map_append, List.map_cons] at hnd
  have hdisj := (List.nodup_append.1 hnd).2.2
  exact hdisj _ (List.mem_map_of_mem hr') _ List.mem_cons_self hid

end ShortMessage.Tracker
