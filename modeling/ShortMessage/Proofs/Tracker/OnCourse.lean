import ShortMessage.Proofs.Tracker.Locality
import ShortMessage.Proofs.Tracker.WholeSend
import ShortMessage.Radio.Loopback

/-!
# A send that hears only of success

The loopback radio calls back that all went well.  The callbacks of different parts come in any
order, those of one part in theirs; on the IP route the send result does not get through, and a
delivery stands for it.  Whatever the order, the send ends well: its context is gone in the end, and
every token that it held is fired with success.

* `LoopbackRadio.Interleaves`: the orders in which the radio may call back;
* `Context.Delivering`: a context that hears only of success, with what it has still to hear;
* `Faring`: how the tokens of a send stand meanwhile;
* `OnCourse`, `OnCourse.callBack`, `OnCourse.run`: both, along the callbacks.
-/

namespace ShortMessage

open LoopbackRadio (Completion)

/-- **The orders of callbacks**: the next one is the next of any completion, until none is left. -/
inductive LoopbackRadio.Interleaves : List Completion → List (Callback × Signal) → Prop
  | done {due : List Completion} (h : ∀ x ∈ due, x.signals = []) : Interleaves due []
  | next {before after : List Completion} {b : Callback} {s : Signal} {signals : List Signal}
      {said : List (Callback × Signal)} (h : Interleaves (before ++ ⟨b, signals⟩ :: after) said) :
    Interleaves (before ++ ⟨b, s :: signals⟩ :: after) ((b, s) :: said)

open LoopbackRadio (Interleaves)

theorem interleaves_append {before : List Completion} (h : ∀ x ∈ before, x.signals = [])
    (due : List Completion) :
    Interleaves (before ++ due) (due.flatMap fun x => x.signals.map (x.callback, ·)) := by
  induction due generalizing before with
  | nil =>
    rw [List.append_nil]
    exact .done h
  | cons x due ih =>
    obtain ⟨b, signals⟩ := x
    induction signals with
    | nil =>
      have hbefore : ∀ x ∈ before ++ [⟨b, []⟩], x.signals = [] := by
        intro x hx
        rcases List.mem_append.1 hx with hx | hx
        · exact h x hx
        · rw [List.mem_singleton.1 hx]
      rw [List.append_cons]
      exact ih hbefore
    | cons s signals ih' => exact .next ih'

/-- There is always an order: one completion after the other. -/
theorem interleaves_inTurn (due : List Completion) :
    Interleaves due (due.flatMap fun x => x.signals.map (x.callback, ·)) := by
  have hnone : ∀ x ∈ ([] : List Completion), x.signals = [] := fun _ hx => (nomatch hx)
  exact interleaves_append hnone due

/-- A signal that tells of no failure. -/
def Signal.Favourable (s : Signal) : Prop :=
  ∀ result, s = .sent result → result = .success

theorem due_next {before after : List Completion} {b : Callback} {s : Signal}
    {signals : List Signal} {x : Completion} (hx : x ∈ before ++ ⟨b, s :: signals⟩ :: after)
    (hd : .delivered ∈ x.signals) :
    (∃ y ∈ before ++ ⟨b, signals⟩ :: after, y.callback = x.callback ∧ .delivered ∈ y.signals) ∨
      (x.callback = b ∧ s = .delivered) := by
  rcases List.mem_append.1 hx with hx | hx
  · exact Or.inl ⟨x, List.mem_append_left _ hx, rfl, hd⟩
  rcases List.mem_cons.1 hx with rfl | hx
  · rcases List.mem_cons.1 hd with hs | hd
    · exact Or.inr ⟨rfl, hs.symm⟩
    · exact Or.inl ⟨_, List.mem_append_right _ List.mem_cons_self, rfl, hd⟩
  · exact Or.inl ⟨x, List.mem_append_right _ (List.mem_cons_of_mem _ hx), rfl, hd⟩

theorem Progress.Leads.eq_delivered {p : Progress} (h : Progress.delivered.Leads p) :
    p = .delivered := by
  cases h
  rfl

namespace Tracker

variable {t t' : Tracker} {m n : MessageId} {due : List Completion} {τ : Token}

/-! ### Contexts that hear only of success -/

namespace Context

variable {c : Context} {i j : Nat} {s : Signal}

/-- **A context that hears only of success**: no part has failed, and the delivery of a part that is
not delivered is due. -/
structure Delivering (m : MessageId) (due : List Completion) (c : Context) : Prop where
  sound : c.Sound
  nonempty : c.parts ≠ []
  unfailed : ∀ (i : Nat) (code : SendResult), c.parts[i]? ≠ some (.failed code)
  due : ∀ i < c.parts.length, c.parts[i]? = some .delivered ∨
    ∃ x ∈ due, x.callback.message = m ∧ x.callback.index = i ∧ .delivered ∈ x.signals

theorem unfailed_signal (h : ∀ (j : Nat) (code : SendResult), c.parts[j]? ≠ some (.failed code))
    (hs : s.Favourable) (code : SendResult) : (c.signal i s).1.parts[j]? ≠ some (.failed code) := by
  intro hj
  rcases signal_cases c i s with he | ⟨result, rfl, -, he⟩ | ⟨-, -, he⟩ <;> rw [he] at hj
  · exact h j code hj
  · obtain rfl := hs result rfl
    rw [List.getElem?_set] at hj
    split at hj
    · split at hj <;> cases hj
    · exact h j code hj
  · rw [List.getElem?_set] at hj
    split at hj
    · split at hj <;> cases hj
    · exact h j code hj

theorem delivered_signal (h : c.parts[j]? = some .delivered) :
    (c.signal i s).1.parts[j]? = some .delivered := by
  have hlt : j < (c.signal i s).1.parts.length := by
    rw [length_parts_signal]
    exact (List.getElem?_eq_some_iff.1 h).1
  have hq := List.getElem?_eq_getElem hlt
  rw [hq, ((advances_signal c i s).leads j _ _ h hq).eq_delivered]

theorem delivered_of_signal (hi : i < c.parts.length)
    (h : ∀ code, c.parts[i]? ≠ some (.failed code)) :
    (c.signal i .delivered).1.parts[i]? = some .delivered := by
  by_cases hp : c.parts[i]? = some .pending ∨ c.parts[i]? = some .sent
  · rw [signal, if_pos hp, List.getElem?_set_self hi]
  · rw [signal, if_neg hp]
    rw [List.getElem?_eq_getElem hi] at hp h ⊢
    cases hq : c.parts[i] with
    | pending => exact absurd (Or.inl (congrArg some hq)) hp
    | sent => exact absurd (Or.inr (congrArg some hq)) hp
    | failed code => exact absurd (congrArg some hq) (h code)
    | delivered => rfl

theorem aggregate_of_unfailed (h : ∀ (j : Nat) (code : SendResult),
    c.parts[j]? ≠ some (.failed code)) : c.aggregate = .success :=
  (overall_iff.1 (.success h)).symm

/-- **When nothing is due any more** there is nothing to wait for, so there is no such context. -/
theorem Delivering.not_exhausted (h : c.Delivering m due) (hdue : ∀ x ∈ due, x.signals = []) :
    False := by
  have hdelivered : ∀ i < c.parts.length, c.parts[i]? = some .delivered := by
    intro i hi
    rcases h.due i hi with hi | ⟨x, hx, -, -, hd⟩
    · exact hi
    · rw [hdue x hx] at hd
      cases hd
  have hall : ∀ p ∈ c.parts, p = .delivered := by
    intro p hp
    obtain ⟨i, hi⟩ := List.mem_iff_getElem?.1 hp
    have hd := hdelivered i (List.getElem?_eq_some_iff.1 hi).1
    rw [hi] at hd
    exact Option.some.inj hd
  rcases h.sound.waits_of_parts h.nonempty with hp | ⟨i, τ, hi, -⟩
  · cases hall _ hp
  · cases hall _ (List.mem_of_getElem? hi)

end Context

variable {c : Context} {i : Nat} {s : Signal}

/-- A favourable signal about such a context changes one part, and what it ends it ends well. -/
theorem signal_favourable (hc : t.context? m = some c) (h : c.Delivering m due)
    (hs : s.Favourable) :
    (∀ d, (t.signal m i s).context? m = some d →
      d.Sound ∧ d.parts = (c.signal i s).1.parts) ∧
    ∀ x ∈ (t.signal m i s).outcomes, x ∈ t.outcomes ∨ x.2 = .fired .success := by
  have hunfailed : ∀ (j : Nat) (code : SendResult),
      (c.signal i s).1.parts[j]? ≠ some (.failed code) :=
    fun _ code => Context.unfailed_signal h.unfailed hs code
  have hcons := Context.consistent_signal h.sound.toConsistent i s
  by_cases hi : i < c.parts.length
  · rw [signal_eq hc hi]
    refine ⟨fun d hd => ?_, fun x hx => ?_⟩
    · rw [context?_conclude, if_pos rfl] at hd
      obtain ⟨rfl, -⟩ := Context.takeAggregate_eq_of_remains hd
      exact ⟨Context.sound_of_remains hcons hd, Context.takeAggregate_parts _⟩
    · rw [outcomes_conclude] at hx
      rcases List.mem_append.1 hx with hx | hx
      · exact Or.inl hx
      rcases List.mem_append.1 hx with hx | hx
      · obtain ⟨τ, -, rfl⟩ := List.mem_map.1 hx
        exact Or.inr rfl
      · rcases Context.mem_conclusion hcons hx with ⟨-, ho⟩ | ⟨-, -, j, code, -, hj⟩
        · rw [Context.aggregate_of_unfailed hunfailed] at ho
          exact Or.inr ho
        · exact absurd hj (hunfailed j code)
  · have hlen := Nat.not_lt.1 hi
    have hnone : c.parts[i]? = none := List.getElem?_eq_none hlen
    have hsame : (c.signal i s).1 = c := by
      rcases Context.signal_cases c i s with he | ⟨-, -, hp, -⟩ | ⟨-, hp | hp, -⟩
      · rw [he]
      all_goals
        rw [hnone] at hp
        cases hp
    rw [signal_stale fun d hd => by rw [hc] at hd; exact Option.some.inj hd ▸ hlen]
    refine ⟨fun d hd => ?_, fun x hx => Or.inl hx⟩
    rw [context?_count, hc] at hd
    obtain rfl := Option.some.inj hd
    exact ⟨h.sound, by rw [hsame]⟩

/-! ### Tokens of a send -/

/-- **How the tokens of a send stand** while all goes well: no other message holds one, and each is
held once or has ended once, with success if the context took it and closed otherwise. -/
structure Faring (r : Registration) (now : Int) (t : Tracker) : Prop where
  held : t.heldBy r.message ⊆ (r.opened now).held
  alone : ∀ τ ∈ r.tokens, ∀ n, n ≠ r.message → τ ∉ t.heldBy n
  account : ∀ τ ∈ r.tokens, (t.fates τ).length + (t.heldBy r.message).count τ = 1
  ends : ∀ τ ∈ r.tokens, ∀ o ∈ t.fates τ,
    (τ ∈ (r.opened now).held ∧ o = .fired .success) ∨ (τ ∈ r.surplus ∧ o = .closed)

variable {r : Registration} {now : Int}

theorem faring_register (hnd : r.tokens.Nodup)
    (hfresh : ∀ τ ∈ r.tokens, τ ∉ t.held ∧ t.fates τ = []) :
    Faring r now (t.handle (.register now r)) := by
  have hold : ∀ τ ∈ r.tokens, ∀ n, τ ∉ t.heldBy n := by
    intro τ hτ n hheld
    obtain ⟨c, hc, hτc⟩ := mem_heldBy.1 hheld
    exact (hfresh τ hτ).1 (mem_held.2 ⟨n, c, hc, hτc⟩)
  have hopen : (t.handle (.register now r)).heldBy r.message = (r.opened now).held :=
    heldBy_eq ((context?_register _ _ _ _ _ _ _).trans (if_pos rfl))
  have hcount : ∀ τ ∈ r.tokens, (r.surplus ++ t.heldBy r.message).count τ +
      (r.opened now).held.count τ = 1 := by
    intro τ hτ
    have htok := r.tokens_perm.count_eq τ
    have hnone := List.count_eq_zero_of_not_mem (hold τ hτ r.message)
    rw [List.count_eq_one_of_mem hnd hτ] at htok
    rw [r.held_opened now]
    simp only [List.count_append] at htok ⊢
    omega
  have hfates : ∀ τ ∈ r.tokens, (t.handle (.register now r)).fates τ =
      (((r.surplus ++ t.heldBy r.message).map Token.close).filter (·.1 = τ)).map Prod.snd := by
    intro τ hτ
    have hnone : (t.outcomes.filter (·.1 = τ)).map Prod.snd = [] := (hfresh τ hτ).2
    show ((t.outcomes ++ _).filter (·.1 = τ)).map Prod.snd = _
    rw [List.filter_append, List.map_append, hnone, List.nil_append]
    rfl
  refine ⟨hopen ▸ List.Subset.refl _, fun τ hτ n hn => ?_, fun τ hτ => ?_, fun τ hτ o ho => ?_⟩
  · rw [show (t.handle (.register now r)).heldBy n = t.heldBy n by
      unfold heldBy
      rw [show (t.handle (.register now r)).context? n = _ from context?_register _ _ _ _ _ _ _,
        if_neg hn]]
    exact hold τ hτ n
  · rw [hfates τ hτ, hopen, length_filter_fst, Token.map_fst_close]
    exact hcount τ hτ
  · rw [hfates τ hτ] at ho
    obtain ⟨x, hx, rfl⟩ := List.mem_map.1 ho
    obtain ⟨hx, heq⟩ := List.mem_filter.1 hx
    obtain ⟨τ', hτ', rfl⟩ := List.mem_map.1 hx
    obtain rfl : τ' = τ := of_decide_eq_true heq
    rcases List.mem_append.1 hτ' with hs | hh
    · exact Or.inr ⟨hs, rfl⟩
    · exact absurd hh (hold _ hτ _)

/-- Events about another message, and events about this one that end its tokens with success. -/
theorem Faring.attends (h : Faring r now t) (hatt : t.Attends m [] t')
    (hwon : m = r.message → ∀ x ∈ t'.outcomes, x ∈ t.outcomes ∨ x.2 = .fired .success) :
    Faring r now t' := by
  obtain ⟨new, hnew, hperm⟩ := hatt.balance
  rw [List.append_nil] at hperm
  have hless : t'.heldBy m ⊆ t.heldBy m := fun τ hτ => hperm.subset (List.mem_append_right _ hτ)
  have halone : ∀ τ ∈ r.tokens, ∀ n, n ≠ r.message → τ ∉ t'.heldBy n := by
    intro τ hτ n hn hheld
    by_cases hnm : n = m
    · exact h.alone τ hτ n hn (hnm ▸ hless (hnm ▸ hheld))
    · rw [hatt.heldBy_of_ne hnm] at hheld
      exact h.alone τ hτ n hn hheld
  by_cases hm : m = r.message
  · subst hm
    refine ⟨fun τ hτ => h.held (hless hτ), halone, fun τ hτ => ?_, fun τ hτ o ho => ?_⟩
    · have hbefore := h.account τ hτ
      have hcount := hperm.count_eq τ
      rw [length_fates] at hbefore ⊢
      rw [hnew, List.map_append, List.count_append]
      rw [List.count_append] at hcount
      omega
    · have hmem := mem_fates.1 ho
      have hwon := hwon rfl _ hmem
      rw [hnew] at hmem
      rcases List.mem_append.1 hmem with hmem | hmem
      · exact h.ends τ hτ o (mem_fates.2 hmem)
      rcases hwon with hold | ho
      · exact h.ends τ hτ o (mem_fates.2 hold)
      · have hheld : τ ∈ t.heldBy r.message :=
          hperm.subset (List.mem_append_left _ (List.mem_map_of_mem hmem))
        exact Or.inl ⟨h.held hheld, ho⟩
  · have hsame := hatt.heldBy_of_ne (Ne.symm hm)
    have hfates : ∀ τ ∈ r.tokens, t'.fates τ = t.fates τ := by
      intro τ hτ
      unfold fates
      rw [hatt.filter_outcomes (h.alone τ hτ m hm) List.not_mem_nil]
    refine ⟨hsame ▸ h.held, halone, fun τ hτ => ?_, fun τ hτ o ho => ?_⟩
    · rw [hfates τ hτ, hsame]
      exact h.account τ hτ
    · exact h.ends τ hτ o (hfates τ hτ ▸ ho)

/-- **The end of the tokens** once the context is gone. -/
theorem Faring.fates_eq (h : Faring r now t) (hnd : r.tokens.Nodup)
    (hgone : t.context? r.message = none) (hτ : τ ∈ r.tokens) :
    t.fates τ = [if τ ∈ r.surplus then .closed else .fired .success] := by
  have hnone : t.heldBy r.message = [] := by
    unfold heldBy
    rw [hgone]
    rfl
  have hlen := h.account τ hτ
  rw [hnone, List.count_nil, Nat.add_zero, List.length_eq_one_iff] at hlen
  obtain ⟨o, ho⟩ := hlen
  have hend := h.ends τ hτ o (ho ▸ List.mem_singleton_self o)
  have hcount := r.tokens_perm.count_eq τ
  rw [List.count_eq_one_of_mem hnd hτ, ← r.held_opened now, List.count_append] at hcount
  rw [ho]
  rcases hend with ⟨hheld, rfl⟩ | ⟨hs, rfl⟩
  · rw [if_neg]
    intro hs
    have h1 := List.count_pos_iff.2 hheld
    have h2 := List.count_pos_iff.2 hs
    omega
  · rw [if_pos hs]

/-! ### Along the callbacks -/

/-- **A send on course**: as long as it has a context, that hears only of success. -/
structure OnCourse (r : Registration) (now : Int) (due : List Completion) (t : Tracker) : Prop
    extends Faring r now t where
  context : ∀ c, t.context? r.message = some c → c.Delivering r.message due
  favourable : ∀ x ∈ due, x.callback.message = r.message → ∀ s ∈ x.signals, s.Favourable

variable {before after : List Completion} {b : Callback} {signals : List Signal}

theorem favourable_next
    (h : ∀ x ∈ before ++ ⟨b, s :: signals⟩ :: after,
      x.callback.message = m → ∀ s ∈ x.signals, s.Favourable) :
    ∀ x ∈ before ++ ⟨b, signals⟩ :: after,
      x.callback.message = m → ∀ s ∈ x.signals, s.Favourable := by
  intro x hx hm s' hs'
  rcases List.mem_append.1 hx with hx | hx
  · exact h x (List.mem_append_left _ hx) hm s' hs'
  rcases List.mem_cons.1 hx with rfl | hx
  · exact h _ (List.mem_append_right _ List.mem_cons_self) hm s' (List.mem_cons_of_mem _ hs')
  · exact h x (List.mem_append_right _ (List.mem_cons_of_mem _ hx)) hm s' hs'

theorem delivering_signal (hc : t.context? m = some c)
    (h : c.Delivering m (before ++ ⟨b, s :: signals⟩ :: after)) (hs : s.Favourable)
    (hb : b.message = m) {d : Context} (hd : (t.signal m b.index s).context? m = some d) :
    d.Delivering m (before ++ ⟨b, signals⟩ :: after) := by
  obtain ⟨hkept, -⟩ := signal_favourable hc h hs (i := b.index)
  obtain ⟨hsound, hparts⟩ := hkept d hd
  have hlen : d.parts.length = c.parts.length := by rw [hparts, Context.length_parts_signal]
  refine ⟨hsound, ?_, fun i code => ?_, fun i hi => ?_⟩
  · exact List.ne_nil_of_length_pos (hlen ▸ List.length_pos_iff.2 h.nonempty)
  · rw [hparts]
    exact Context.unfailed_signal h.unfailed hs code
  · rw [hlen] at hi
    rw [hparts]
    rcases h.due i hi with hdel | ⟨x, hx, hxm, hxi, hxd⟩
    · exact Or.inl (Context.delivered_signal hdel)
    rcases due_next hx hxd with ⟨y, hy, hyx, hyd⟩ | ⟨rfl, rfl⟩
    · exact Or.inr ⟨y, hy, hyx ▸ hxm, hyx ▸ hxi, hyd⟩
    · obtain rfl := hxi
      exact Or.inl (Context.delivered_of_signal hi (h.unfailed _))

theorem Context.Delivering.next (h : c.Delivering m (before ++ ⟨b, s :: signals⟩ :: after))
    (hb : b.message = m → s ≠ .delivered) :
    c.Delivering m (before ++ ⟨b, signals⟩ :: after) := by
  refine ⟨h.sound, h.nonempty, h.unfailed, fun i hi => ?_⟩
  rcases h.due i hi with hdel | ⟨x, hx, hxm, hxi, hxd⟩
  · exact Or.inl hdel
  rcases due_next hx hxd with ⟨y, hy, hyx, hyd⟩ | ⟨rfl, rfl⟩
  · exact Or.inr ⟨y, hy, hyx ▸ hxm, hyx ▸ hxi, hyd⟩
  · exact absurd rfl (hb hxm)

/-- **One callback** keeps a send on course. -/
theorem OnCourse.callBack (h : OnCourse r now (before ++ ⟨b, s :: signals⟩ :: after) t) :
    OnCourse r now (before ++ ⟨b, signals⟩ :: after) (t.callBack b s) := by
  have hfav := favourable_next h.favourable
  by_cases hrelays : b.relays s = true
  · have hatt := (hears_signal t b.message b.index s).attends
    rw [show t.callBack b s = t.signal b.message b.index s from if_pos hrelays]
    by_cases hb : b.message = r.message
    · have hs : s.Favourable := h.favourable _ (List.mem_append_right _ List.mem_cons_self) hb s
        List.mem_cons_self
      refine ⟨h.toFaring.attends hatt fun _ => ?_, fun d hd => ?_, hfav⟩
      · cases hc : t.context? b.message with
        | none =>
          rw [signal_stale (by simp [hc])]
          exact fun x hx => Or.inl hx
        | some c => exact (signal_favourable hc (hb ▸ h.context c (hb ▸ hc)) hs).2
      · rw [hb] at hd
        cases hc : t.context? r.message with
        | none =>
          rw [(develops_signal t r.message b.index s).context?_none hc] at hd
          cases hd
        | some c => exact delivering_signal hc (h.context c hc) hs hb hd
    · refine ⟨h.toFaring.attends hatt fun hm => absurd hm hb, fun d hd => ?_, hfav⟩
      rw [hatt.context?_of_ne (Ne.symm hb)] at hd
      exact (h.context d hd).next fun hm => absurd hm hb
  · rw [show t.callBack b s = t from if_neg hrelays]
    refine ⟨h.toFaring, fun c hc => (h.context c hc).next fun _ => ?_, hfav⟩
    rintro rfl
    exact hrelays rfl

/-- **All callbacks**, in any order, end a send well. -/
theorem OnCourse.run {said : List (Callback × Signal)} (hsaid : Interleaves due said)
    (h : OnCourse r now due t) :
    (said.foldl (fun t x => t.callBack x.1 x.2) t).context? r.message = none ∧
      Faring r now (said.foldl (fun t x => t.callBack x.1 x.2) t) := by
  induction hsaid generalizing t with
  | done hdue =>
    refine ⟨?_, h.toFaring⟩
    cases hc : t.context? r.message with
    | none => exact hc
    | some c => exact ((h.context c hc).not_exhausted hdue).elim
  | next hsaid ih => exact ih h.callBack

end Tracker

end ShortMessage
