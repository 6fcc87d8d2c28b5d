import ShortMessage.Proofs.Tracker.Context

/-!
# Two signals to one context

After a signal a context concludes, so a second signal meets a context that has reported, or none.
It makes no difference: concluding before the second signal is like concluding once after both
(`same_andThen_hear`), and signals about two parts commute (`signal_comm`).

* `Effect`, `Effect.andThen`, `Effect.Same`: what a step does to a context, and in which sense the
  order of its traces does not matter;
* `hear`: a signal and the conclusion after it;
* `hear_comm`: signals about different parts have the same effect in either order.
-/

namespace ShortMessage.Tracker.Context

variable {c : Context} {i j : Nat} {s u : Signal}

/-! ### Signals about two parts -/

theorem signal_comm (c : Context) (hij : i ≠ j) (s u : Signal) :
    ((c.signal i s).1.signal j u).1 = ((c.signal j u).1.signal i s).1 ∧
      ((c.signal i s).1.signal j u).2 = (c.signal j u).2 := by
  have hne : ∀ {α : Type} (l : List α) (a : α), (l.set i a)[j]? = l[j]? :=
    fun l a => List.getElem?_set_ne hij
  have hne' : ∀ {α : Type} (l : List α) (a : α), (l.set j a)[i]? = l[i]? :=
    fun l a => List.getElem?_set_ne hij.symm
  have hcomm : ∀ {α : Type} (l : List α) (a b : α), (l.set i a).set j b = (l.set j b).set i a :=
    fun l a b => List.set_comm a b hij
  cases s <;> cases u <;> unfold signal <;> simp only <;> split <;> split <;>
    simp_all

/-- The context after its report. -/
def settledUp (c : Context) : Context :=
  { c with reported := true, sentToken := none }

theorem signal_settledUp (c : Context) (i : Nat) (s : Signal) :
    c.settledUp.signal i s = ((c.signal i s).1.settledUp, (c.signal i s).2) := by
  cases s with
  | sent result =>
    unfold signal
    show (if c.parts[i]? = some .pending then _ else _) = _
    split <;> rfl
  | delivered =>
    unfold signal
    show (if c.parts[i]? = some .pending ∨ c.parts[i]? = some .sent then _ else _) = _
    split <;> rfl

/-- When all parts are settled, no signal changes the result of the whole send. -/
theorem aggregate_signal (h : c.allSettled = true) (i : Nat) (s : Signal) :
    (c.signal i s).1.aggregate = c.aggregate := by
  have hno := allSettled_iff.1 h i
  rcases signal_cases c i s with hs | ⟨result, -, hp, -⟩ | ⟨-, hp, hs⟩
  · rw [hs]
  · exact absurd hp hno
  · have hp := hp.resolve_left hno
    rw [hs]
    unfold aggregate
    refine congrArg (Option.getD · _) ?_
    obtain ⟨hi, hpi⟩ := List.getElem?_eq_some_iff.1 hp
    have hsplit : c.parts = c.parts.take i ++ .sent :: c.parts.drop (i + 1) := by
      rw [← hpi, ← List.drop_eq_getElem_cons hi, List.take_append_drop]
    rw [List.set_eq_take_append_cons_drop, if_pos hi]
    conv_rhs => rw [hsplit]
    simp only [List.findSome?_append, List.findSome?_cons]

theorem retirable_signal (h : Consistent c) (hret : c.isRetirable = true) (i : Nat) (s : Signal) :
    (c.signal i s).2 = none ∧ (c.signal i s).1.isRetirable = true ∧
      (c.signal i s).1.held = c.held := by
  obtain ⟨hrep, hwait⟩ := isRetirable_iff.1 hret
  have hno := allSettled_iff.1 (h.settled hrep) i
  rcases signal_cases c i s with hs | ⟨result, -, hp, -⟩ | ⟨-, hp, hs⟩
  · rw [hs]
    exact ⟨rfl, hret, rfl⟩
  · exact absurd hp hno
  · have hp := hp.resolve_left hno
    have hfree : c.deliveredTokens[i]?.join = none := by
      have := hwait i _ hp
      simpa [awaits] using this
    have hset : c.deliveredTokens.set i none = c.deliveredTokens := by
      refine List.ext_getElem? fun k => ?_
      rw [List.getElem?_set]
      split
      · next hik =>
        subst hik
        cases hd : c.deliveredTokens[i]? with
        | none => rw [List.getElem?_eq_none_iff] at hd; rw [if_neg (by omega)]
        | some d =>
          rw [hd, Option.join_some] at hfree
          rw [if_pos (List.getElem?_eq_some_iff.1 hd).1, hfree]
      · rfl
    rw [hs, hset]
    refine ⟨hfree, isRetirable_iff.2 ⟨hrep, fun k p hk => ?_⟩, rfl⟩
    rw [List.getElem?_set] at hk
    split at hk
    · split at hk
      · obtain rfl := Option.some.inj hk
        rfl
      · cases hk
    · exact hwait k p hk

/-! ### Effects -/

/-- What a step does to a context: what remains of it, which tokens end, which results are
reported. -/
structure Effect where
  context : Option Context
  ends : List TokenEvent
  reports : List SendResult

namespace Effect

/-- An effect that comes after some ends and reports. -/
def after (ends : List TokenEvent) (reports : List SendResult) (e : Effect) : Effect :=
  ⟨e.context, ends ++ e.ends, reports ++ e.reports⟩

/-- One step after another; there is no second one when the context has retired. -/
def andThen (e : Effect) (f : Context → Effect) : Effect :=
  match e.context with
  | none => e
  | some c => (f c).after e.ends e.reports

/-- The same effect up to the order of what it leaves behind. -/
structure Same (e f : Effect) : Prop where
  context : e.context = f.context
  ends : e.ends.Perm f.ends
  reports : e.reports.Perm f.reports

variable {e f g : Effect} {k : Context → Effect}

theorem Same.refl (e : Effect) : e.Same e :=
  ⟨rfl, .refl _, .refl _⟩

theorem Same.symm (h : e.Same f) : f.Same e :=
  ⟨h.context.symm, h.ends.symm, h.reports.symm⟩

theorem Same.trans (h : e.Same f) (h' : f.Same g) : e.Same g :=
  ⟨h.context.trans h'.context, h.ends.trans h'.ends, h.reports.trans h'.reports⟩

theorem Same.after (h : e.Same f) (ends : List TokenEvent) (reports : List SendResult) :
    (e.after ends reports).Same (f.after ends reports) :=
  ⟨h.context, h.ends.append_left _, h.reports.append_left _⟩

theorem andThen_none (h : e.context = none) : e.andThen k = e := by
  unfold andThen
  rw [h]

theorem andThen_some {c : Context} (h : e.context = some c) :
    e.andThen k = (k c).after e.ends e.reports := by
  unfold andThen
  rw [h]

theorem Same.andThen (h : e.Same f) (k : Context → Effect) : (e.andThen k).Same (f.andThen k) := by
  cases hc : e.context with
  | none => rwa [andThen_none hc, andThen_none (h.context ▸ hc)]
  | some c =>
    rw [andThen_some hc, andThen_some (h.context ▸ hc)]
    exact ⟨rfl, h.ends.append_right _, h.reports.append_right _⟩

theorem after_andThen (e : Effect) (ends : List TokenEvent) (reports : List SendResult) :
    (e.after ends reports).andThen k = (e.andThen k).after ends reports := by
  cases hc : e.context with
  | none => rw [andThen_none hc, andThen_none (by exact hc)]
  | some c =>
    rw [andThen_some hc, andThen_some (c := c) (by exact hc)]
    simp [after]

end Effect

/-- The conclusion of a step that has released some tokens. -/
def concluded (c : Context) (released : List Token) : Effect :=
  ⟨c.remains, released.map (Token.fire .success) ++ c.conclusion, c.takeAggregate.2.toList⟩

/-- A signal and the conclusion after it; about a part that is not there, nothing. -/
def hear (i : Nat) (s : Signal) (c : Context) : Effect :=
  if i < c.parts.length then (c.signal i s).1.concluded (c.signal i s).2.toList
  else ⟨some c, [], []⟩

theorem concluded_append (c : Context) (l₁ l₂ : List Token) :
    c.concluded (l₁ ++ l₂) = (c.concluded l₂).after (l₁.map (Token.fire .success)) [] := by
  simp [concluded, Effect.after]

theorem concluded_perm (c : Context) {l₁ l₂ : List Token} (h : l₁.Perm l₂) :
    (c.concluded l₁).Same (c.concluded l₂) :=
  ⟨rfl, (h.map _).append_right _, .refl _⟩

theorem concluded_of_reported (h : c.reported = true) (released : List Token) :
    c.concluded released =
      ⟨if c.isRetirable then none else some c,
        released.map (Token.fire .success) ++
          if c.isRetirable then c.held.map Token.close else [], []⟩ := by
  have hnone : c.takeAggregate = (c, none) := by
    rcases takeAggregate_cases c with ⟨-, he⟩ | ⟨hr, -, -⟩
    · exact he
    · rw [hr] at h; cases h
  simp [concluded, remains, conclusion, hnone]

theorem concluded_of_unsettled (h : c.allSettled = false) (hr : c.reported = false)
    (released : List Token) :
    c.concluded released = ⟨some c, released.map (Token.fire .success), []⟩ := by
  have hnone : c.takeAggregate = (c, none) := by simp [takeAggregate, h]
  have hret : c.isRetirable = false := by simp [isRetirable, hr]
  simp [concluded, remains, conclusion, hnone, hret]

theorem concluded_of_settled (h : c.allSettled = true) (hr : c.reported = false)
    (released : List Token) :
    (c.concluded released).Same ((c.settledUp.concluded released).after
      (c.sentToken.toList.map (Token.fire c.aggregate)) [c.aggregate]) := by
  have hsome : c.takeAggregate = (c.settledUp, some c.aggregate) := by
    simp [takeAggregate, h, hr, settledUp]
  rw [concluded_of_reported (c := c.settledUp) rfl]
  refine ⟨?_, ?_, ?_⟩
  · simp [concluded, remains, hsome, Effect.after]
  · simp only [concluded, conclusion, hsome, Effect.after, Option.toList_some,
      List.flatMap_cons, List.flatMap_nil, List.append_nil]
    rw [← List.append_assoc, ← List.append_assoc]
    exact List.perm_append_comm.append_right _
  · simp [concluded, hsome, Effect.after]

/-! ### Concluding once or twice -/

theorem andThen_hear_of_stays {released : List Token} (hi : i < c.parts.length)
    (h : c.concluded released = ⟨some c, released.map (Token.fire .success), []⟩) :
    (c.concluded released).andThen (hear i s) =
      (c.signal i s).1.concluded (released ++ (c.signal i s).2.toList) := by
  rw [concluded_append, h, Effect.andThen_some rfl, hear, if_pos hi]

theorem andThen_hear_of_reported (h : Consistent c) (hr : c.reported = true)
    (hi : i < c.parts.length) (released : List Token) :
    (c.concluded released).andThen (hear i s) =
      (c.signal i s).1.concluded (released ++ (c.signal i s).2.toList) := by
  cases hret : c.isRetirable with
  | false =>
    refine andThen_hear_of_stays hi ?_
    simp [concluded_of_reported hr, hret]
  | true =>
    obtain ⟨hnone, hret', hheld⟩ := retirable_signal h hret i s
    rw [Effect.andThen_none (by simp [concluded_of_reported hr, hret]), concluded_of_reported hr,
      concluded_of_reported (by rw [signal_reported, hr])]
    simp [hnone, hret, hret', hheld]

/-- **Concluding before a signal** is like concluding once, after it. -/
theorem same_andThen_hear (h : Consistent c) (hi : i < c.parts.length) (s : Signal)
    (released : List Token) :
    ((c.concluded released).andThen (hear i s)).Same
      ((c.signal i s).1.concluded (released ++ (c.signal i s).2.toList)) := by
  cases hr : c.reported with
  | true =>
    rw [andThen_hear_of_reported h hr hi]
    exact .refl _
  | false =>
    cases hs : c.allSettled with
    | false =>
      rw [andThen_hear_of_stays hi (concluded_of_unsettled hs hr released)]
      exact .refl _
    | true =>
      have hup : Consistent c.settledUp := ⟨h.length_eq, fun _ => hs, fun _ => rfl, h.released⟩
      have hafter := concluded_of_settled (c := (c.signal i s).1) (allSettled_signal hs i s)
        (by rw [signal_reported, hr]) (released ++ (c.signal i s).2.toList)
      rw [aggregate_signal hs, signal_sentToken] at hafter
      refine ((concluded_of_settled hs hr released).andThen _).trans (.trans ?_ hafter.symm)
      rw [Effect.after_andThen, andThen_hear_of_reported hup rfl hi, signal_settledUp]
      exact .refl _

/-! ### Signals in either order -/

theorem length_parts_hear {c' : Context} (h : (hear i s c).context = some c') :
    c'.parts.length = c.parts.length := by
  unfold hear at h
  split at h
  · obtain ⟨rfl, -⟩ := takeAggregate_eq_of_remains h
    rw [takeAggregate_parts, length_parts_signal]
  · obtain rfl := Option.some.inj h
    rfl

theorem hear_comm_of_le (hi : c.parts.length ≤ i) (s u : Signal) :
    (hear i s c).andThen (hear j u) = (hear j u c).andThen (hear i s) := by
  have hstale : ∀ {c' : Context}, c'.parts.length = c.parts.length →
      hear i s c' = ⟨some c', [], []⟩ := fun hlen => if_neg (by omega)
  have hafter : ∀ e : Effect, e.after [] [] = e := fun e => rfl
  rw [hstale rfl, Effect.andThen_some rfl, hafter]
  cases hc : (hear j u c).context with
  | none => rw [Effect.andThen_none hc]
  | some c' =>
    rw [Effect.andThen_some hc, hstale (length_parts_hear hc), ← hc]
    simp [Effect.after]

/-- **Signals about different parts** have the same effect in either order. -/
theorem hear_comm (h : Consistent c) (hij : i ≠ j) (s u : Signal) :
    ((hear i s c).andThen (hear j u)).Same ((hear j u c).andThen (hear i s)) := by
  rcases Nat.lt_or_ge i c.parts.length with hi | hi
  · rcases Nat.lt_or_ge j c.parts.length with hj | hj
    · have hone := same_andThen_hear (consistent_signal h i s)
        (i := j) (by rwa [length_parts_signal]) u (c.signal i s).2.toList
      have htwo := same_andThen_hear (consistent_signal h j u)
        (i := i) (by rwa [length_parts_signal]) s (c.signal j u).2.toList
      obtain ⟨hstate, hrel⟩ := signal_comm c hij s u
      rw [hstate, hrel] at hone
      rw [(signal_comm c hij.symm u s).2] at htwo
      rw [hear, if_pos hi, hear, if_pos hj]
      refine hone.trans (.trans ?_ htwo.symm)
      exact concluded_perm _ List.perm_append_comm
    · rw [hear_comm_of_le hj]
      exact .refl _
  · rw [hear_comm_of_le hi]
    exact .refl _

end ShortMessage.Tracker.Context
