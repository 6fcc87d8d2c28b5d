import Mathlib.Data.List.Perm.Basic
import ShortMessage.Tracker

/-!
# A tracking context by itself

A step on a context changes some parts, and then the context concludes: it reports if that is due,
and stays or retires.  `Consistent` holds of a context at any moment, also between the two halves of
a step; `Sound` holds between two steps, when the context has concluded and stayed.

* `signal_cases`, `settle_parts`, `takeAggregate_cases`: what the halves of a step can do;
* `consistent_signal`, `consistent_settle`, `sound_of_remains`: the invariants;
* `remains`, `conclusion`: what a context becomes when it concludes, and what becomes of its tokens;
* `mem_conclusion`: a token that is closed was waiting for a part that has failed;
* `held_signal`, `held_perm_conclusion`: no token is lost and none is doubled.
-/

namespace ShortMessage

/-! ### The tokens of a list of ends -/

theorem Token.map_fst_fire (result : SendResult) (l : List Token) :
    (l.map (Token.fire result)).map Prod.fst = l := by
  rw [List.map_map]
  exact List.map_id l

theorem Token.map_fst_close (l : List Token) : (l.map Token.close).map Prod.fst = l := by
  rw [List.map_map]
  exact List.map_id l

namespace Tracker.Context

variable {c : Context}

/-! ### Invariants of a context -/

/-- What is true of a context at any moment. -/
structure Consistent (c : Context) : Prop where
  length_eq : c.deliveredTokens.length = c.parts.length
  settled : c.reported = true → c.allSettled = true
  spent : c.reported = true → c.sentToken = none
  released : ∀ i : Nat, c.parts[i]? = some .delivered → c.deliveredTokens[i]?.join = none

/-- What is true of a context between two steps. -/
structure Sound (c : Context) : Prop extends Consistent c where
  reported_of_settled : c.parts ≠ [] → c.allSettled = true → c.reported = true
  waits : c.isRetirable = false

/-! ### Reading the tests -/

theorem allSettled_iff : c.allSettled = true ↔ ∀ i : Nat, c.parts[i]? ≠ some .pending := by
  unfold allSettled
  rw [List.all_eq_true]
  constructor
  · intro h i hi
    have := h _ (List.mem_of_getElem? hi)
    simp [Progress.isSettled] at this
  · intro h p hp
    obtain ⟨i, hi⟩ := List.getElem?_of_mem hp
    have hne : p ≠ .pending := fun e => h i (e ▸ hi)
    simpa [Progress.isSettled] using hne

theorem isRetirable_iff : c.isRetirable = true ↔
    c.reported = true ∧
      ∀ (i : Nat) (p : Progress), c.parts[i]? = some p →
        awaits p c.deliveredTokens[i]?.join = false := by
  unfold isRetirable
  rw [Bool.and_eq_true, List.all_eq_true]
  refine and_congr_right fun _ => ?_
  constructor
  · intro h i p hi
    obtain ⟨hlt, rfl⟩ := List.getElem?_eq_some_iff.1 hi
    have hmem : awaits c.parts[i] c.deliveredTokens[i]?.join ∈
        c.parts.mapIdx fun i p => awaits p c.deliveredTokens[i]?.join :=
      List.mem_mapIdx.2 ⟨i, hlt, rfl⟩
    simpa using h _ hmem
  · intro h b hb
    obtain ⟨i, hlt, rfl⟩ := List.mem_mapIdx.1 hb
    simpa using h i _ (List.getElem?_eq_getElem hlt)

/-! ### The first half of a step -/

/-- **A signal** is ignored, or gives a pending part its send result, or marks a part as delivered
and releases its token. -/
theorem signal_cases (c : Context) (i : Nat) (s : Signal) :
    c.signal i s = (c, none) ∨
    (∃ result, s = .sent result ∧ c.parts[i]? = some .pending ∧
      c.signal i s = ({ c with parts := c.parts.set i (.ofResult result) }, none)) ∨
    (s = .delivered ∧ (c.parts[i]? = some .pending ∨ c.parts[i]? = some .sent) ∧
      c.signal i s =
        ({ c with
            parts := c.parts.set i .delivered
            deliveredTokens := c.deliveredTokens.set i none },
          c.deliveredTokens[i]?.join)) := by
  cases s with
  | sent result =>
    by_cases hp : c.parts[i]? = some .pending
    · exact Or.inr (Or.inl ⟨result, rfl, hp, by rw [signal, if_pos hp]⟩)
    · exact Or.inl (by rw [signal, if_neg hp])
  | delivered =>
    by_cases hp : c.parts[i]? = some .pending ∨ c.parts[i]? = some .sent
    · exact Or.inr (Or.inr ⟨rfl, hp, by rw [signal, if_pos hp]⟩)
    · exact Or.inl (by rw [signal, if_neg hp])

@[simp] theorem signal_reported (c : Context) (i : Nat) (s : Signal) :
    (c.signal i s).1.reported = c.reported := by
  rcases signal_cases c i s with h | ⟨_, -, -, h⟩ | ⟨-, -, h⟩ <;> rw [h]

@[simp] theorem signal_sentToken (c : Context) (i : Nat) (s : Signal) :
    (c.signal i s).1.sentToken = c.sentToken := by
  rcases signal_cases c i s with h | ⟨_, -, -, h⟩ | ⟨-, -, h⟩ <;> rw [h]

@[simp] theorem length_parts_signal (c : Context) (i : Nat) (s : Signal) :
    (c.signal i s).1.parts.length = c.parts.length := by
  rcases signal_cases c i s with h | ⟨_, -, -, h⟩ | ⟨-, -, h⟩ <;> rw [h] <;> simp

theorem ofResult_ne_pending (result : SendResult) : Progress.ofResult result ≠ .pending := by
  unfold Progress.ofResult
  split <;> exact fun h => by cases h

theorem ofResult_ne_delivered (result : SendResult) : Progress.ofResult result ≠ .delivered := by
  unfold Progress.ofResult
  split <;> exact fun h => by cases h

theorem pending_of_signal {i j : Nat} {s : Signal}
    (h : (c.signal i s).1.parts[j]? = some .pending) : c.parts[j]? = some .pending := by
  rcases signal_cases c i s with hs | ⟨result, -, -, hs⟩ | ⟨-, -, hs⟩ <;> rw [hs] at h
  · exact h
  · rw [List.getElem?_set] at h
    split at h
    · split at h
      · exact absurd (Option.some.inj h) (ofResult_ne_pending result)
      · cases h
    · exact h
  · rw [List.getElem?_set] at h
    split at h
    · split at h <;> cases h
    · exact h

theorem allSettled_signal (h : c.allSettled = true) (i : Nat) (s : Signal) :
    (c.signal i s).1.allSettled = true :=
  allSettled_iff.2 fun j hj => allSettled_iff.1 h j (pending_of_signal hj)

theorem consistent_signal (h : Consistent c) (i : Nat) (s : Signal) :
    Consistent (c.signal i s).1 := by
  have hset : (c.signal i s).1.reported = true → (c.signal i s).1.allSettled = true := by
    intro hr
    rw [signal_reported] at hr
    exact allSettled_signal (h.settled hr) i s
  have hspent : (c.signal i s).1.reported = true → (c.signal i s).1.sentToken = none := by
    intro hr
    rw [signal_reported] at hr
    rw [signal_sentToken]
    exact h.spent hr
  rcases signal_cases c i s with hs | ⟨result, -, -, hs⟩ | ⟨-, -, hs⟩
  · rw [hs]; exact h
  · refine ⟨?_, hset, hspent, fun j hj => ?_⟩
    · rw [hs]; simpa using h.length_eq
    · rw [hs] at hj ⊢
      rw [List.getElem?_set] at hj
      split at hj
      · split at hj
        · exact absurd (Option.some.inj hj) (ofResult_ne_delivered result)
        · cases hj
      · exact h.released j hj
  · refine ⟨?_, hset, hspent, fun j hj => ?_⟩
    · rw [hs]; simpa using h.length_eq
    · rw [hs] at hj ⊢
      rw [List.getElem?_set] at hj ⊢
      by_cases hij : i = j
      · rw [if_pos hij]
        split <;> rfl
      · rw [if_neg hij] at hj ⊢
        exact h.released j hj

@[simp] theorem settle_reported (c : Context) (indices : List Nat) (result : SendResult) :
    (c.settle indices result).reported = c.reported := rfl

/-- **Settling** gives the listed parts a result if they are pending. -/
theorem settle_parts (c : Context) (indices : List Nat) (result : SendResult) (i : Nat) :
    (c.settle indices result).parts[i]? =
      if c.parts[i]? = some .pending ∧ i ∈ indices then some (.ofResult result)
      else c.parts[i]? := by
  unfold settle
  rw [List.getElem?_mapIdx]
  cases hp : c.parts[i]? with
  | none => simp
  | some p =>
    simp only [Option.map_some, Option.some.injEq]
    split <;> rfl

theorem pending_of_settle {indices : List Nat} {result : SendResult} {i : Nat}
    (h : (c.settle indices result).parts[i]? = some .pending) :
    c.parts[i]? = some .pending ∧ i ∉ indices := by
  rw [settle_parts] at h
  split at h
  · exact absurd (Option.some.inj h) (ofResult_ne_pending result)
  · next hn => exact ⟨h, fun hi => hn ⟨h, hi⟩⟩

theorem consistent_settle (h : Consistent c) (indices : List Nat) (result : SendResult) :
    Consistent (c.settle indices result) := by
  refine ⟨?_, fun hr => ?_, h.spent, fun i hi => ?_⟩
  · simpa [settle] using h.length_eq
  · have hc := allSettled_iff.1 (h.settled hr)
    exact allSettled_iff.2 fun i hi => hc i (pending_of_settle hi).1
  · rw [settle_parts] at hi
    split at hi
    · exact absurd (Option.some.inj hi) (ofResult_ne_delivered result)
    · exact h.released i hi

/-! ### The second half of a step -/

/-- **The report** is made once, when all parts are settled. -/
theorem takeAggregate_cases (c : Context) :
    ((c.reported = true ∨ c.allSettled = false) ∧ c.takeAggregate = (c, none)) ∨
    (c.reported = false ∧ c.allSettled = true ∧
      c.takeAggregate = ({ c with reported := true, sentToken := none }, some c.aggregate)) := by
  unfold takeAggregate
  cases c.reported <;> cases c.allSettled <;> simp

/-- What a context becomes when it concludes: it retires, or it stays. -/
def remains (c : Context) : Option Context :=
  if c.takeAggregate.1.isRetirable then none else some c.takeAggregate.1

/-- What becomes of the tokens of a context when it concludes. -/
def conclusion (c : Context) : List TokenEvent :=
  (c.takeAggregate.2.toList.flatMap fun result => c.sentToken.toList.map (Token.fire result)) ++
    if c.takeAggregate.1.isRetirable then c.takeAggregate.1.held.map Token.close else []

theorem takeAggregate_parts (c : Context) : c.takeAggregate.1.parts = c.parts := by
  rcases takeAggregate_cases c with ⟨-, h⟩ | ⟨-, -, h⟩ <;> rw [h]

theorem takeAggregate_deliveredTokens (c : Context) :
    c.takeAggregate.1.deliveredTokens = c.deliveredTokens := by
  rcases takeAggregate_cases c with ⟨-, h⟩ | ⟨-, -, h⟩ <;> rw [h]

theorem consistent_takeAggregate (h : Consistent c) : Consistent c.takeAggregate.1 := by
  rcases takeAggregate_cases c with ⟨-, he⟩ | ⟨-, hs, he⟩ <;> rw [he]
  · exact h
  · exact ⟨h.length_eq, fun _ => hs, fun _ => rfl, h.released⟩

theorem takeAggregate_eq_of_remains {c' : Context} (h : c.remains = some c') :
    c' = c.takeAggregate.1 ∧ c.takeAggregate.1.isRetirable = false := by
  unfold remains at h
  split at h
  · cases h
  · next hr => exact ⟨(Option.some.inj h).symm, Bool.eq_false_iff.2 hr⟩

/-- **The invariant**: a context that concludes and stays is sound. -/
theorem sound_of_remains (h : Consistent c) {c' : Context} (hc : c.remains = some c') :
    Sound c' := by
  obtain ⟨rfl, hw⟩ := takeAggregate_eq_of_remains hc
  refine ⟨consistent_takeAggregate h, fun _ hs => ?_, hw⟩
  rcases takeAggregate_cases c with ⟨hr | hr, he⟩ | ⟨-, -, he⟩ <;> rw [he] at hs ⊢
  · exact hr
  · rw [hr] at hs; cases hs

/-- A new context has reported nothing, so it waits. -/
theorem sound_opened (now : Int) (partCount : Nat) (sentTokens deliveredTokens : List Token) :
    Sound (opened now partCount sentTokens deliveredTokens) := by
  refine ⟨⟨?_, fun h => ?_, fun h => ?_, fun i hi => ?_⟩, fun hne hs => ?_, rfl⟩
  · simp only [opened, List.length_append, List.length_map, List.length_take,
      List.length_replicate]
    omega
  · cases h
  · cases h
  · have hm := List.mem_of_getElem? hi
    have := List.eq_of_mem_replicate hm
    cases this
  · have hlt : 0 < partCount := by
      refine Nat.pos_of_ne_zero fun h0 => hne ?_
      simp [opened, h0]
    refine absurd ?_ (allSettled_iff.1 hs 0)
    simp [opened, hlt]

/-! ### Where the tokens are -/

theorem mem_held {t : Token} :
    t ∈ c.held ↔ c.sentToken = some t ∨ ∃ i : Nat, c.deliveredTokens[i]? = some (some t) := by
  unfold held
  rw [List.mem_append, Option.mem_toList, List.mem_filterMap]
  refine or_congr Iff.rfl ?_
  simp only [id_eq, exists_eq_right]
  exact List.mem_iff_getElem?

theorem failed_of_isRetirable (h : Consistent c) (hret : c.isRetirable = true) {t : Token}
    (ht : t ∈ c.held) :
    ∃ (i : Nat) (result : SendResult),
      c.deliveredTokens[i]? = some (some t) ∧ c.parts[i]? = some (.failed result) := by
  obtain ⟨hrep, hwait⟩ := isRetirable_iff.1 hret
  rcases mem_held.1 ht with hsent | ⟨i, hi⟩
  · rw [h.spent hrep] at hsent
    cases hsent
  · have hlt : i < c.parts.length := by
      rw [← h.length_eq]
      exact (List.getElem?_eq_some_iff.1 hi).1
    have hp := List.getElem?_eq_getElem hlt
    have hnw := hwait i _ hp
    rw [hi, Option.join_some] at hnw
    cases hq : c.parts[i] with
    | pending => rw [hq] at hnw; cases hnw
    | sent => rw [hq] at hnw; cases hnw
    | failed result => exact ⟨i, result, hi, hp.trans (congrArg some hq)⟩
    | delivered =>
      have hnone := h.released i (hp.trans (congrArg some hq))
      rw [hi, Option.join_some] at hnone
      cases hnone

/-- **The end of tokens.**  When a context concludes, it fires its sent token; a token that it
closes belongs to a part that has failed, and then the context retires. -/
theorem mem_conclusion (h : Consistent c) {t : Token} {o : Outcome}
    (hm : (t, o) ∈ c.conclusion) :
    (c.sentToken = some t ∧ o = .fired c.aggregate) ∨
    (o = .closed ∧ c.remains = none ∧ ∃ (i : Nat) (result : SendResult),
      c.deliveredTokens[i]? = some (some t) ∧ c.parts[i]? = some (.failed result)) := by
  unfold conclusion at hm
  rcases List.mem_append.1 hm with hm | hm
  · left
    obtain ⟨result, hr, hm⟩ := List.mem_flatMap.1 hm
    obtain ⟨t', ht', he⟩ := List.mem_map.1 hm
    rw [Option.mem_toList] at hr ht'
    obtain ⟨rfl, rfl⟩ := Prod.mk.inj he
    rcases takeAggregate_cases c with ⟨-, ha⟩ | ⟨-, -, ha⟩ <;> rw [ha] at hr
    · cases hr
    · obtain rfl := Option.some.inj hr
      exact ⟨ht', rfl⟩
  · right
    split at hm
    · next hret =>
      obtain ⟨t', ht', he⟩ := List.mem_map.1 hm
      obtain ⟨rfl, rfl⟩ := Prod.mk.inj he
      have hfailed := failed_of_isRetirable (consistent_takeAggregate h) hret ht'
      rw [takeAggregate_deliveredTokens, takeAggregate_parts] at hfailed
      exact ⟨rfl, if_pos hret, hfailed⟩
    · cases hm

theorem filterMap_set_none (l : List (Option Token)) (i : Nat) :
    (l.filterMap id).Perm (l[i]?.join.toList ++ (l.set i none).filterMap id) := by
  induction l generalizing i with
  | nil => simp
  | cons a l ih =>
    cases i with
    | zero => cases a <;> simp
    | succ i =>
      cases a with
      | none => simpa using ih i
      | some t =>
        simp only [List.getElem?_cons_succ, List.set_cons_succ, List.filterMap_cons, id_eq]
        exact ((ih i).cons t).trans List.perm_middle.symm

theorem held_signal (c : Context) (i : Nat) (s : Signal) :
    c.held.Perm ((c.signal i s).2.toList ++ (c.signal i s).1.held) := by
  rcases signal_cases c i s with hs | ⟨_, -, -, hs⟩ | ⟨-, -, hs⟩ <;> rw [hs]
  · rfl
  · rfl
  · unfold held
    refine ((filterMap_set_none c.deliveredTokens i).append_left _).trans ?_
    rw [← List.append_assoc, ← List.append_assoc]
    exact List.perm_append_comm.append_right _

/-- Concluding loses no token: each one that was held is still held or has come to its end. -/
theorem held_perm_conclusion (c : Context) :
    c.held.Perm (c.conclusion.map Prod.fst ++ c.remains.toList.flatMap held) := by
  unfold conclusion remains
  rcases takeAggregate_cases c with ⟨-, h⟩ | ⟨-, -, h⟩ <;> rw [h]
  · cases c.isRetirable <;> simp [-List.map_map, Token.map_fst_close]
  · cases hr : ({ c with reported := true, sentToken := none } : Context).isRetirable <;>
      simp [-List.map_map, Token.map_fst_close, Token.map_fst_fire, held]

end Tracker.Context

end ShortMessage
