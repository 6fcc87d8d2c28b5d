import Mathlib.Data.List.Induction
import ShortMessage.Proofs.Dispatcher.Launch

/-!
# What a run answers

A request that is launched is answered with a receipt, and on the IP route the receipt names the
reference under which the message was enlisted for the carrier's report.

* `moments`: the states of a run, each with the event that meets it;
* `receipts`: the answers to the requests that were launched;
* `Enlistment`, `enlistments`: the messages that were enlisted, and under which references.
-/

namespace ShortMessage.Dispatcher

variable {σ : Type} {d d' : Dispatcher σ}

/-- A message of a kind that is enlisted for a carrier's report. -/
structure Enlistment where
  message : MessageId
  kind : Kind
  ref : MessageRef
deriving DecidableEq

variable [Radio σ]

/-- The states of a run, each with the event that meets it. -/
def moments (d : Dispatcher σ) : List (Event σ) → List (Dispatcher σ × Event σ)
  | [] => []
  | e :: es => (d, e) :: moments (d.handle e) es

theorem moments_concat (d : Dispatcher σ) (es : List (Event σ)) (e : Event σ) :
    moments d (es ++ [e]) = moments d es ++ [(d.run es, e)] := by
  induction es generalizing d with
  | nil => rfl
  | cons e' es ih =>
    rw [List.cons_append, moments, ih]
    rfl

theorem flatMap_moments_concat {α : Type} (f : Dispatcher σ × Event σ → List α)
    (d : Dispatcher σ) (es : List (Event σ)) (e : Event σ) :
    (moments d (es ++ [e])).flatMap f = (moments d es).flatMap f ++ f (d.run es, e) := by
  rw [moments_concat, List.flatMap_append, List.flatMap_singleton]

/-- The receipt that an event is answered with, if it is a request that is launched. -/
def receipt? (d : Dispatcher σ) (e : Event σ) : Option Receipt :=
  match d.answer? e with
  | some (.ok receipt) => some receipt
  | some (.error _) | none => none

/-- What an event enlists for a carrier's report. -/
def enlistedAt (d : Dispatcher σ) (e : Event σ) : Option Enlistment := do
  let receipt ← d.receipt? e
  let ref ← receipt.ref
  let kind ← e.kind?
  pure ⟨receipt.message, kind, ref⟩

/-- The receipts of a run. -/
def receipts (d : Dispatcher σ) (es : List (Event σ)) : List Receipt :=
  (moments d es).flatMap fun x => (x.1.receipt? x.2).toList

/-- All that a run enlists. -/
def enlistments (d : Dispatcher σ) (es : List (Event σ)) : List Enlistment :=
  (moments d es).flatMap fun x => (x.1.enlistedAt x.2).toList

theorem receipts_concat (d : Dispatcher σ) (es : List (Event σ)) (e : Event σ) :
    receipts d (es ++ [e]) = receipts d es ++ ((d.run es).receipt? e).toList :=
  flatMap_moments_concat _ d es e

theorem enlistments_concat (d : Dispatcher σ) (es : List (Event σ)) (e : Event σ) :
    enlistments d (es ++ [e]) = enlistments d es ++ ((d.run es).enlistedAt e).toList :=
  flatMap_moments_concat _ d es e

theorem receipt?_of_ok {e : Event σ} {receipt : Receipt}
    (h : d.answer? e = some (.ok receipt)) : d.receipt? e = some receipt := by
  unfold receipt?
  rw [h]

theorem receipt?_of_error {e : Event σ} (h : ∃ f, d.answer? e = some (.error f)) :
    d.receipt? e = none := by
  obtain ⟨f, h⟩ := h
  unfold receipt?
  rw [h]

theorem receipt_launch (d : Dispatcher σ) (s : Sending) (content : Content) :
    (d.launch s.now s.message content s.sentTokens s.deliveredTokens).1 =
      { message := s.message
        partCount := content.indices.length
        route := d.route
        ref := if d.route = .ims then some d.fallback.nextFree else none
        time := .ofSeconds s.now } := by
  unfold launch
  cases d.route <;> rfl

theorem enlistedAt_of_ims {e : Event σ} {s : Sending} {content : Content}
    (hkind : e.kind? = some content.kind)
    (hanswer : d.answer? e =
      some (.ok (d.launch s.now s.message content s.sentTokens s.deliveredTokens).1))
    (hroute : d.route = .ims) :
    d.enlistedAt e = some ⟨s.message, content.kind, d.fallback.nextFree⟩ := by
  unfold enlistedAt
  rw [receipt?_of_ok hanswer, receipt_launch, hkind, if_pos hroute]
  rfl

theorem sending_of_enlistedAt {e : Event σ} {x : Enlistment} (h : d.enlistedAt e = some x) :
    ∃ s, e.sending? = some s ∧ x.message = s.message := by
  have hstep := step_handle d e
  unfold enlistedAt at h
  cases hr : d.receipt? e with
  | none => rw [hr] at h; cases h
  | some receipt =>
    generalize d.handle e = d' at hstep
    cases hstep with
    | refused he hanswer =>
      rw [receipt?_of_error hanswer] at hr
      cases hr
    | @launched e s content he hc hne hkind hanswer =>
      rw [receipt?_of_ok hanswer] at h
      refine ⟨s, he, ?_⟩
      rw [receipt_launch, hkind] at h
      split at h
      · obtain rfl := Option.some.inj h
        rfl
      · cases h
    | ignored => cases hr
    | succeeded => cases hr
    | failed => cases hr
    | callBack => cases hr
    | sweep => cases hr
    | surroundings => cases hr

/-- Every message is enlisted once at most. -/
theorem enlistments_sublist (d : Dispatcher σ) (es : List (Event σ)) :
    ((enlistments d es).map Enlistment.message).Sublist (messages es) := by
  induction es using List.reverseRecOn with
  | nil => exact .refl _
  | append_singleton es e ih =>
    rw [enlistments_concat, messages_append, List.map_append]
    refine ih.append ?_
    cases hx : (d.run es).enlistedAt e with
    | none => exact List.nil_sublist _
    | some x =>
      obtain ⟨s, hs, hm⟩ := sending_of_enlistedAt hx
      simp [messages, sendings, hs, hm]

end ShortMessage.Dispatcher
