import ShortMessage.Proofs.Dispatcher.Run
import ShortMessage.Proofs.Tracker.Develop

/-!
# The hand-overs of a dispatcher

Handing pieces over adds attempts to the record, counts those that were taken and lets the tracker
hear of their message; nothing else that matters changes.

* `Handed`, `rejects`: the attempts at a list of pieces, and the pieces that were refused;
* `dispatches`: what is counted of some attempts;
* `Offered`: what handing over changes; `offered_offerVia`, `offered_offerCircuit`.
-/

namespace ShortMessage

namespace Attempt

/-- The message that an attempt belongs to. -/
def message (a : Attempt) : MessageId :=
  a.handOver.message

/-- The part that an attempt is about. -/
def index (a : Attempt) : Nat :=
  a.handOver.index

/-- The route that an attempt takes. -/
def route (a : Attempt) : Route :=
  a.handOver.route

end Attempt

namespace Dispatcher

variable {σ : Type} {d d' d'' : Dispatcher σ} {as bs : List Attempt} {m : MessageId}

/-! ### Attempts at a list of pieces -/

/-- The attempts to hand pieces over by a route, in their order. -/
def Handed (route : Route) (m : MessageId) (ref : Option MessageRef) (cargos : List Cargo)
    (as : List Attempt) : Prop :=
  as.map Attempt.handOver = cargos.map (Cargo.via route m ref)

/-- The pieces that were refused. -/
def rejects (as : List Attempt) : List Cargo :=
  (as.filter (!·.accepted)).map (·.handOver.cargo)

section Handed

variable {route : Route} {m : MessageId} {ref : Option MessageRef} {cargos : List Cargo}
  (h : Handed route m ref cargos as)
include h

theorem Handed.mem {a : Attempt} (ha : a ∈ as) :
    ∃ c ∈ cargos, a.handOver = c.via route m ref := by
  have hm : a.handOver ∈ cargos.map (Cargo.via route m ref) := by
    rw [← h]
    exact List.mem_map_of_mem ha
  obtain ⟨c, hc, hv⟩ := List.mem_map.1 hm
  exact ⟨c, hc, hv.symm⟩

theorem Handed.exists_of_mem {c : Cargo} (hc : c ∈ cargos) :
    ∃ a ∈ as, a.handOver = c.via route m ref := by
  have hm : c.via route m ref ∈ as.map Attempt.handOver := by
    rw [h]
    exact List.mem_map_of_mem hc
  exact List.mem_map.1 hm

theorem Handed.map_index : as.map Attempt.index = cargos.map Cargo.index := by
  have h' := congrArg (List.map HandOver.index) h
  rw [List.map_map, List.map_map] at h'
  exact h'

theorem Handed.of_mem {a : Attempt} (ha : a ∈ as) : a.message = m ∧ a.route = route := by
  obtain ⟨c, -, hc⟩ := h.mem ha
  unfold Attempt.message Attempt.route
  rw [hc]
  exact ⟨rfl, rfl⟩

theorem Handed.map_index_rejects :
    (rejects as).map Cargo.index = (as.filter (!·.accepted)).map Attempt.index := by
  unfold rejects
  rw [List.map_map]
  refine List.map_congr_left fun a ha => ?_
  obtain ⟨c, -, hc⟩ := h.mem (List.mem_filter.1 ha).1
  unfold Attempt.index
  rw [Function.comp_apply, hc]
  rfl

theorem Handed.rejects_subset : rejects as ⊆ cargos := by
  intro g hg
  obtain ⟨a, ha, rfl⟩ := List.mem_map.1 hg
  obtain ⟨c, hc, hv⟩ := h.mem (List.mem_filter.1 ha).1
  rw [hv]
  exact hc

end Handed

/-! ### Handing over -/

/-- What is counted of some attempts: those that the radio took. -/
def dispatches (as : List Attempt) : List Counter :=
  (as.filter (·.accepted)).map fun a => .partDispatched a.route

theorem dispatches_append (as bs : List Attempt) :
    dispatches (as ++ bs) = dispatches as ++ dispatches bs := by
  unfold dispatches
  rw [List.filter_append, List.map_append]

/-- What handing over pieces of a message changes: the record and the counts grow, and the tracker
hears of the message. -/
structure Offered (d : Dispatcher σ) (m : MessageId) (as : List Attempt) (d' : Dispatcher σ) :
    Prop where
  attempts : d'.attempts = d.attempts ++ as
  counted : d'.counted = d.counted ++ dispatches as
  fallback : d'.fallback = d.fallback
  resolved : d'.resolved = d.resolved
  heard : d.tracker.Hears m d'.tracker

theorem Offered.tracker (h : d.Offered m as d') : d.tracker.Develops d'.tracker :=
  h.heard.develops

theorem offered_of_hears {tracker : Tracker} (h : d.tracker.Hears m tracker) :
    d.Offered m [] { d with tracker } :=
  ⟨(List.append_nil _).symm, (List.append_nil _).symm, rfl, rfl, h⟩

theorem Offered.refl (d : Dispatcher σ) (m : MessageId) : d.Offered m [] d :=
  offered_of_hears (.refl _ _)

theorem Offered.trans (h : d.Offered m as d') (h' : d'.Offered m bs d'') :
    d.Offered m (as ++ bs) d'' :=
  ⟨by rw [h'.attempts, h.attempts, List.append_assoc],
    by rw [h'.counted, h.counted, dispatches_append, List.append_assoc],
    h'.fallback.trans h.fallback, h'.resolved.trans h.resolved, h.heard.trans h'.heard⟩

theorem offered_callBack (d : Dispatcher σ) (b : Callback) (s : Signal) :
    d.Offered b.message [] (d.callBack b s) :=
  offered_of_hears (Tracker.hears_callBack _ b s)

theorem offered_echo (d : Dispatcher σ) (b : Callback) (echo : List Signal) :
    d.Offered b.message [] (echo.foldl (fun d s => d.callBack b s) d) := by
  induction echo generalizing d with
  | nil => exact .refl d _
  | cons s echo ih => exact (offered_callBack d b s).trans (ih _)

theorem offered_failAll (d : Dispatcher σ) (m : MessageId) (cargos : List Cargo) :
    d.Offered m [] (d.failAll m cargos) :=
  offered_of_hears (Tracker.hears_foldl_signal cargos m Cargo.index _ _)

variable [Radio σ]

theorem offered_offer (d : Dispatcher σ) (h : HandOver) :
    d.Offered h.message [⟨h, (d.offer h).1⟩] (d.offer h).2 := by
  unfold offer
  cases hv : Radio.offer d.radio h with
  | mk verdict radio =>
    cases verdict with
    | refused => exact ⟨rfl, (List.append_nil _).symm, rfl, rfl, .refl _ _⟩
    | accepted echo =>
      have htaken : d.Offered h.message [⟨h, true⟩]
          (({ d with radio, attempts := d.attempts ++ [⟨h, true⟩] } : Dispatcher σ).count
            (.partDispatched h.route)) :=
        ⟨rfl, rfl, rfl, rfl, .refl _ _⟩
      exact htaken.trans (offered_echo _ h.callback echo)

theorem offered_offerVia (d : Dispatcher σ) (route : Route) (m : MessageId)
    (ref : Option MessageRef) (cargos : List Cargo) :
    ∃ as, Handed route m ref cargos as ∧ d.Offered m as (d.offerVia route m ref cargos).2 ∧
      (d.offerVia route m ref cargos).1 = rejects as := by
  unfold offerVia
  induction cargos generalizing d with
  | nil => exact ⟨[], rfl, .refl d m, rfl⟩
  | cons c cs ih =>
    obtain ⟨as, has, hoff, hrej⟩ := ih (d.offer (c.via route m ref)).2
    refine ⟨⟨c.via route m ref, (d.offer (c.via route m ref)).1⟩ :: as, ?_,
      (offered_offer d _).trans hoff, ?_⟩
    · unfold Handed at has ⊢
      rw [List.map_cons, List.map_cons, has]
    · simp only [offerAll, hrej, rejects]
      cases (d.offer (c.via route m ref)).1 <;> rfl

/-- **The circuit domain** takes a part, or the part is not pending any more. -/
theorem offered_offerCircuit (d : Dispatcher σ) (m : MessageId) (cargos : List Cargo) :
    ∃ as, Handed .circuit m none cargos as ∧ d.Offered m as (d.offerCircuit m cargos) ∧
      ∀ a ∈ as, a.accepted = false → ¬ (d.offerCircuit m cargos).tracker.Pending m a.index := by
  obtain ⟨as, has, hoff, hrej⟩ := offered_offerVia d .circuit m none cargos
  have hfail := offered_failAll (d.offerVia .circuit m none cargos).2 m
    (d.offerVia .circuit m none cargos).1
  have hboth := hoff.trans hfail
  rw [List.append_nil] at hboth
  refine ⟨as, has, hboth, fun a ha hacc => ?_⟩
  have hmem : a.handOver.cargo ∈ (d.offerVia .circuit m none cargos).1 := by
    rw [hrej]
    exact List.mem_map.2 ⟨a, List.mem_filter.2 ⟨ha, by simp [hacc]⟩, rfl⟩
  have hindex : a.index = a.handOver.cargo.index := by
    obtain ⟨c, -, hc⟩ := has.mem ha
    unfold Attempt.index
    rw [hc]
    rfl
  rw [hindex]
  exact Tracker.not_pending_foldl_signal Cargo.index hmem _ m _

end Dispatcher

end ShortMessage
