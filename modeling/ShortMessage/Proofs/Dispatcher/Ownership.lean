import ShortMessage.Proofs.Dispatcher.Invariant
import ShortMessage.Radio.Scripted

/-!
# Who settles a pending part

A part that is pending is waiting for somebody: for the carrier's report on its message, or for the
circuit domain, which calls back.  It is never left alone, and never waits for both
(`pending_owner`).

* `CarrierOwns`, `CircuitOwns`: the two situations.
-/

namespace ShortMessage.Dispatcher

variable {σ : Type} {d : Dispatcher σ} {m : MessageId} {i : Nat}

/-- The part was taken by the IP route, was never offered to the circuit domain, and its message
waits for the carrier's report on it. -/
def CarrierOwns (d : Dispatcher σ) (m : MessageId) (i : Nat) : Prop :=
  (∃ a, d.offers .ims m i = [a] ∧ a.accepted = true) ∧ d.offers .circuit m i = [] ∧ d.Awaited m i

/-- The part was offered to the circuit domain once, which took it and reports on it, and no carrier
is to report on it. -/
def CircuitOwns (d : Dispatcher σ) (m : MessageId) (i : Nat) : Prop :=
  (∃ a, d.offers .circuit m i = [a] ∧ a.accepted = true ∧
    a.handOver.callback.reportsSent = true) ∧ ¬ d.Awaited m i

theorem carrierOwns_of_awaited (h : d.Coherent m) (ha : d.Awaited m i) : d.CarrierOwns m i := by
  obtain ⟨r, e, hr, hm, hp, hi⟩ := ha
  obtain ⟨hnone, a, hmem, hacc, -⟩ := h.awaiting hr hm hp i hi
  exact ⟨⟨a, h.offers_eq hmem, hacc⟩, hnone, r, e, hr, hm, hp, hi⟩

/-- **Every pending part has one owner** after every admissible run: the carrier or the circuit
domain. -/
theorem pending_owner [Radio σ] {d₀ : Dispatcher σ} (h₀ : d₀.Initial) {es : List (Event σ)}
    (h : Admissible d₀ es) (hp : (d₀.run es).tracker.Pending m i) :
    ((d₀.run es).CarrierOwns m i ∧ ¬ (d₀.run es).CircuitOwns m i) ∨
      ((d₀.run es).CircuitOwns m i ∧ ¬ (d₀.run es).CarrierOwns m i) := by
  have hinv := h₀.invariant_run h
  have hco := hinv.coherent m
  by_cases ha : (d₀.run es).Awaited m i
  · exact Or.inl ⟨carrierOwns_of_awaited hco ha, fun hcirc => hcirc.2 ha⟩
  · obtain ⟨a, hmem, hacc⟩ := (hco.owned hp).resolve_left ha
    have hroute := mem_among.1 hmem
    refine Or.inr ⟨⟨⟨a, hco.offers_eq hmem, hacc, ?_⟩, ha⟩,
      fun hcar => ha hcar.2.2⟩
    rw [hinv.reportsSent a hroute.1, hroute.2.1]
    rfl

/-- A multimedia message that the IP route took, and whose carrier reports a failure. -/
def resentMultimedia : List (Event ScriptedRadio) :=
  [.sendMultimedia 0 ⟨7⟩ [1] none none, .report .mms .first false]

theorem admissible_resentMultimedia (card : Card) :
    Admissible (new .standard 300 true (ScriptedRadio.new true) card) resentMultimedia := by
  have h₀ : (new .standard 300 true (ScriptedRadio.new true) card).Initial := ⟨_, _, _, _, _, rfl⟩
  exact h₀.admissible_of_length (by decide) (by decide)

/-- After the report the circuit domain owns the message, and the carrier does not. -/
theorem pending_owner_resent :
    let d₀ := new .standard 300 true (ScriptedRadio.new true) (.memory ⟨0, 0, []⟩)
    d₀.Initial ∧ Admissible d₀ resentMultimedia ∧
      (d₀.run resentMultimedia).tracker.Pending ⟨7⟩ 0 ∧
      (d₀.run resentMultimedia).CircuitOwns ⟨7⟩ 0 := by
  intro d₀
  have h₀ : d₀.Initial := ⟨_, _, _, _, _, rfl⟩
  have h : Admissible d₀ resentMultimedia := admissible_resentMultimedia _
  have hp : (d₀.run resentMultimedia).tracker.Pending ⟨7⟩ 0 := ⟨_, rfl, rfl⟩
  refine ⟨h₀, h, hp, ?_⟩
  rcases pending_owner h₀ h hp with ⟨hcarrier, -⟩ | ⟨hcircuit, -⟩
  · have hsome : (d₀.run resentMultimedia).offers .circuit ⟨7⟩ 0 ≠ [] := by decide
    exact absurd hcarrier.2.1 hsome
  · exact hcircuit

end ShortMessage.Dispatcher
