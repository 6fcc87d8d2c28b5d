import ShortMessage.Proofs.Dispatcher.Launch

/-!
# Tracker, fallback registry and radio agree

What the tracker says of a message, what the fallback registry keeps of it and what was offered to
the radio fit together: `Coherent`.  An event changes that for one message, the one that is sent or
that a carrier decides about; all other messages just go on (`Evolves`).

* `offers`, `Awaited`, `Coherent`: the attempts at a part, the parts that wait for a carrier, and
  the invariant of one message;
* `coherent_of_evolves`, `Launched.coherent`, `Decided.coherent`: what keeps it.
-/

namespace ShortMessage.Dispatcher

variable {σ : Type} {d d' : Dispatcher σ} {m : MessageId} {route : Route} {i : Nat}

/-- The attempts among some at one part by one route. -/
def among (as : List Attempt) (route : Route) (m : MessageId) (i : Nat) : List Attempt :=
  as.filter fun a => a.route = route ∧ a.message = m ∧ a.index = i

/-- The attempts at one part by one route. -/
def offers (d : Dispatcher σ) (route : Route) (m : MessageId) (i : Nat) : List Attempt :=
  among d.attempts route m i

/-- A part that waits for a carrier's report. -/
def Awaited (d : Dispatcher σ) (m : MessageId) (i : Nat) : Prop :=
  ∃ r e, d.fallback.entry? r = some e ∧ e.message = m ∧ e.phase = .awaitingReport ∧
    i ∈ e.content.indices

/-- **The invariant of one message**: no part is offered twice to one route, the message has at most
one entry, the parts that wait there are those that the IP route took, and a pending part waits
there or was taken by the circuit domain. -/
structure Coherent (d : Dispatcher σ) (m : MessageId) : Prop where
  once : ∀ route i, (d.offers route m i).length ≤ 1
  unique : ∀ {r r' e e'}, d.fallback.entry? r = some e → d.fallback.entry? r' = some e' →
    e.message = m → e'.message = m → r = r'
  distinct : ∀ {r e}, d.fallback.entry? r = some e → e.message = m → e.content.indices.Nodup
  awaiting : ∀ {r e}, d.fallback.entry? r = some e → e.message = m →
    e.phase = .awaitingReport → ∀ i ∈ e.content.indices,
      d.offers .circuit m i = [] ∧
        ∃ a ∈ d.offers .ims m i, a.accepted = true ∧ a.handOver.ref = some r ∧
          a.handOver.cargo.kind = e.content.kind
  owned : ∀ {i}, d.tracker.Pending m i →
    d.Awaited m i ∨ ∃ a ∈ d.offers .circuit m i, a.accepted = true

/-- A message that was never sent. -/
structure Unknown (d : Dispatcher σ) (m : MessageId) : Prop where
  context : d.tracker.context? m = none
  attempts : ∀ a ∈ d.attempts, a.message ≠ m
  entries : ∀ r e, d.fallback.entry? r = some e → e.message ≠ m

/-! ### Attempts at one part -/

theorem mem_among {as : List Attempt} {a : Attempt} :
    a ∈ among as route m i ↔ a ∈ as ∧ a.route = route ∧ a.message = m ∧ a.index = i := by
  unfold among
  rw [List.mem_filter, decide_eq_true_eq]

theorem among_append (as bs : List Attempt) :
    among (as ++ bs) route m i = among as route m i ++ among bs route m i :=
  List.filter_append as bs

theorem among_eq_nil {as : List Attempt}
    (h : ∀ a ∈ as, a.route = route → a.message = m → a.index ≠ i) : among as route m i = [] := by
  refine List.filter_eq_nil_iff.2 fun a ha hmem => ?_
  obtain ⟨hr, hm, hi⟩ := of_decide_eq_true hmem
  exact h a ha hr hm hi

theorem length_among_le_one {as : List Attempt} (h : (as.map Attempt.index).Nodup) :
    (among as route m i).length ≤ 1 := by
  have hsub : ((among as route m i).map Attempt.index).Sublist (as.map Attempt.index) :=
    List.filter_sublist.map _
  have hrep : (among as route m i).map Attempt.index =
      List.replicate (among as route m i).length i := by
    refine List.eq_replicate_iff.2 ⟨List.length_map _, fun j hj => ?_⟩
    obtain ⟨a, ha, rfl⟩ := List.mem_map.1 hj
    exact (mem_among.1 ha).2.2.2
  have hnd := h.sublist hsub
  rw [hrep, List.nodup_replicate] at hnd
  exact hnd

theorem offers_append {as : List Attempt} (h : d'.attempts = d.attempts ++ as) :
    d'.offers route m i = d.offers route m i ++ among as route m i := by
  unfold offers
  rw [h, among_append]

theorem Coherent.offers_eq (h : d.Coherent m) {a : Attempt} (ha : a ∈ d.offers route m i) :
    d.offers route m i = [a] := by
  have hlen := h.once route i
  match hl : d.offers route m i with
  | [] =>
    rw [hl] at ha
    cases ha
  | [b] => rw [hl] at ha; rw [List.mem_singleton.1 ha]
  | b :: c :: l =>
    rw [hl] at hlen
    simp only [List.length_cons] at hlen
    omega

theorem Coherent.eq_of_mem_offers (h : d.Coherent m) {a b : Attempt}
    (ha : a ∈ d.offers route m i) (hb : b ∈ d.offers route m i) : a = b := by
  rw [h.offers_eq hb] at ha
  exact List.mem_singleton.1 ha

theorem Unknown.offers_eq_nil (h : d.Unknown m) : d.offers route m i = [] :=
  among_eq_nil fun a ha _ hm => absurd hm (h.attempts a ha)

theorem Unknown.coherent (h : d.Unknown m) : d.Coherent m := by
  refine ⟨fun route i => ?_, fun hr _ hm _ => absurd hm (h.entries _ _ hr),
    fun hr hm => absurd hm (h.entries _ _ hr), fun hr hm => absurd hm (h.entries _ _ hr),
    fun hp => ?_⟩
  · rw [h.offers_eq_nil]
    exact Nat.zero_le 1
  · obtain ⟨c, hc, -⟩ := hp
    rw [h.context] at hc
    cases hc

/-! ### Messages that an event is not about -/

/-- How a message goes on when it is not sent and no carrier decides about it: no part becomes
pending, nothing is offered, and its entry stays as long as a part is pending. -/
structure Evolves (d : Dispatcher σ) (m : MessageId) (d' : Dispatcher σ) : Prop where
  context : d.tracker.context? m = none → d'.tracker.context? m = none
  pending : ∀ {i}, d'.tracker.Pending m i → d.tracker.Pending m i
  attempts : ∃ as, d'.attempts = d.attempts ++ as ∧ ∀ a ∈ as, a.message ≠ m
  entry : ∀ {r e}, d'.fallback.entry? r = some e → e.message = m → d.fallback.entry? r = some e
  kept : ∀ {i}, d'.tracker.Pending m i → ∀ {r e}, d.fallback.entry? r = some e →
    e.message = m → d'.fallback.entry? r = some e

theorem Evolves.offers_eq (h : d.Evolves m d') : d'.offers route m i = d.offers route m i := by
  obtain ⟨as, hatt, hne⟩ := h.attempts
  rw [offers_append hatt, among_eq_nil fun a ha _ hm => absurd hm (hne a ha), List.append_nil]

theorem coherent_of_evolves (h : d.Coherent m) (he : d.Evolves m d') : d'.Coherent m := by
  refine ⟨fun route i => ?_,
    fun hr hr' hm hm' => h.unique (he.entry hr hm) (he.entry hr' hm') hm hm',
    fun hr hm => h.distinct (he.entry hr hm) hm, fun hr hm hp i hi => ?_, fun {i} hp => ?_⟩
  · rw [he.offers_eq]
    exact h.once route i
  · rw [he.offers_eq, he.offers_eq]
    exact h.awaiting (he.entry hr hm) hm hp i hi
  · rw [he.offers_eq]
    rcases h.owned (he.pending hp) with ⟨r, e, hr, hm, hphase, hi⟩ | htaken
    · exact Or.inl ⟨r, e, he.kept hp hr hm, hm, hphase, hi⟩
    · exact Or.inr htaken

theorem unknown_of_evolves (h : d.Unknown m) (he : d.Evolves m d') : d'.Unknown m := by
  obtain ⟨as, hatt, hne⟩ := he.attempts
  refine ⟨he.context h.context, fun a ha => ?_, fun r e hr hm => ?_⟩
  · rw [hatt] at ha
    rcases List.mem_append.1 ha with ha | ha
    · exact h.attempts a ha
    · exact hne a ha
  · exact h.entries r e (he.entry hr hm) hm

theorem evolves_of_develops (htrack : d.tracker.Develops d'.tracker)
    (hatt : d'.attempts = d.attempts) (hfall : d'.fallback.entries = d.fallback.entries)
    (m : MessageId) : d.Evolves m d' := by
  have hentry : ∀ r, d'.fallback.entry? r = d.fallback.entry? r := fun r => by
    unfold Fallback.entry?
    rw [hfall]
  refine ⟨htrack.context?_none, htrack.pending, ⟨[], by rw [hatt, List.append_nil], ?_⟩,
    fun hr _ => hentry _ ▸ hr, fun _ _ _ hr _ => (hentry _).trans hr⟩
  exact fun a ha => (nomatch ha)

theorem evolves_sweep (d : Dispatcher σ) (now : Int) (m : MessageId) :
    d.Evolves m (d.sweep now).2 := by
  have htrack : d.tracker.Develops (d.sweep now).2.tracker := Tracker.develops_sweep _ now
  have hentry : ∀ r, Fallback.entry? (d.sweep now).2.fallback r =
      (d.fallback.entry? r).filter fun e => (d.sweep now).2.tracker.isLive e.message :=
    fun r => Fallback.entry?_retire _ _ r
  refine ⟨htrack.context?_none, htrack.pending, ⟨[], (List.append_nil _).symm, ?_⟩,
    fun hr _ => ?_, fun hp _ _ hr hm => ?_⟩
  · exact fun a ha => (nomatch ha)
  · rw [hentry, Option.filter_eq_some_iff] at hr
    exact hr.1
  · rw [hentry, Option.filter_eq_some_iff]
    exact ⟨hr, hm ▸ hp.isLive⟩

/-! ### Sends -/

section Launched

variable [Radio σ] {s : Sending} {content : Content} {ims circuit : List Attempt}

theorem Launched.of_mem (h : Launched d s content ims circuit d') {a : Attempt}
    (ha : a ∈ ims ++ circuit) :
    a.message = s.message ∧
      a.handOver.callback.reportsSent = decide (a.route = .circuit) := by
  unfold Attempt.message Attempt.route
  rcases List.mem_append.1 ha with ha | ha
  · obtain ⟨c, -, ref, hvia⟩ := h.ims_of_mem a ha
    rw [hvia]
    exact ⟨rfl, rfl⟩
  · obtain ⟨c, -, hvia⟩ := h.circuit_of_mem a ha
    rw [hvia]
    exact ⟨rfl, rfl⟩

theorem Launched.route_ims (h : Launched d s content ims circuit d') {a : Attempt}
    (ha : a ∈ ims) : a.route = .ims := by
  obtain ⟨c, -, ref, hvia⟩ := h.ims_of_mem a ha
  unfold Attempt.route
  rw [hvia]
  rfl

theorem Launched.route_circuit (h : Launched d s content ims circuit d') {a : Attempt}
    (ha : a ∈ circuit) : a.route = .circuit := by
  obtain ⟨c, -, hvia⟩ := h.circuit_of_mem a ha
  unfold Attempt.route
  rw [hvia]
  rfl

theorem Launched.entry_free (hf : d.fallback.Numbered)
    (hroom : d.route = .ims → d.fallback.HasRoom)
    (hroute : d.route = .ims) {e : Fallback.Entry} {f' : Fallback}
    (he : Enlisted d.fallback s.message content ims e f') : d.fallback.entry? e.ref = none := by
  rw [he.ref_eq]
  exact Fallback.nextFree_free hf (hroom hroute)

theorem Launched.evolves (h : Launched d s content ims circuit d') (hf : d.fallback.Numbered)
    (hroom : d.route = .ims → d.fallback.HasRoom) (hm : m ≠ s.message) : d.Evolves m d' := by
  refine ⟨fun hnone => ?_, fun hp => ?_, ⟨_, h.attempts, ?_⟩, ?_, ?_⟩
  · refine h.tracker.context?_none ?_
    rw [Tracker.context?_register, if_neg hm, hnone]
  · rcases Tracker.pending_register (h.tracker.pending hp) with ⟨heq, -⟩ | ⟨-, hp⟩
    · exact absurd heq hm
    · exact hp
  · exact fun a ha heq => hm (heq ▸ (h.of_mem ha).1)
  · intro r e hr hem
    rcases h.fallback with ⟨-, hfall⟩ | ⟨hroute, e', he'⟩
    · rwa [hfall] at hr
    · rw [he'.files.entry?] at hr
      split at hr
      · obtain rfl := Option.some.inj hr
        exact absurd (hem ▸ he'.message_eq) hm
      · exact hr
  · intro i _ r e hr hem
    rcases h.fallback with ⟨-, hfall⟩ | ⟨hroute, e', he'⟩
    · rwa [hfall]
    · rw [he'.files.of_ne, hr]
      rintro rfl
      rw [Launched.entry_free hf hroom hroute he'] at hr
      cases hr

theorem Launched.numbered (h : Launched d s content ims circuit d') (hf : d.fallback.Numbered) :
    d'.fallback.Numbered := by
  rcases h.fallback with ⟨-, hfall⟩ | ⟨-, e, he⟩
  · rwa [hfall]
  · refine hf.of_files he.files ?_
    rw [he.ref_eq]
    exact Fallback.usable_nextFree hf

/-- No part that the IP route has taken is offered to the circuit domain by the same send. -/
theorem Launched.disjoint (h : Launched d s content ims circuit d') (hc : content.Indexed)
    {a b : Attempt} (ha : a ∈ ims) (hacc : a.accepted = true) (hb : b ∈ circuit) :
    a.index ≠ b.index := by
  have hnd := h.split.nodup_iff.2 hc.nodup
  rw [List.map_append] at hnd
  exact (List.nodup_append.1 hnd).2.2 _ (mem_map_accepted.2 ⟨a, ha, hacc, rfl⟩) _
    (List.mem_map_of_mem hb)

theorem Launched.offers_ims (h : Launched d s content ims circuit d')
    (hu : d.Unknown s.message) : d'.offers .ims s.message i = among ims .ims s.message i := by
  have hnone : among circuit .ims s.message i = [] := among_eq_nil fun a ha hroute => by
    rw [h.route_circuit ha] at hroute
    cases hroute
  rw [offers_append h.attempts, hu.offers_eq_nil, List.nil_append, among_append, hnone,
    List.append_nil]

theorem Launched.offers_circuit (h : Launched d s content ims circuit d')
    (hu : d.Unknown s.message) :
    d'.offers .circuit s.message i = among circuit .circuit s.message i := by
  have hnone : among ims .circuit s.message i = [] := among_eq_nil fun a ha hroute => by
    rw [h.route_ims ha] at hroute
    cases hroute
  rw [offers_append h.attempts, hu.offers_eq_nil, List.nil_append, among_append, hnone,
    List.nil_append]

theorem Launched.entry_eq (h : Launched d s content ims circuit d') (hu : d.Unknown s.message)
    {r : MessageRef} {e : Fallback.Entry} (hr : d'.fallback.entry? r = some e)
    (hm : e.message = s.message) :
    Enlisted d.fallback s.message content ims e d'.fallback ∧ r = e.ref := by
  rcases h.fallback with ⟨-, hfall⟩ | ⟨-, e', he'⟩
  · rw [hfall] at hr
    exact absurd hm (hu.entries r e hr)
  · rw [he'.files.entry?] at hr
    split at hr
    · next heq =>
      obtain rfl := Option.some.inj hr
      exact ⟨he', heq⟩
    · exact absurd hm (hu.entries r e hr)

theorem Launched.once (h : Launched d s content ims circuit d') (hu : d.Unknown s.message)
    (hc : content.Indexed) (route : Route) (i : Nat) :
    (d'.offers route s.message i).length ≤ 1 := by
  cases route with
  | ims =>
    rw [h.offers_ims hu]
    exact length_among_le_one h.nodup
  | circuit =>
    have hnd := h.split.nodup_iff.2 hc.nodup
    rw [List.map_append] at hnd
    rw [h.offers_circuit hu]
    exact length_among_le_one (List.nodup_append.1 hnd).2.1

theorem Launched.awaiting (h : Launched d s content ims circuit d') (hu : d.Unknown s.message)
    (hc : content.Indexed) {e : Fallback.Entry}
    (he : Enlisted d.fallback s.message content ims e d'.fallback)
    (hp : e.phase = .awaitingReport) (hi : i ∈ e.content.indices) :
    d'.offers .circuit s.message i = [] ∧
      ∃ a ∈ d'.offers .ims s.message i, a.accepted = true ∧ a.handOver.ref = some e.ref ∧
        a.handOver.cargo.kind = e.content.kind := by
  obtain ⟨a, ha, hacc, rfl⟩ := (he.mem_iff hp i).1 hi
  refine ⟨?_, a, ?_, hacc, he.refs a ha, ?_⟩
  · rw [h.offers_circuit hu]
    exact among_eq_nil fun b hb _ _ hi => h.disjoint hc ha hacc hb hi.symm
  · rw [h.offers_ims hu]
    exact mem_among.2 ⟨ha, h.route_ims ha, (h.of_mem (List.mem_append_left _ ha)).1, rfl⟩
  · obtain ⟨c, hmem, ref, hvia⟩ := h.ims_of_mem a ha
    rw [hvia, he.kind_eq]
    exact Content.kind_of_mem_cargos hmem

/-- A part that is still pending after its send waits for the carrier or was taken by the circuit
domain. -/
theorem Launched.owned (h : Launched d s content ims circuit d') (hu : d.Unknown s.message)
    (hc : content.Indexed) (hp : d'.tracker.Pending s.message i) :
    d'.Awaited s.message i ∨ ∃ a ∈ d'.offers .circuit s.message i, a.accepted = true := by
  have hlt : i < content.indices.length := by
    rcases Tracker.pending_register (h.tracker.pending hp) with ⟨-, hlt⟩ | ⟨hne, -⟩
    · exact hlt
    · exact absurd rfl hne
  have hi := h.split.mem_iff.2 (hc.mem_indices hlt)
  rw [List.map_append, List.mem_append] at hi
  rcases hi with hi | hi
  · obtain ⟨a, ha, hacc, rfl⟩ := mem_map_accepted.1 hi
    rcases h.fallback with ⟨hnil, -⟩ | ⟨-, e, he⟩
    · rw [hnil] at ha
      cases ha
    · have hphase := he.awaits ⟨a, ha, hacc⟩
      exact Or.inl ⟨e.ref, e, he.files.self, he.message_eq, hphase,
        (he.mem_iff hphase _).2 ⟨a, ha, hacc, rfl⟩⟩
  · obtain ⟨a, ha, rfl⟩ := List.mem_map.1 hi
    refine Or.inr ⟨a, ?_, ?_⟩
    · rw [h.offers_circuit hu]
      exact mem_among.2 ⟨ha, h.route_circuit ha, (h.of_mem (List.mem_append_right _ ha)).1, rfl⟩
    · cases hacc : a.accepted with
      | true => rfl
      | false => exact absurd hp (h.refused a ha hacc)

theorem Launched.coherent (h : Launched d s content ims circuit d') (hu : d.Unknown s.message)
    (hc : content.Indexed) : d'.Coherent s.message := by
  refine ⟨h.once hu hc, fun hr hr' hm hm' => ?_, fun hr hm => ?_, fun hr hm hp i hi => ?_,
    h.owned hu hc⟩
  · obtain ⟨he, rfl⟩ := h.entry_eq hu hr hm
    obtain ⟨he', rfl⟩ := h.entry_eq hu hr' hm'
    rw [he.ref_eq, he'.ref_eq]
  · exact hc.nodup.sublist (h.entry_eq hu hr hm).1.sublist
  · obtain ⟨he, rfl⟩ := h.entry_eq hu hr hm
    exact h.awaiting hu hc he hp hi

end Launched

/-! ### Decisions of a carrier -/

section Decided

variable {e : Fallback.Entry} {r : MessageRef} {circuit : List Attempt}

theorem Decided.of_mem (h : Decided d e circuit d') {a : Attempt} (ha : a ∈ circuit) :
    a.message = e.message ∧ a.route = .circuit ∧ a.handOver.callback.reportsSent = true ∧
      a.index ∈ e.content.indices ∧ d.tracker.Pending e.message a.index := by
  obtain ⟨c, hc, hvia, hp⟩ := h.circuit_of_mem a ha
  have hi : c.index ∈ e.content.indices := by
    rw [← e.content.map_index_cargos]
    exact List.mem_map_of_mem hc
  unfold Attempt.message Attempt.route Attempt.index
  rw [hvia]
  exact ⟨rfl, rfl, rfl, hi, hp⟩

theorem Decided.entry_cases (h : Decided d e circuit d') {r' : MessageRef}
    {e' : Fallback.Entry} (hr : d'.fallback.entry? r' = some e') :
    (r' = e.ref ∧ e' = { e with phase := .concluded }) ∨
      (r' ≠ e.ref ∧ d.fallback.entry? r' = some e') := by
  rw [h.files.entry?] at hr
  split at hr
  · next heq => exact Or.inl ⟨heq, (Option.some.inj hr).symm⟩
  · next hne => exact Or.inr ⟨hne, hr⟩

theorem Decided.waiting (h : Decided d e circuit d') {r' : MessageRef} {e' : Fallback.Entry}
    (hr : d'.fallback.entry? r' = some e') (hp : e'.phase = .awaitingReport) :
    r' ≠ e.ref ∧ d.fallback.entry? r' = some e' := by
  rcases h.entry_cases hr with ⟨-, rfl⟩ | hold
  · cases hp
  · exact hold

theorem Decided.evolves (h : Decided d e circuit d') (he : d.fallback.entry? e.ref = some e)
    (hm : m ≠ e.message) : d.Evolves m d' := by
  refine ⟨h.tracker.context?_none, h.tracker.pending, ⟨circuit, h.attempts, ?_⟩, ?_, ?_⟩
  · exact fun a ha heq => hm (heq ▸ (h.of_mem ha).1)
  · intro r' e' hr hem
    rcases h.entry_cases hr with ⟨-, rfl⟩ | ⟨-, hr⟩
    · exact absurd hem.symm hm
    · exact hr
  · intro i _ r' e' hr hem
    rw [h.files.of_ne, hr]
    rintro rfl
    rw [he] at hr
    obtain rfl := Option.some.inj hr
    exact hm hem.symm

theorem Decided.once (h : Decided d e circuit d') (hco : d.Coherent e.message)
    (he : d.fallback.entry? e.ref = some e) (hphase : e.phase = .awaitingReport)
    (route : Route) (i : Nat) : (d'.offers route e.message i).length ≤ 1 := by
  rw [offers_append h.attempts]
  cases route with
  | ims =>
    have hnone : among circuit .ims e.message i = [] := among_eq_nil fun a ha hroute => by
      rw [(h.of_mem ha).2.1] at hroute
      cases hroute
    rw [hnone, List.append_nil]
    exact hco.once .ims i
  | circuit =>
    by_cases hi : i ∈ e.content.indices
    · rw [(hco.awaiting he rfl hphase i hi).1, List.nil_append]
      exact length_among_le_one ((hco.distinct he rfl).sublist h.sublist)
    · have hnot : ∀ a ∈ circuit, a.index ≠ i := by
        rintro a ha rfl
        exact hi (h.of_mem ha).2.2.2.1
      rw [among_eq_nil fun a ha _ _ => hnot a ha, List.append_nil]
      exact hco.once .circuit i

/-- A part that is still pending after a decision was taken by the circuit domain. -/
theorem Decided.owned (h : Decided d e circuit d') (hco : d.Coherent e.message)
    (he : d.fallback.entry? e.ref = some e) (hp : d'.tracker.Pending e.message i) :
    ∃ a ∈ d'.offers .circuit e.message i, a.accepted = true := by
  rw [offers_append h.attempts]
  rcases hco.owned (h.tracker.pending hp) with ⟨r', e', hr, hm, -, hi⟩ | ⟨a, ha, hacc⟩
  · obtain rfl := hco.unique hr he hm rfl
    rw [he] at hr
    obtain rfl := Option.some.inj hr
    obtain ⟨a, ha, rfl, hacc⟩ := h.taken i hi hp
    refine ⟨a, List.mem_append_right _ (mem_among.2 ⟨ha, ?_, ?_, rfl⟩), hacc⟩
    · exact (h.of_mem ha).2.1
    · exact (h.of_mem ha).1
  · exact ⟨a, List.mem_append_left _ ha, hacc⟩

theorem Decided.coherent (h : Decided d e circuit d') (hco : d.Coherent e.message)
    (he : d.fallback.entry? e.ref = some e) (hphase : e.phase = .awaitingReport) :
    d'.Coherent e.message := by
  -- the message has one entry, and it has just concluded
  have hback : ∀ {r' e'}, d'.fallback.entry? r' = some e' → e'.message = e.message →
      r' = e.ref ∧ e' = { e with phase := .concluded } := by
    intro r' e' hr hm
    rcases h.entry_cases hr with heq | ⟨hne, hr⟩
    · exact heq
    · exact absurd (hco.unique hr he hm rfl) hne
  refine ⟨h.once hco he hphase, fun hr hr' hm hm' => ?_, fun hr hm => ?_,
    fun hr hm hp => ?_, fun hp => Or.inr (h.owned hco he hp)⟩
  · rw [(hback hr hm).1, (hback hr' hm').1]
  · rw [(hback hr hm).2]
    show e.content.indices.Nodup
    exact hco.distinct he rfl
  · exact absurd (hback hr hm).1 (h.waiting hr hp).1

theorem Decided.numbered (h : Decided d e circuit d') (hf : d.fallback.Numbered)
    (he : d.fallback.entry? e.ref = some e) : d'.fallback.Numbered :=
  hf.of_files h.files (hf.usable _ _ he)

end Decided

end ShortMessage.Dispatcher
