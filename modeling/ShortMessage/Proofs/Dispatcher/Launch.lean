import ShortMessage.Proofs.Dispatcher.HandOver

/-!
# Sends, and decisions of a carrier

A send offers every part to one route, and to the circuit domain what the IP route has refused, so
every part ends up on one of them (`Launched.split`).  A carrier that decides about an entry settles
its parts, or has those that are pending offered to the circuit domain.

* `Launched`, `launched_launch`: a send, on either route;
* `Enlisted`: the entry that waits for the carrier's report, with the parts that the IP route took;
* `Decided`, `resends`, `decided_succeeded`, `decided_failed`: a decision, and what it counts.
-/

namespace ShortMessage.Dispatcher

variable {σ : Type} {d d' : Dispatcher σ}

/-- The entry of a send on the IP route: it waits for the parts that the route took, if there are
any, and else it has concluded. -/
structure Enlisted (f : Fallback) (m : MessageId) (content : Content) (ims : List Attempt)
    (e : Fallback.Entry) (f' : Fallback) : Prop where
  files : f.Files e f'
  ref_eq : e.ref = f.nextFree
  message_eq : e.message = m
  kind_eq : e.content.kind = content.kind
  sublist : e.content.indices.Sublist content.indices
  refs : ∀ a ∈ ims, a.handOver.ref = some e.ref
  mem_iff : e.phase = .awaitingReport →
    ∀ i, i ∈ e.content.indices ↔ ∃ a ∈ ims, a.accepted = true ∧ a.index = i
  awaits : (∃ a ∈ ims, a.accepted = true) → e.phase = .awaitingReport
  phase : e.phase = .awaitingReport ∨ e.phase = .concluded
  taken : e.phase = .awaitingReport → ∀ c ∈ e.content.cargos, ⟨c.via .ims m e.ref, true⟩ ∈ ims

/-! ### Lists that split -/

theorem mem_left_iff_of_perm {l₁ l₂ l : List Nat} (h : (l₁ ++ l₂).Perm l) (hnd : l.Nodup)
    {i : Nat} : i ∈ l₁ ↔ i ∈ l ∧ i ∉ l₂ := by
  have hnd' := (List.nodup_append.1 (h.nodup_iff.2 hnd)).2.2
  rw [← h.mem_iff, List.mem_append]
  constructor
  · exact fun hi => ⟨Or.inl hi, fun hi' => hnd' i hi i hi' rfl⟩
  · rintro ⟨hi | hi, hn⟩
    · exact hi
    · exact absurd hi hn

theorem mem_map_accepted {as : List Attempt} {i : Nat} :
    i ∈ (as.filter (·.accepted)).map Attempt.index ↔
      ∃ a ∈ as, a.accepted = true ∧ a.index = i := by
  rw [List.mem_map]
  simp only [List.mem_filter, and_assoc]

theorem Handed.accepted_of_not_mem {route : Route} {m : MessageId} {ref : Option MessageRef}
    {cargos : List Cargo} {as : List Attempt} (h : Handed route m ref cargos as) {c : Cargo}
    (hc : c ∈ cargos) (hno : c.index ∉ (rejects as).map Cargo.index) :
    ⟨c.via route m ref, true⟩ ∈ as := by
  obtain ⟨⟨handOver, accepted⟩, ha, hvia⟩ := h.exists_of_mem hc
  obtain rfl : handOver = c.via route m ref := hvia
  cases accepted with
  | true => exact ha
  | false =>
    refine absurd (List.mem_map_of_mem ?_) hno
    exact List.mem_map.2 ⟨_, List.mem_filter.2 ⟨ha, rfl⟩, rfl⟩

theorem Handed.split {route : Route} {m : MessageId} {ref : Option MessageRef}
    {content : Content} {as : List Attempt} (h : Handed route m ref content.cargos as) :
    ((as.filter (·.accepted)).map Attempt.index ++ (rejects as).map Cargo.index).Perm
      content.indices := by
  rw [h.map_index_rejects, ← List.map_append, ← content.map_index_cargos, ← h.map_index]
  exact (List.filter_append_perm _ as).map _

/-! ### The entry of a send -/

theorem enlisted_of_all {f : Fallback} {m : MessageId} {content : Content} {ims : List Attempt}
    (h : Handed .ims m (some f.nextFree) content.cargos ims) (hnone : rejects ims = []) :
    Enlisted f m content ims ⟨f.nextFree, m, content, .awaitingReport⟩
      (f.register m content).2 := by
  refine ⟨f.files_register m content, rfl, rfl, rfl, .refl _, fun a ha => ?_, fun _ i => ?_,
    fun _ => rfl, Or.inl rfl, fun _ c hc => h.accepted_of_not_mem hc ?_⟩
  · obtain ⟨c, -, hc⟩ := h.mem ha
    rw [hc]
    rfl
  · have hsplit := h.split
    rw [hnone, List.map_nil, List.append_nil] at hsplit
    rw [← mem_map_accepted]
    exact hsplit.mem_iff.symm
  · rw [hnone]
    exact List.not_mem_nil

theorem enlisted_of_some {f : Fallback} {m : MessageId} {content : Content} {ims : List Attempt}
    (hf : f.Numbered) (hc : content.Indexed)
    (h : Handed .ims m (some f.nextFree) content.cargos ims) :
    ∃ e, Enlisted f m content ims e
      ((f.register m content).2.detach f.nextFree ((rejects ims).map Cargo.index)).2 := by
  have hreg := f.files_register m content
  have hdet := Fallback.files_detach hreg.self rfl ((rejects ims).map Cargo.index)
  have hmem : ∀ i, i ∈ (ims.filter (·.accepted)).map Attempt.index ↔
      i ∈ content.indices ∧ i ∉ (rejects ims).map Cargo.index :=
    fun i => mem_left_iff_of_perm h.split hc.nodup
  let gone := (rejects ims).map Cargo.index
  have hleft : (if content.exhaustedBy gone = true then Fallback.Phase.concluded
      else .awaitingReport) = .awaitingReport → content.exhaustedBy gone = false := by
    cases content.exhaustedBy gone with
    | false => exact fun _ => rfl
    | true => exact fun hp => by cases hp
  refine ⟨_, hreg.trans hdet rfl (Fallback.usable_nextFree hf), rfl, rfl,
    content.kind_without _, content.indices_without_sublist _, fun a ha => ?_, fun hp i => ?_,
    ?_, ?_, fun hp c hc => ?_⟩
  · obtain ⟨c, -, hc⟩ := h.mem ha
    rw [hc]
    rfl
  · rw [← mem_map_accepted, hmem]
    show i ∈ (content.without _).indices ↔ _
    rw [Content.indices_without (hleft hp), List.mem_filter, decide_eq_true_eq]
  · rintro ⟨a, ha, hacc⟩
    have hi := (hmem a.index).1 (mem_map_accepted.2 ⟨a, ha, hacc, rfl⟩)
    show (if content.exhaustedBy _ = true then _ else _) = Fallback.Phase.awaitingReport
    rw [if_neg fun hex => hi.2 (Content.mem_of_exhaustedBy hex _ hi.1)]
  · show (if content.exhaustedBy _ = true then _ else _) = _ ∨ _
    split
    · exact Or.inr rfl
    · exact Or.inl rfl
  · obtain ⟨hmem, hno⟩ := Content.mem_cargos_without (hleft hp) hc
    exact h.accepted_of_not_mem hmem hno

/-! ### Decisions of a carrier -/

/-- What is counted of a resend beside its hand-overs: that something was resent. -/
def resends (kind : Kind) (as : List Attempt) : List Counter :=
  if as.isEmpty then [] else [.fallbackResend kind]

/-- **What a carrier's decision does**: the entry concludes, and each of its parts is settled or
taken by the circuit domain.  Only pending parts are offered to it. -/
structure Decided (d : Dispatcher σ) (e : Fallback.Entry) (circuit : List Attempt)
    (d' : Dispatcher σ) : Prop where
  attempts : d'.attempts = d.attempts ++ circuit
  counted : d'.counted = d.counted ++ (resends e.content.kind circuit ++ dispatches circuit)
  resolved : d'.resolved = d.resolved
  heard : d.tracker.Hears e.message d'.tracker
  files : d.fallback.Files { e with phase := .concluded } d'.fallback
  circuit_of_mem : ∀ a ∈ circuit, ∃ c ∈ e.content.cargos,
    a.handOver = c.via .circuit e.message none ∧ d.tracker.Pending e.message c.index
  sublist : (circuit.map Attempt.index).Sublist e.content.indices
  taken : ∀ i ∈ e.content.indices, d'.tracker.Pending e.message i →
    ∃ a ∈ circuit, a.index = i ∧ a.accepted = true

theorem Decided.tracker {e : Fallback.Entry} {circuit : List Attempt}
    (h : Decided d e circuit d') : d.tracker.Develops d'.tracker :=
  h.heard.develops

theorem decided_succeeded (d : Dispatcher σ) (e : Fallback.Entry) :
    Decided d e []
      { d with
          fallback := d.fallback.move e .concluded
          tracker := (d.tracker.settle e.message e.content.indices .success).2 } where
  attempts := (List.append_nil _).symm
  counted := (List.append_nil _).symm
  resolved := rfl
  heard := Tracker.hears_settle _ _ _ _
  files := Fallback.files_move _ _ _
  circuit_of_mem _ ha := nomatch ha
  sublist := List.nil_sublist _
  taken _ hi hp := absurd hp (Tracker.not_pending_settle hi _ _ _)

theorem mem_pendingCargos {e : Fallback.Entry} {c : Cargo} :
    c ∈ d.pendingCargos e ↔ c ∈ e.content.cargos ∧ d.tracker.Pending e.message c.index := by
  unfold pendingCargos Tracker.parts? Tracker.Pending
  cases d.tracker.context? e.message with
  | none => simp
  | some c => simp [List.mem_filter]

theorem pendingCargos_sublist (d : Dispatcher σ) (e : Fallback.Entry) :
    (d.pendingCargos e).Sublist e.content.cargos := by
  unfold pendingCargos
  split
  · exact List.nil_sublist _
  · exact List.filter_sublist

/-! ### Sends -/

variable [Radio σ]

/-- **What a send does.**  Every part is taken by the IP route or offered to the circuit domain; one
that the circuit domain refuses is not pending any more. -/
structure Launched (d : Dispatcher σ) (s : Sending) (content : Content)
    (ims circuit : List Attempt) (d' : Dispatcher σ) : Prop where
  attempts : d'.attempts = d.attempts ++ (ims ++ circuit)
  counted : d'.counted = d.counted ++ dispatches (ims ++ circuit)
  resolved : d'.resolved = d.resolved
  heard : (d.tracker.register s.now s.message content.indices.length s.sentTokens
    s.deliveredTokens).Hears s.message d'.tracker
  ims_of_mem : ∀ a ∈ ims, ∃ c ∈ content.cargos, ∃ ref, a.handOver = c.via .ims s.message ref
  circuit_of_mem : ∀ a ∈ circuit,
    ∃ c ∈ content.cargos, a.handOver = c.via .circuit s.message none
  nodup : (ims.map Attempt.index).Nodup
  split : ((ims.filter (·.accepted) ++ circuit).map Attempt.index).Perm content.indices
  refused : ∀ a ∈ circuit, a.accepted = false → ¬ d'.tracker.Pending s.message a.index
  fallback : (ims = [] ∧ d'.fallback = d.fallback) ∨
    (d.route = .ims ∧ ∃ e, Enlisted d.fallback s.message content ims e d'.fallback)

theorem Launched.tracker {s : Sending} {content : Content} {ims circuit : List Attempt}
    (h : Launched d s content ims circuit d') :
    (d.tracker.register s.now s.message content.indices.length s.sentTokens
      s.deliveredTokens).Develops d'.tracker :=
  h.heard.develops

/-- A dispatcher as a send finds it when the first part is offered. -/
def opened (d : Dispatcher σ) (s : Sending) (content : Content) : Dispatcher σ :=
  d.track s.now s.message content s.sentTokens s.deliveredTokens

theorem launched_circuit {s : Sending} {content : Content} {as : List Attempt}
    (h : Handed .circuit s.message none content.cargos as)
    (hoff : (d.opened s content).Offered s.message as d')
    (href : ∀ a ∈ as, a.accepted = false → ¬ d'.tracker.Pending s.message a.index) :
    Launched d s content [] as d' where
  attempts := hoff.attempts
  counted := hoff.counted
  resolved := hoff.resolved
  heard := hoff.heard
  ims_of_mem _ ha := nomatch ha
  circuit_of_mem _ ha := h.mem ha
  nodup := List.nodup_nil
  split := by
    rw [List.filter_nil, List.nil_append, h.map_index, content.map_index_cargos]
  refused := href
  fallback := Or.inl ⟨rfl, hoff.fallback⟩

theorem launched_ims {s : Sending} {content : Content} {ims circuit : List Attempt}
    {d₂ d₃ : Dispatcher σ} (hroute : d.route = .ims) (hf : d.fallback.Numbered)
    (hc : content.Indexed)
    (hims : Handed .ims s.message (some d.fallback.nextFree) content.cargos ims)
    (hoff : ((d.opened s content).enlist s.message content).2.Offered s.message ims d₂)
    (hleft : d₃ = if (rejects ims).isEmpty then d₂
      else d₂.detach d.fallback.nextFree (rejects ims))
    (hcircuit : Handed .circuit s.message none (rejects ims) circuit)
    (hre : d₃.Offered s.message circuit d')
    (href : ∀ a ∈ circuit, a.accepted = false → ¬ d'.tracker.Pending s.message a.index) :
    Launched d s content ims circuit d' := by
  have hkeep : d₃.attempts = d₂.attempts ∧ d₃.counted = d₂.counted ∧
      d₃.resolved = d₂.resolved ∧ d₃.tracker = d₂.tracker := by
    rw [hleft]
    split <;> exact ⟨rfl, rfl, rfl, rfl⟩
  obtain ⟨hatt, hcount, hres, htrack⟩ := hkeep
  have hentry : ∃ e, Enlisted d.fallback s.message content ims e d₃.fallback := by
    have hreg : d₂.fallback = (d.fallback.register s.message content).2 := hoff.fallback
    rw [hleft]
    split
    · next hnone =>
      rw [hreg]
      exact ⟨_, enlisted_of_all hims (List.isEmpty_iff.1 hnone)⟩
    · show ∃ e, Enlisted _ _ _ _ e (d₂.fallback.detach _ _).2
      rw [hreg]
      exact enlisted_of_some hf hc hims
  have hlist : ims.map Attempt.index = content.indices := by
    rw [hims.map_index, content.map_index_cargos]
  refine ⟨?_, ?_, ?_, ?_, fun a ha => ?_, fun a ha => ?_, ?_, ?_, href,
    Or.inr ⟨hroute, ?_⟩⟩
  · rw [hre.attempts, hatt, hoff.attempts, List.append_assoc]
    rfl
  · rw [hre.counted, hcount, hoff.counted, dispatches_append, List.append_assoc]
    rfl
  · rw [hre.resolved, hres, hoff.resolved]
    rfl
  · exact hoff.heard.trans (htrack ▸ hre.heard)
  · obtain ⟨c, hmem, hvia⟩ := hims.mem ha
    exact ⟨c, hmem, _, hvia⟩
  · obtain ⟨c, hmem, hvia⟩ := hcircuit.mem ha
    exact ⟨c, hims.rejects_subset hmem, hvia⟩
  · rw [hlist]
    exact hc.nodup
  · rw [List.map_append, hcircuit.map_index]
    exact hims.split
  · rw [hre.fallback]
    exact hentry

theorem offered_reroute (d : Dispatcher σ) (m : MessageId) (ref : MessageRef)
    (refused : List Cargo) :
    ∃ as, Handed .circuit m none refused as ∧
      Offered (if refused.isEmpty then d else d.detach ref refused) m as
        (d.reroute m ref refused) ∧
      ∀ a ∈ as, a.accepted = false → ¬ (d.reroute m ref refused).tracker.Pending m a.index := by
  unfold reroute
  cases refused with
  | nil => exact ⟨[], rfl, .refl d m, fun a ha => (nomatch ha)⟩
  | cons c cs => exact offered_offerCircuit (d.detach ref (c :: cs)) m (c :: cs)

theorem launched_launch (d : Dispatcher σ) (s : Sending) {content : Content}
    (hf : d.fallback.Numbered) (hc : content.Indexed) :
    ∃ ims circuit, Launched d s content ims circuit
      (d.launch s.now s.message content s.sentTokens s.deliveredTokens).2 := by
  unfold launch
  cases hroute : d.route with
  | circuit =>
    obtain ⟨as, has, hoff, href⟩ := offered_offerCircuit (d.opened s content) s.message
      content.cargos
    exact ⟨[], as, launched_circuit has hoff href⟩
  | ims =>
    obtain ⟨ims, hims, hoff, hrej⟩ := offered_offerVia
      ((d.opened s content).enlist s.message content).2 .ims s.message
      (some d.fallback.nextFree) content.cargos
    obtain ⟨circuit, hcircuit, hre, href⟩ := offered_reroute
      (((d.opened s content).enlist s.message content).2.offerVia .ims s.message
        (some d.fallback.nextFree) content.cargos).2
      s.message d.fallback.nextFree (rejects ims)
    refine ⟨ims, circuit, ?_⟩
    rw [← hrej] at hre href
    exact launched_ims hroute hf hc hims hoff (by rw [hrej]) hcircuit hre href

/-! ### Resends -/

/-- A resend counts, unless there is nothing to resend, and offers the pending pieces of an entry to
the circuit domain. -/
theorem offered_resend (d : Dispatcher σ) (e : Fallback.Entry) :
    ∃ as, Handed .circuit e.message none (d.pendingCargos e) as ∧
      Offered { d with counted := d.counted ++ resends e.content.kind as } e.message as
        (d.resend e) ∧
      ∀ a ∈ as, a.accepted = false → ¬ (d.resend e).tracker.Pending e.message a.index := by
  unfold resend
  simp only
  split
  · next hnone =>
    rw [List.isEmpty_iff.1 hnone]
    refine ⟨[], rfl, ?_, fun a ha => (nomatch ha)⟩
    exact ⟨(List.append_nil _).symm, by simp [resends, dispatches], rfl, rfl, .refl _ _⟩
  · next hsome =>
    obtain ⟨as, has, hoff, href⟩ := offered_offerCircuit
      (d.count (.fallbackResend e.content.kind)) e.message (d.pendingCargos e)
    have hne : as.isEmpty = false := by
      cases as with
      | nil =>
        have hnone : d.pendingCargos e = [] := List.map_eq_nil_iff.1 has.symm
        rw [hnone] at hsome
        exact absurd rfl hsome
      | cons a as => rfl
    refine ⟨as, has, ?_, href⟩
    rw [resends, hne]
    exact hoff

theorem decided_failed {ref : MessageRef} {e : Fallback.Entry} (hf : d.fallback.Numbered)
    (he : d.fallback.entry? ref = some e)
    (hd : d' = ({ d with fallback := d.fallback.move e .awaitingResend } : Dispatcher σ).resend
      { e with phase := .awaitingResend }) :
    ∃ circuit, Decided d e circuit { d' with fallback := d'.fallback.markResent ref } := by
  obtain ⟨as, has, hoff, href⟩ := offered_resend
    ({ d with fallback := d.fallback.move e .awaitingResend } : Dispatcher σ)
    { e with phase := .awaitingResend }
  rw [← hd] at hoff href
  refine ⟨as, hoff.attempts, hoff.counted.trans (List.append_assoc _ _ _), hoff.resolved,
    hoff.heard, ?_, fun a ha => ?_, ?_, fun i hi hp => ?_⟩
  · rw [hoff.fallback]
    exact Fallback.files_markResent hf he
  · obtain ⟨c, hmem, hvia⟩ := has.mem ha
    obtain ⟨hc, hp⟩ := mem_pendingCargos.1 hmem
    exact ⟨c, hc, hvia, hp⟩
  · rw [has.map_index, ← e.content.map_index_cargos]
    exact (pendingCargos_sublist _ _).map _
  · have hbefore := hoff.tracker.pending hp
    rw [← e.content.map_index_cargos] at hi
    obtain ⟨c, hc, rfl⟩ := List.mem_map.1 hi
    obtain ⟨a, ha, hvia⟩ := has.exists_of_mem (mem_pendingCargos.2 ⟨hc, hbefore⟩)
    have hindex : a.index = c.index := by
      unfold Attempt.index
      rw [hvia]
      rfl
    refine ⟨a, ha, hindex, ?_⟩
    cases hacc : a.accepted with
    | true => rfl
    | false =>
      rw [← hindex] at hp
      exact absurd hp (href a ha hacc)

end ShortMessage.Dispatcher
