import ShortMessage.Proofs.Dispatcher.Attempts
import ShortMessage.Proofs.Tracker.Waiting
import ShortMessage.Radio.Scripted

/-!
# A report that comes in during a send

A send on the IP route waits between its stages, and a carrier's report on it may come in there.
The entry of the send keeps the refused parts until they are detached, so a failure that is reported
before that has them handed to the circuit domain, and then the send hands them over once more.

* `Gap`, `launchWith`, `reportAt`: a send with a report between two of its stages;
* `resentBy`: the pieces that a report hands over;
* `Interrupted`, `exists_interrupted`: the attempts of such a send;
* `offered_once_iff`: the circuit domain gets a part once, unless the IP route has refused it and a
  failure is reported before it is detached; `offered_twice_afterOffers`: then it gets it twice.
-/

namespace ShortMessage

namespace Tracker

variable {t : Tracker} {m : MessageId} {i j : Nat}

/-! ### Parts that stay pending -/

theorem Context.parts_signal_of_ne (c : Context) (hij : i ≠ j) (s : Signal) :
    (c.signal i s).1.parts[j]? = c.parts[j]? := by
  rcases Context.signal_cases c i s with h | ⟨_, -, -, h⟩ | ⟨-, -, h⟩ <;> rw [h]
  · exact List.getElem?_set_ne hij
  · exact List.getElem?_set_ne hij

/-- A pending part keeps its context alive, so it stays pending when others are signalled. -/
theorem Pending.signal_of_ne (h : t.Pending m j) (hij : i ≠ j) (s : Signal) :
    (t.signal m i s).Pending m j := by
  obtain ⟨c, hc, hp⟩ := h
  by_cases hi : i < c.parts.length
  · rw [signal_eq hc hi]
    have hp' : (c.signal i s).1.parts[j]? = some .pending := by
      rw [c.parts_signal_of_ne hij, hp]
    cases hr : (c.signal i s).1.remains with
    | none =>
      exact absurd (Or.inl (List.mem_of_getElem? hp')) (Context.remains_eq_none_iff.1 hr)
    | some c' =>
      refine ⟨c', by rw [context?_conclude, if_pos rfl, hr], ?_⟩
      rw [(Context.takeAggregate_eq_of_remains hr).1, Context.takeAggregate_parts, hp']
  · rw [signal_stale fun c' hc' => ?_]
    · exact ⟨c, hc, hp⟩
    · rw [hc] at hc'
      obtain rfl := Option.some.inj hc'
      exact Nat.not_lt.1 hi

theorem pending_opened (t : Tracker) (now : Int) (m : MessageId) {n : Nat} (hi : i < n)
    (sentTokens deliveredTokens : List Token) :
    (t.register now m n sentTokens deliveredTokens).Pending m i := by
  refine ⟨_, by rw [context?_register, if_pos rfl], ?_⟩
  simp [Context.opened, hi]

end Tracker

namespace Dispatcher

variable {σ : Type} {d d' : Dispatcher σ} {m : MessageId} {content : Content} {s : Sending}
  {route : Route} {i : Nat} {ref : MessageRef} {e : Fallback.Entry} {kind : Kind} {success : Bool}

/-! ### Gaps -/

/-- Where a send on the IP route waits, so that another call may come in. -/
inductive Gap
  | afterEnlisting
  | afterOffers
  | afterDetaching
  | afterRerouting
deriving DecidableEq

/-- The refused parts are not detached yet. -/
def Gap.IsEarly (gap : Gap) : Prop :=
  gap = .afterEnlisting ∨ gap = .afterOffers

/-- A dispatcher as a send leaves it when its message is enlisted. -/
def enlisted (d : Dispatcher σ) (s : Sending) (content : Content) : Dispatcher σ :=
  ((d.opened s content).enlist s.message content).2

theorem entry?_enlisted (d : Dispatcher σ) (s : Sending) (content : Content) :
    (d.enlisted s content).fallback.entry? d.fallback.nextFree =
      some ⟨d.fallback.nextFree, s.message, content, .awaitingReport⟩ :=
  (d.fallback.files_register s.message content).self

theorem entry?_detached (d : Dispatcher σ) (s : Sending) (content : Content) {ims : List Attempt}
    {d₂ : Dispatcher σ} (hoff : (d.enlisted s content).Offered s.message ims d₂) :
    (d₂.detach d.fallback.nextFree (rejects ims)).fallback.entry? d.fallback.nextFree = some
      ⟨d.fallback.nextFree, s.message, content.without ((rejects ims).map Cargo.index),
        if content.exhaustedBy ((rejects ims).map Cargo.index) then .concluded
        else .awaitingReport⟩ := by
  have he : d₂.fallback.entry? d.fallback.nextFree =
      some ⟨d.fallback.nextFree, s.message, content, .awaitingReport⟩ := by
    rw [hoff.fallback]
    exact entry?_enlisted d s content
  exact (Fallback.files_detach he rfl ((rejects ims).map Cargo.index)).self

theorem pending_enlisted (hc : content.Indexed) (d : Dispatcher σ) (s : Sending) :
    ∀ c ∈ content.cargos, (d.enlisted s content).tracker.Pending s.message c.index := by
  intro c hmem
  have hi : c.index ∈ content.indices := by
    rw [← content.map_index_cargos]
    exact List.mem_map_of_mem hmem
  rw [hc] at hi
  exact Tracker.pending_opened _ _ _ (List.mem_range.1 hi) _ _

/-! ### What a report hands over -/

/-- The pieces that a report hands to the circuit domain. -/
def resentBy (d : Dispatcher σ) (kind : Kind) (ref : MessageRef) (success : Bool) : List Cargo :=
  match d.fallback.entry? ref with
  | none => []
  | some e =>
    if kind = e.content.kind ∧ success = false ∧ e.phase = .awaitingReport then d.pendingCargos e
    else []

theorem resentBy_eq (he : d.fallback.entry? ref = some e) (kind : Kind) (success : Bool) :
    d.resentBy kind ref success =
      if kind = e.content.kind ∧ success = false ∧ e.phase = .awaitingReport then d.pendingCargos e
      else [] := by
  unfold resentBy
  rw [he]

theorem resentBy_of_not (he : d.fallback.entry? ref = some e)
    (h : ¬ (kind = e.content.kind ∧ success = false ∧ e.phase = .awaitingReport)) :
    d.resentBy kind ref success = [] := by
  rw [resentBy_eq he, if_neg h]

theorem mem_resentBy (he : d.fallback.entry? ref = some e) (hp : e.phase = .awaitingReport)
    {c : Cargo} (hc : c ∈ e.content.cargos) (hpending : d.tracker.Pending e.message c.index) :
    c ∈ d.resentBy e.content.kind ref false := by
  rw [resentBy_eq he, if_pos ⟨rfl, rfl, hp⟩]
  exact mem_pendingCargos.2 ⟨hc, hpending⟩

theorem map_index_resentBy (he : d.fallback.entry? ref = some e) (kind : Kind) (success : Bool) :
    ((d.resentBy kind ref success).map Cargo.index).Sublist e.content.indices := by
  rw [← e.content.map_index_cargos, resentBy_eq he]
  split
  · exact (pendingCargos_sublist d e).map _
  · exact List.nil_sublist _

theorem map_index_resentBy_of_detached {gone : List Nat}
    (he : d.fallback.entry? ref = some
      ⟨ref, m, content.without gone,
        if content.exhaustedBy gone then .concluded else .awaitingReport⟩)
    (kind : Kind) (success : Bool) :
    ((d.resentBy kind ref success).map Cargo.index).Sublist
      (content.indices.filter (· ∉ gone)) := by
  cases hex : content.exhaustedBy gone with
  | true =>
    rw [resentBy_of_not he (by simp [hex])]
    exact List.nil_sublist _
  | false =>
    rw [← Content.indices_without hex]
    exact map_index_resentBy he kind success

/-! ### The attempts of an interrupted send -/

/-- **The attempts of an interrupted send**: the IP route was offered every part; the circuit domain
the parts that the report has handed over, and those that the IP route has refused. -/
structure Interrupted (d : Dispatcher σ) (s : Sending) (content : Content) (gap : Gap) (kind : Kind)
    (success : Bool) (resent : List Cargo) (ims : List Attempt) (d' : Dispatcher σ) : Prop where
  handed : Handed .ims s.message (some d.fallback.nextFree) content.cargos ims
  attempts : ∃ reported rerouted, Handed .circuit s.message none resent reported ∧
    Handed .circuit s.message none (rejects ims) rerouted ∧
    d'.attempts.Perm (d.attempts ++ (ims ++ (reported ++ rerouted)))
  sublist : (resent.map Cargo.index).Sublist content.indices
  /-- A failure that is reported early has the refused parts handed over. -/
  doubled : gap.IsEarly → kind = content.kind → success = false → rejects ims ⊆ resent
  /-- Otherwise none of them is. -/
  single : ¬ (gap.IsEarly ∧ kind = content.kind ∧ success = false) →
    ∀ c ∈ resent, c.index ∉ (rejects ims).map Cargo.index

theorem Handed.length_among {ref : Option MessageRef} {cargos : List Cargo} {as : List Attempt}
    (h : Handed route m ref cargos as) (i : Nat) :
    (among as route m i).length = (cargos.map Cargo.index).count i := by
  unfold among
  rw [← h.map_index, List.count_eq_countP, List.countP_map, ← List.countP_eq_length_filter]
  refine List.countP_congr fun a ha => ?_
  obtain ⟨hm, hroute⟩ := h.of_mem ha
  simp [hm, hroute]

theorem Handed.among_eq_nil {ref : Option MessageRef} {cargos : List Cargo} {as : List Attempt}
    (h : Handed route m ref cargos as) {route' : Route} (hne : route ≠ route') (i : Nat) :
    among as route' m i = [] :=
  Dispatcher.among_eq_nil fun _ ha hroute => absurd ((h.of_mem ha).2.symm.trans hroute) hne

section

variable {gap : Gap} {resent : List Cargo} {ims : List Attempt}
  (h : Interrupted d s content gap kind success resent ims d') (hu : d.Unknown s.message)
include h hu

theorem Interrupted.length_offers (i : Nat) :
    (d'.offers .circuit s.message i).length =
      (resent.map Cargo.index).count i + ((rejects ims).map Cargo.index).count i := by
  obtain ⟨reported, rerouted, hreported, hrerouted, hperm⟩ := h.attempts
  have hlen : (d'.offers .circuit s.message i).length =
      (among (d.attempts ++ (ims ++ (reported ++ rerouted))) .circuit s.message i).length :=
    (hperm.filter _).length_eq
  rw [hlen, among_append, show among d.attempts _ _ _ = _ from hu.offers_eq_nil, among_append,
    h.handed.among_eq_nil (by decide), among_append, List.nil_append, List.nil_append,
    List.length_append, hreported.length_among, hrerouted.length_among]

theorem Interrupted.refused_iff (i : Nat) :
    (∃ a ∈ d'.offers .ims s.message i, a.accepted = false) ↔
      i ∈ (rejects ims).map Cargo.index := by
  obtain ⟨reported, rerouted, hreported, hrerouted, hperm⟩ := h.attempts
  have hims : ∀ a, a ∈ d'.offers .ims s.message i ↔ a ∈ ims ∧ a.index = i := by
    intro a
    have hmem : a ∈ d'.offers .ims s.message i ↔
        a ∈ among (d.attempts ++ (ims ++ (reported ++ rerouted))) .ims s.message i :=
      (hperm.filter _).mem_iff
    rw [hmem, among_append, show among d.attempts _ _ _ = _ from hu.offers_eq_nil, among_append,
      among_append, hreported.among_eq_nil (by decide), hrerouted.among_eq_nil (by decide),
      List.append_nil, List.append_nil, List.nil_append, mem_among]
    constructor
    · exact fun ha => ⟨ha.1, ha.2.2.2⟩
    · exact fun ha => ⟨ha.1, (h.handed.of_mem ha.1).2, (h.handed.of_mem ha.1).1, ha.2⟩
  rw [h.handed.map_index_rejects, List.mem_map]
  simp only [hims, List.mem_filter, Bool.not_eq_true', and_assoc, and_comm]

/-- **The circuit domain gets a part twice** exactly if a failure is reported early and the IP route
has refused the part. -/
theorem Interrupted.length_offers_le_one_iff (hc : content.Indexed) (i : Nat) :
    (d'.offers .circuit s.message i).length ≤ 1 ↔
      ¬ (gap.IsEarly ∧ kind = content.kind ∧ success = false ∧
        ∃ a ∈ d'.offers .ims s.message i, a.accepted = false) := by
  rw [h.length_offers hu, h.refused_iff hu]
  have hresent : (resent.map Cargo.index).count i ≤ 1 :=
    List.nodup_iff_count_le_one.1 (hc.nodup.sublist h.sublist) i
  have hrejects : ((rejects ims).map Cargo.index).count i ≤ 1 := by
    refine List.nodup_iff_count_le_one.1 ?_ i
    rw [h.handed.map_index_rejects]
    refine List.Nodup.sublist (List.filter_sublist.map _) ?_
    rw [h.handed.map_index, content.map_index_cargos]
    exact hc.nodup
  by_cases hi : i ∈ (rejects ims).map Cargo.index
  · have hone := List.count_pos_iff.2 hi
    by_cases hearly : gap.IsEarly ∧ kind = content.kind ∧ success = false
    · obtain ⟨hgap, hkind, hfail⟩ := hearly
      have htwo := List.count_pos_iff.2 (List.map_subset _ (h.doubled hgap hkind hfail) hi)
      exact ⟨fun hle => by omega, fun hnot => absurd ⟨hgap, hkind, hfail, hi⟩ hnot⟩
    · have hnone : (resent.map Cargo.index).count i = 0 := by
        refine List.count_eq_zero.2 fun hmem => ?_
        obtain ⟨c, hc', rfl⟩ := List.mem_map.1 hmem
        exact h.single hearly c hc' hi
      exact ⟨fun _ hall => hearly ⟨hall.1, hall.2.1, hall.2.2.1⟩, fun _ => by omega⟩
  · rw [List.count_eq_zero.2 hi]
    exact ⟨fun _ hall => hi hall.2.2.2, fun _ => hresent⟩

end

theorem interrupted_of_taken {gap : Gap} {ims : List Attempt}
    (hims : Handed .ims s.message (some d.fallback.nextFree) content.cargos ims)
    (hnone : rejects ims = []) (hatt : d'.attempts = d.attempts ++ ims) :
    Interrupted d s content gap kind success [] ims d' := by
  refine ⟨hims, ⟨[], [], rfl, ?_, ?_⟩, List.nil_sublist _, fun _ _ _ => ?_,
    fun _ c hmem => (nomatch hmem)⟩
  · rw [hnone]
    rfl
  · rw [hatt, List.append_nil, List.append_nil]
  · rw [hnone]
    exact List.nil_subset _

theorem interrupted_of_detached {gap : Gap} {d₃ : Dispatcher σ} {ims reported rerouted :
    List Attempt} (hgap : ¬ gap.IsEarly)
    (hims : Handed .ims s.message (some d.fallback.nextFree) content.cargos ims)
    (he : d₃.fallback.entry? d.fallback.nextFree = some
      ⟨d.fallback.nextFree, s.message, content.without ((rejects ims).map Cargo.index),
        if content.exhaustedBy ((rejects ims).map Cargo.index) then .concluded
        else .awaitingReport⟩)
    (hreported : Handed .circuit s.message none (d₃.resentBy kind d.fallback.nextFree success)
      reported)
    (hrerouted : Handed .circuit s.message none (rejects ims) rerouted)
    (hatt : d'.attempts.Perm (d.attempts ++ (ims ++ (reported ++ rerouted)))) :
    Interrupted d s content gap kind success (d₃.resentBy kind d.fallback.nextFree success) ims
      d' := by
  have hsub := map_index_resentBy_of_detached he kind success
  refine ⟨hims, ⟨reported, rerouted, hreported, hrerouted, hatt⟩,
    hsub.trans List.filter_sublist, fun hearly => absurd hearly hgap, fun _ c hmem => ?_⟩
  have hindex := hsub.subset (List.mem_map_of_mem hmem)
  exact of_decide_eq_true (List.mem_filter.1 hindex).2

/-- A report while the entry is as it was enlisted hands the refused parts over if they are
pending. -/
theorem interrupted_of_enlisted {gap : Gap} {d₂ : Dispatcher σ} {ims reported rerouted :
    List Attempt} (hgap : gap.IsEarly)
    (hims : Handed .ims s.message (some d.fallback.nextFree) content.cargos ims)
    (he : d₂.fallback.entry? d.fallback.nextFree = some
      ⟨d.fallback.nextFree, s.message, content, .awaitingReport⟩)
    (hpending : ∀ c ∈ rejects ims, d₂.tracker.Pending s.message c.index)
    (hreported : Handed .circuit s.message none (d₂.resentBy kind d.fallback.nextFree success)
      reported)
    (hrerouted : Handed .circuit s.message none (rejects ims) rerouted)
    (hatt : d'.attempts.Perm (d.attempts ++ (ims ++ (reported ++ rerouted)))) :
    Interrupted d s content gap kind success (d₂.resentBy kind d.fallback.nextFree success) ims
      d' := by
  refine ⟨hims, ⟨reported, rerouted, hreported, hrerouted, hatt⟩,
    map_index_resentBy he kind success, ?_, fun hnot c hmem => ?_⟩
  · rintro - rfl rfl c hmem
    exact mem_resentBy he rfl (hims.rejects_subset hmem) (hpending c hmem)
  · rw [resentBy_of_not he fun h => hnot ⟨hgap, h.1, h.2.1⟩] at hmem
    cases hmem

/-! ### A send with a report in between -/

variable [Radio σ]

/-- **A send on the IP route**, stage by stage, with a call wherever it waits. -/
def launchWith (between : Gap → MessageRef → Dispatcher σ → Dispatcher σ) (d : Dispatcher σ)
    (s : Sending) (content : Content) : Dispatcher σ :=
  let (ref, d) := (d.opened s content).enlist s.message content
  let d := between .afterEnlisting ref d
  let (refused, d) := d.offerVia .ims s.message (some ref) content.cargos
  let d := between .afterOffers ref d
  if refused.isEmpty then d
  else
    let d := between .afterDetaching ref (d.detach ref refused)
    let (failed, d) := d.offerVia .circuit s.message none refused
    let d := between .afterRerouting ref d
    d.failAll s.message failed

/-- Left to itself, it is the send. -/
theorem launchWith_alone (h : d.route = .ims) (s : Sending) (content : Content) :
    d.launchWith (fun _ _ d => d) s content =
      (d.launch s.now s.message content s.sentTokens s.deliveredTokens).2 := by
  unfold launch
  rw [h]
  rfl

/-- **A carrier's report** on the new reference at one of the gaps. -/
def reportAt (gap : Gap) (kind : Kind) (success : Bool) (here : Gap) (ref : MessageRef)
    (d : Dispatcher σ) : Dispatcher σ :=
  if here = gap then d.report kind ref success else d

theorem handed_report (he : d.fallback.entry? ref = some e) (kind : Kind) (success : Bool) :
    ∃ as, Handed .circuit e.message none (d.resentBy kind ref success) as ∧
      (d.report kind ref success).attempts = d.attempts ++ as := by
  rw [resentBy_eq he]
  rcases d.fallback.report_cases kind ref success with ⟨hno, hdec, -, -⟩ | ⟨e', he', rfl, hp, hrep⟩
  · rw [if_neg fun h => hno e he h.1.symm h.2.2]
    refine ⟨[], rfl, ?_⟩
    unfold report
    simp only [hdec, List.append_nil]
  · rw [he] at he'
    obtain rfl := Option.some.inj he'
    cases success with
    | true =>
      rw [if_neg fun h => by cases h.2.1]
      refine ⟨[], rfl, ?_⟩
      unfold report
      rw [hrep]
      exact (List.append_nil _).symm
    | false =>
      rw [if_pos ⟨rfl, rfl, hp⟩]
      obtain ⟨as, has, hoff, -⟩ := offered_resend
        ({ d with fallback := d.fallback.move e .awaitingResend } : Dispatcher σ)
        { e with phase := .awaitingResend }
      refine ⟨as, has, ?_⟩
      unfold report
      rw [hrep]
      exact hoff.attempts

theorem attempts_reroute (d : Dispatcher σ) (m : MessageId) (ref : MessageRef)
    (refused : List Cargo) :
    ∃ as, Handed .circuit m none refused as ∧
      (d.reroute m ref refused).attempts = d.attempts ++ as := by
  obtain ⟨as, has, hoff, -⟩ := offered_reroute d m ref refused
  refine ⟨as, has, hoff.attempts.trans ?_⟩
  split <;> rfl

/-! ### Refused parts are pending -/

theorem pending_offer_of_ne {h : HandOver} {j : Nat} (hp : d.tracker.Pending h.message j)
    (hj : h.index ≠ j) : (d.offer h).2.tracker.Pending h.message j := by
  have hback : ∀ (d : Dispatcher σ) (signal : Signal), d.tracker.Pending h.message j →
      (d.callBack h.callback signal).tracker.Pending h.message j := by
    intro d signal hp
    unfold callBack Tracker.callBack
    split
    · exact hp.signal_of_ne hj signal
    · exact hp
  have hecho : ∀ (echo : List Signal) (d : Dispatcher σ), d.tracker.Pending h.message j →
      (echo.foldl (fun d s => d.callBack h.callback s) d).tracker.Pending h.message j := by
    intro echo
    induction echo with
    | nil => exact fun d hp => hp
    | cons signal echo ih => exact fun d hp => ih _ (hback d signal hp)
  unfold offer
  cases hv : Radio.offer d.radio h with
  | mk verdict radio =>
    cases verdict with
    | refused => exact hp
    | accepted echo => exact hecho echo _ hp

theorem pending_offer_of_refused {h : HandOver} {j : Nat} (href : (d.offer h).1 = false)
    (hp : d.tracker.Pending m j) : (d.offer h).2.tracker.Pending m j := by
  unfold offer at href ⊢
  cases hv : Radio.offer d.radio h with
  | mk verdict radio =>
    rw [hv] at href
    cases verdict with
    | refused => exact hp
    | accepted echo => cases href

theorem pending_offerVia_of_not_mem {ref : Option MessageRef} {cargos : List Cargo} {j : Nat}
    (hp : d.tracker.Pending m j) (hj : j ∉ cargos.map Cargo.index) :
    (d.offerVia route m ref cargos).2.tracker.Pending m j := by
  unfold offerVia
  induction cargos generalizing d with
  | nil => exact hp
  | cons c cs ih =>
    rw [List.map_cons, List.mem_cons, not_or] at hj
    exact ih (pending_offer_of_ne (h := c.via route m ref) hp (Ne.symm hj.1)) hj.2

/-- **Parts that a route refuses** stay pending. -/
theorem pending_of_refused {ref : Option MessageRef} {cargos : List Cargo}
    (hnd : (cargos.map Cargo.index).Nodup) (hp : ∀ c ∈ cargos, d.tracker.Pending m c.index) :
    ∀ c ∈ (d.offerVia route m ref cargos).1,
      (d.offerVia route m ref cargos).2.tracker.Pending m c.index := by
  unfold offerVia
  induction cargos generalizing d with
  | nil => exact fun c hc => (nomatch hc)
  | cons c cs ih =>
    rw [List.map_cons, List.nodup_cons] at hnd
    have hrest : ∀ c' ∈ cs, (d.offer (c.via route m ref)).2.tracker.Pending m c'.index := by
      intro c' hc'
      refine pending_offer_of_ne (h := c.via route m ref) (hp c' (List.mem_cons_of_mem _ hc')) ?_
      intro heq
      have hmem : c'.index ∈ cs.map Cargo.index := List.mem_map_of_mem hc'
      rw [← heq] at hmem
      exact hnd.1 hmem
    have ih := ih hnd.2 hrest
    intro c' hc'
    simp only [offerAll] at hc' ⊢
    cases hacc : (d.offer (c.via route m ref)).1 with
    | true =>
      simp only [hacc, if_true] at hc'
      exact ih c' hc'
    | false =>
      simp only [hacc, Bool.false_eq_true, if_false] at hc'
      rcases List.mem_cons.1 hc' with rfl | hc'
      · have hfirst := pending_offer_of_refused hacc (hp c' List.mem_cons_self)
        exact pending_offerVia_of_not_mem hfirst hnd.1
      · exact ih c' hc'

/-! ### The four gaps -/

theorem interrupted_afterEnlisting (hc : content.Indexed) (d : Dispatcher σ) (s : Sending)
    (kind : Kind) (success : Bool) :
    ∃ resent ims, Interrupted d s content .afterEnlisting kind success resent ims
      (d.launchWith (reportAt .afterEnlisting kind success) s content) := by
  let ref := d.fallback.nextFree
  let d₁ := d.enlisted s content
  let d₂ := d₁.report kind ref success
  have he := entry?_enlisted d s content
  obtain ⟨reported, hreported, hatt₂⟩ := handed_report he kind success
  obtain ⟨ims, hims, hoff, hrej⟩ := offered_offerVia d₂ .ims s.message (some ref) content.cargos
  obtain ⟨rerouted, hrerouted, hatt⟩ := attempts_reroute
    (d₂.offerVia .ims s.message (some ref) content.cargos).2 s.message ref (rejects ims)
  have hrun : d.launchWith (reportAt .afterEnlisting kind success) s content =
      (d₂.offerVia .ims s.message (some ref) content.cargos).2.reroute s.message ref
        (rejects ims) := by
    rw [← hrej]
    rfl
  refine ⟨_, ims, interrupted_of_enlisted (Or.inl rfl) hims he
    (fun c hmem => pending_enlisted hc d s c (hims.rejects_subset hmem)) hreported hrerouted ?_⟩
  rw [hrun, hatt, hoff.attempts, hatt₂, show d₁.attempts = d.attempts from rfl]
  simp only [List.append_assoc]
  exact (List.perm_append_comm_assoc reported ims rerouted).append_left d.attempts

theorem interrupted_afterOffers (hc : content.Indexed) (d : Dispatcher σ) (s : Sending)
    (kind : Kind) (success : Bool) :
    ∃ resent ims, Interrupted d s content .afterOffers kind success resent ims
      (d.launchWith (reportAt .afterOffers kind success) s content) := by
  let ref := d.fallback.nextFree
  let d₁ := d.enlisted s content
  let d₂ := (d₁.offerVia .ims s.message (some ref) content.cargos).2
  obtain ⟨ims, hims, hoff, hrej⟩ := offered_offerVia d₁ .ims s.message (some ref) content.cargos
  have he : d₂.fallback.entry? ref = some ⟨ref, s.message, content, .awaitingReport⟩ := by
    rw [hoff.fallback]
    exact entry?_enlisted d s content
  obtain ⟨reported, hreported, hatt₂⟩ := handed_report he kind success
  obtain ⟨rerouted, hrerouted, hatt⟩ := attempts_reroute (d₂.report kind ref success) s.message ref
    (rejects ims)
  have hrun : d.launchWith (reportAt .afterOffers kind success) s content =
      (d₂.report kind ref success).reroute s.message ref (rejects ims) := by
    rw [← hrej]
    rfl
  have hpending : ∀ c ∈ rejects ims, d₂.tracker.Pending s.message c.index := by
    rw [← hrej]
    refine pending_of_refused ?_ (pending_enlisted hc d s)
    rw [content.map_index_cargos]
    exact hc.nodup
  refine ⟨_, ims, interrupted_of_enlisted (Or.inr rfl) hims he hpending hreported hrerouted ?_⟩
  rw [hrun, hatt, hatt₂, hoff.attempts, show d₁.attempts = d.attempts from rfl]
  simp only [List.append_assoc]
  exact .refl _

theorem interrupted_afterDetaching (d : Dispatcher σ) (s : Sending) (content : Content)
    (kind : Kind) (success : Bool) :
    ∃ resent ims, Interrupted d s content .afterDetaching kind success resent ims
      (d.launchWith (reportAt .afterDetaching kind success) s content) := by
  let ref := d.fallback.nextFree
  let d₁ := d.enlisted s content
  let d₂ := (d₁.offerVia .ims s.message (some ref) content.cargos).2
  obtain ⟨ims, hims, hoff, hrej⟩ := offered_offerVia d₁ .ims s.message (some ref) content.cargos
  let d₃ := d₂.detach ref (rejects ims)
  have he := entry?_detached d s content hoff
  obtain ⟨reported, hreported, hatt₃⟩ := handed_report he kind success
  obtain ⟨rerouted, hrerouted, hoff₃, -⟩ := offered_offerCircuit (d₃.report kind ref success)
    s.message (rejects ims)
  let refused := (d₁.offerVia .ims s.message (some ref) content.cargos).1
  have hrun : d.launchWith (reportAt .afterDetaching kind success) s content =
      if refused.isEmpty then d₂
      else ((d₂.detach ref refused).report kind ref success).offerCircuit s.message refused := rfl
  rw [hrun, show refused = rejects ims from hrej]
  split
  · next hnone =>
    exact ⟨[], ims, interrupted_of_taken hims (List.isEmpty_iff.1 hnone) hoff.attempts⟩
  · refine ⟨_, ims, interrupted_of_detached (by rintro (h | h) <;> cases h) hims he hreported
      hrerouted ?_⟩
    rw [hoff₃.attempts, hatt₃, show d₃.attempts = d₂.attempts from rfl, hoff.attempts,
      show d₁.attempts = d.attempts from rfl]
    simp only [List.append_assoc]
    exact .refl _

theorem interrupted_afterRerouting (d : Dispatcher σ) (s : Sending) (content : Content)
    (kind : Kind) (success : Bool) :
    ∃ resent ims, Interrupted d s content .afterRerouting kind success resent ims
      (d.launchWith (reportAt .afterRerouting kind success) s content) := by
  let ref := d.fallback.nextFree
  let d₁ := d.enlisted s content
  let d₂ := (d₁.offerVia .ims s.message (some ref) content.cargos).2
  obtain ⟨ims, hims, hoff, hrej⟩ := offered_offerVia d₁ .ims s.message (some ref) content.cargos
  let d₃ := d₂.detach ref (rejects ims)
  let d₄ := (d₃.offerVia .circuit s.message none (rejects ims)).2
  obtain ⟨rerouted, hrerouted, hoff₃, -⟩ := offered_offerVia d₃ .circuit s.message none
    (rejects ims)
  have he := entry?_detached d s content hoff
  rw [show (d₂.detach d.fallback.nextFree (rejects ims)).fallback = d₄.fallback from
    hoff₃.fallback.symm] at he
  obtain ⟨reported, hreported, hatt₄⟩ := handed_report he kind success
  let refused := (d₁.offerVia .ims s.message (some ref) content.cargos).1
  have hrun : d.launchWith (reportAt .afterRerouting kind success) s content =
      if refused.isEmpty then d₂
      else
        (((d₂.detach ref refused).offerVia .circuit s.message none refused).2.report kind ref
          success).failAll s.message
          ((d₂.detach ref refused).offerVia .circuit s.message none refused).1 := rfl
  rw [hrun, show refused = rejects ims from hrej]
  split
  · next hnone =>
    exact ⟨[], ims, interrupted_of_taken hims (List.isEmpty_iff.1 hnone) hoff.attempts⟩
  · refine ⟨_, ims, interrupted_of_detached (by rintro (h | h) <;> cases h) hims he hreported
      hrerouted ?_⟩
    show (d₄.report kind ref success).attempts.Perm _
    rw [hatt₄, hoff₃.attempts, show d₃.attempts = d₂.attempts from rfl, hoff.attempts,
      show d₁.attempts = d.attempts from rfl]
    simp only [List.append_assoc]
    exact (List.perm_append_comm.append_left ims).append_left d.attempts

theorem exists_interrupted (hc : content.Indexed) (d : Dispatcher σ) (s : Sending) (gap : Gap)
    (kind : Kind) (success : Bool) :
    ∃ resent ims, Interrupted d s content gap kind success resent ims
      (d.launchWith (reportAt gap kind success) s content) := by
  cases gap with
  | afterEnlisting => exact interrupted_afterEnlisting hc d s kind success
  | afterOffers => exact interrupted_afterOffers hc d s kind success
  | afterDetaching => exact interrupted_afterDetaching d s content kind success
  | afterRerouting => exact interrupted_afterRerouting d s content kind success

/-- **A report during a send.**  After every admissible run, a new message is sent on the IP route
and a report on it comes in at one of the gaps.  Then the circuit domain gets each part at most
once, unless the report is a failure that comes in before the refused parts are detached, and the
part is one of them. -/
theorem offered_once_iff {d₀ : Dispatcher σ} {es : List (Event σ)} (h₀ : d₀.Initial)
    (h : Admissible d₀ es) (hs : s.message ∉ messages es) (hc : content.Indexed) (gap : Gap)
    (kind : Kind) (success : Bool) (i : Nat) :
    let d' := (d₀.run es).launchWith (reportAt gap kind success) s content
    (d'.offers .circuit s.message i).length ≤ 1 ↔
      ¬ (gap.IsEarly ∧ kind = content.kind ∧ success = false ∧
        ∃ a ∈ d'.offers .ims s.message i, a.accepted = false) := by
  intro d'
  obtain ⟨resent, ims, hint⟩ := exists_interrupted hc (d₀.run es) s gap kind success
  exact hint.length_offers_le_one_iff ((h₀.invariant_run h).unknown _ hs) hc i

/-- A message of two parts. -/
def twoParts : Content :=
  .sms "10086" none [⟨0, 2, .gsm7, some "a", [97], none⟩, ⟨1, 2, .gsm7, some "b", [98], none⟩]

/-- A dispatcher whose radio refuses the second part on the IP route. -/
def refusingSecond : Dispatcher ScriptedRadio :=
  new .standard 300 true { ScriptedRadio.new true with rejected := [(.ims, 1)] }
    (.memory ⟨0, 0, []⟩)

/-- After the refused part is detached, a failure does not have it handed over again. -/
theorem offered_once_iff_detached :
    refusingSecond.Initial ∧ Admissible refusingSecond [] ∧ twoParts.Indexed ∧
      ∀ i, (((refusingSecond.run []).launchWith (reportAt .afterDetaching .sms false)
        ⟨0, ⟨7⟩, [], []⟩ twoParts).offers .circuit ⟨7⟩ i).length ≤ 1 := by
  have h₀ : refusingSecond.Initial := ⟨_, _, _, _, _, rfl⟩
  have h : Admissible refusingSecond [] := ⟨by decide, fun pre e post heq => by simp at heq⟩
  have hc : twoParts.Indexed := rfl
  refine ⟨h₀, h, hc, fun i => ?_⟩
  refine (offered_once_iff (s := ⟨0, ⟨7⟩, [], []⟩) h₀ h List.not_mem_nil hc .afterDetaching .sms
    false i).2 ?_
  rintro ⟨hearly | hearly, -⟩ <;> cases hearly

/-- **A part is handed over twice**: the IP route takes the first part and refuses the second, and a
failure is reported before the second is detached. -/
theorem offered_twice_afterOffers :
    refusingSecond.route = .ims ∧ twoParts.Indexed ∧
      ¬ ∀ (gap : Gap) (kind : Kind) (success : Bool) (i : Nat),
        ((refusingSecond.launchWith (reportAt gap kind success) ⟨0, ⟨7⟩, [], []⟩ twoParts).offers
          .circuit ⟨7⟩ i).length ≤ 1 := by
  refine ⟨rfl, rfl, fun h => ?_⟩
  have htwice : ((refusingSecond.launchWith (reportAt .afterOffers .sms false) ⟨0, ⟨7⟩, [], []⟩
      twoParts).offers .circuit ⟨7⟩ 1).length = 2 := by decide
  have hone := h .afterOffers .sms false 1
  omega

end Dispatcher

end ShortMessage
