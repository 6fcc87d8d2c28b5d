import ShortMessage.Proofs.Dispatcher.Answers
import ShortMessage.Proofs.Dispatcher.Replies
import ShortMessage.Proofs.Fallback.Decisions

/-!
# Where a send leaves its parts

A send hands its parts over in two rounds: the IP route, if it is selected, gets all of them, and
the circuit domain gets what is left.  What became of a part is told by the last answer about it.

* `Reply.last?`, `Rounds`: the last answer about a part, in two rounds of hand-overs;
* `imsReplies`, `circuitReplies`: the answers to a send;
* `attempts_launch`, `tracker_launch`, `entry?_launch`: what a send does, by these answers;
* `Placed`, `send_places_parts`: where every send leaves its parts.
-/

namespace ShortMessage

/-! ### Two rounds of answers -/

namespace Reply

variable {rs qs : List Reply} {r : Reply} {i : Nat}

/-- The last answer about a part. -/
def last? (rs : List Reply) (i : Nat) : Option Reply :=
  (rs.filter (·.index = i)).getLast?

theorem last?_append (rs qs : List Reply) (i : Nat) :
    last? (rs ++ qs) i = (last? qs i).or (last? rs i) := by
  unfold last?
  rw [List.filter_append, List.getLast?_append]

theorem last?_eq_none_iff : last? rs i = none ↔ i ∉ rs.map index := by
  unfold last?
  rw [List.getLast?_eq_none_iff, List.filter_eq_nil_iff, List.mem_map]
  simp only [decide_eq_true_eq, not_exists, not_and]

theorem of_last? (h : last? rs i = some r) : r ∈ rs ∧ r.index = i := by
  obtain ⟨hr, hi⟩ := List.mem_filter.1 (List.mem_of_getLast? h)
  exact ⟨hr, of_decide_eq_true hi⟩

theorem last?_eq_some_iff (hnd : (rs.map index).Nodup) :
    last? rs i = some r ↔ r ∈ rs ∧ r.index = i := by
  refine ⟨of_last?, ?_⟩
  rintro ⟨hr, rfl⟩
  cases hlast : last? rs r.index with
  | none => exact absurd (List.mem_map_of_mem hr) (last?_eq_none_iff.1 hlast)
  | some x =>
    obtain ⟨hx, hi⟩ := of_last? hlast
    rw [List.inj_on_of_nodup_map hnd hx hr hi]

/-- **Two rounds of answers**: the second is about the parts that the first has refused, and about
others that the first was not about. -/
structure Rounds (first second : List Reply) : Prop where
  nodup_first : (first.map index).Nodup
  nodup_second : (second.map index).Nodup
  again_iff : ∀ r ∈ first, r.index ∈ second.map index ↔ r.verdict = .refused

namespace Rounds

variable {first second : List Reply} (h : Rounds first second)
include h

theorem last?_cases (hr : last? (first ++ second) i = some r) :
    (r ∈ second ∧ r.index = i) ∨ (i ∉ second.map index ∧ r ∈ first ∧ r.index = i) := by
  rw [last?_append] at hr
  cases hlast : last? second i with
  | none =>
    rw [hlast, Option.none_or, last?_eq_some_iff h.nodup_first] at hr
    exact Or.inr ⟨last?_eq_none_iff.1 hlast, hr⟩
  | some x =>
    rw [hlast, Option.some_or] at hr
    obtain rfl := Option.some.inj hr
    exact Or.inl ((last?_eq_some_iff h.nodup_second).1 hlast)

/-- If the last answer about a part comes without an echo, there was none before. -/
theorem silent_of_last? (hr : last? (first ++ second) i = some r) (hsilent : r.verdict.echo = []) :
    ∀ x ∈ first ++ second, x.index = i → x.verdict.echo = [] := by
  intro x hx hxi
  rcases h.last?_cases hr with ⟨hr, hi⟩ | ⟨hnot, hr, hi⟩ <;>
    rcases List.mem_append.1 hx with hx | hx
  · have hagain : x.index ∈ second.map index := hxi.trans hi.symm ▸ List.mem_map_of_mem hr
    rw [(h.again_iff x hx).1 hagain]
    rfl
  · rw [List.inj_on_of_nodup_map h.nodup_second hx hr (hxi.trans hi.symm)]
    exact hsilent
  · rw [List.inj_on_of_nodup_map h.nodup_first hx hr (hxi.trans hi.symm)]
    exact hsilent
  · exact absurd (hxi ▸ List.mem_map_of_mem hx) hnot

/-- The parts that the second round has refused are those whose last answer is a refusal. -/
theorem mem_refused_iff :
    i ∈ (second.filter (!·.verdict.isAccepted)).map index ↔
      ∃ r, last? (first ++ second) i = some r ∧ r.verdict = .refused := by
  rw [List.mem_map]
  constructor
  · rintro ⟨r, hr, rfl⟩
    obtain ⟨hr, href⟩ := List.mem_filter.1 hr
    refine ⟨r, ?_, Verdict.isAccepted_eq_false_iff.1 (by simpa using href)⟩
    rw [last?_append, (last?_eq_some_iff h.nodup_second).2 ⟨hr, rfl⟩, Option.some_or]
  · rintro ⟨r, hr, href⟩
    rcases h.last?_cases hr with ⟨hr, hi⟩ | ⟨hnot, hr, hi⟩
    · exact ⟨r, List.mem_filter.2 ⟨hr, by rw [href]; rfl⟩, hi⟩
    · exact absurd (hi ▸ (h.again_iff r hr).2 href) hnot

end Rounds

theorem map_index_refused (h : ∀ r ∈ rs, r.handOver.cargo.index = r.index) :
    (refused rs).map Cargo.index = (rs.filter (!·.verdict.isAccepted)).map index := by
  unfold refused
  rw [List.map_map]
  exact List.map_congr_left fun r hr => h r (List.mem_filter.1 hr).1

theorem of_map_handOver {route : Route} {m : MessageId} {ref : Option MessageRef}
    {cargos : List Cargo} (h : rs.map handOver = cargos.map (Cargo.via route m ref)) :
    rs.map index = cargos.map Cargo.index ∧
      ∀ r ∈ rs, ∃ c ∈ cargos, r.handOver = c.via route m ref := by
  refine ⟨?_, fun r hr => ?_⟩
  · have hindex := congrArg (List.map HandOver.index) h
    rw [List.map_map, List.map_map] at hindex
    exact hindex
  · have hmem : r.handOver ∈ cargos.map (Cargo.via route m ref) := h ▸ List.mem_map_of_mem hr
    obtain ⟨c, hc, hvia⟩ := List.mem_map.1 hmem
    exact ⟨c, hc, hvia.symm⟩

theorem index_mem_refused_iff (hnd : (rs.map index).Nodup) (hr : r ∈ rs) :
    r.index ∈ (rs.filter (!·.verdict.isAccepted)).map index ↔ r.verdict = .refused := by
  rw [List.mem_map, ← Verdict.isAccepted_eq_false_iff]
  constructor
  · rintro ⟨x, hx, hi⟩
    obtain ⟨hx, href⟩ := List.mem_filter.1 hx
    rw [← List.inj_on_of_nodup_map hnd hx hr hi]
    simpa using href
  · exact fun href => ⟨r, List.mem_filter.2 ⟨hr, by rw [href]; rfl⟩, rfl⟩

theorem filter_not_mem_refused (hnd : (rs.map index).Nodup) :
    (rs.map index).filter (· ∉ (rs.filter (!·.verdict.isAccepted)).map index) = taken rs := by
  unfold taken
  rw [List.filter_map]
  refine congrArg (List.map index) (List.filter_congr fun r hr => ?_)
  simp only [Function.comp_apply, index_mem_refused_iff hnd hr, ← Verdict.isAccepted_eq_false_iff]
  cases r.verdict.isAccepted <;> rfl

end Reply

theorem Content.exhaustedBy_iff {c : Content} {gone : List Nat} :
    c.exhaustedBy gone = true ↔ c.indices.filter (· ∉ gone) = [] := by
  cases c with
  | sms destination serviceCentre parts =>
    unfold exhaustedBy indices
    rw [List.isEmpty_iff, List.filter_map, List.map_eq_nil_iff]
    rfl
  | mms pdu locationUrl => simp [exhaustedBy, indices]

namespace Dispatcher

variable {σ : Type} {d : Dispatcher σ} {s : Sending} {content : Content}

theorem context?_opened (d : Dispatcher σ) (s : Sending) (content : Content) :
    (d.opened s content).tracker.context? s.message =
      some (.opened s.now content.indices.length s.sentTokens s.deliveredTokens) := by
  show Tracker.context? (d.tracker.register _ _ _ _ _) _ = _
  rw [Tracker.context?_register, if_pos rfl]

variable [Radio σ]

/-! ### The answers to a send -/

/-- What the IP route answers to the pieces of a message, if it is selected, and the radio then. -/
def imsReplies (d : Dispatcher σ) (m : MessageId) (content : Content) : List Reply × σ :=
  match d.route with
  | .ims =>
    Radio.replies d.radio (content.cargos.map (Cargo.via .ims m (some d.fallback.nextFree)))
  | .circuit => ([], d.radio)

/-- The pieces that are left for the circuit domain. -/
def leftForCircuit (d : Dispatcher σ) (m : MessageId) (content : Content) : List Cargo :=
  match d.route with
  | .ims => Reply.refused (d.imsReplies m content).1
  | .circuit => content.cargos

/-- What the circuit domain answers to them. -/
def circuitReplies (d : Dispatcher σ) (m : MessageId) (content : Content) : List Reply :=
  (Radio.replies (d.imsReplies m content).2
    ((d.leftForCircuit m content).map (Cargo.via .circuit m none))).1

/-- All answers to a send. -/
def answers (d : Dispatcher σ) (m : MessageId) (content : Content) : List Reply :=
  (d.imsReplies m content).1 ++ d.circuitReplies m content

/-- The parts that no route takes. -/
def failing (d : Dispatcher σ) (m : MessageId) (content : Content) : List Nat :=
  (Reply.refused (d.circuitReplies m content)).map Cargo.index

theorem reroute_eq (d : Dispatcher σ) (m : MessageId) (ref : MessageRef) (left : List Cargo) :
    let rs := (Radio.replies d.radio (left.map (Cargo.via .circuit m none))).1
    (d.reroute m ref left).attempts = d.attempts ++ rs.map Reply.attempt ∧
    (d.reroute m ref left).tracker = (d.tracker.callBackAll (Reply.echoes rs)).failAll m
      ((Reply.refused rs).map Cargo.index) ∧
    (d.reroute m ref left).fallback =
      if left.isEmpty then d.fallback else (d.fallback.detach ref (left.map Cargo.index)).2 := by
  intro rs
  unfold reroute
  cases left with
  | nil => exact ⟨(List.append_nil _).symm, rfl, rfl⟩
  | cons c cs =>
    rw [if_neg (by simp), if_neg (by simp), offerCircuit_eq]
    exact ⟨rfl, rfl, rfl⟩

theorem attempts_launch (d : Dispatcher σ) (s : Sending) (content : Content) :
    (d.launch s.now s.message content s.sentTokens s.deliveredTokens).2.attempts =
      d.attempts ++ (d.answers s.message content).map Reply.attempt := by
  unfold launch answers circuitReplies leftForCircuit imsReplies
  cases hroute : d.route with
  | circuit =>
    simp only [offerCircuit_eq]
    rfl
  | ims =>
    simp only [offerVia_eq]
    rw [(reroute_eq _ _ _ _).1, List.map_append, ← List.append_assoc]
    rfl

theorem tracker_launch (d : Dispatcher σ) (s : Sending) (content : Content) :
    (d.launch s.now s.message content s.sentTokens s.deliveredTokens).2.tracker =
      ((d.opened s content).tracker.callBackAll
        (Reply.echoes (d.answers s.message content))).failAll s.message
          (d.failing s.message content) := by
  unfold launch failing answers circuitReplies leftForCircuit imsReplies
  cases hroute : d.route with
  | circuit =>
    simp only [offerCircuit_eq]
    rfl
  | ims =>
    simp only [offerVia_eq]
    rw [(reroute_eq _ _ _ _).2.1]
    unfold Reply.echoes
    rw [List.flatMap_append, Tracker.callBackAll_append]
    rfl

theorem tracker_launch_of_silent (h : ∀ r ∈ d.answers s.message content, r.verdict.echo = []) :
    (d.launch s.now s.message content s.sentTokens s.deliveredTokens).2.tracker =
      (d.opened s content).tracker.failAll s.message (d.failing s.message content) := by
  rw [tracker_launch, Tracker.callBackAll_of_silent h]

theorem map_handOver_imsReplies (d : Dispatcher σ) (m : MessageId) (content : Content) :
    (d.imsReplies m content).1.map Reply.handOver =
      if d.route = .ims then content.cargos.map (Cargo.via .ims m (some d.fallback.nextFree))
      else [] := by
  unfold imsReplies
  cases d.route with
  | ims => exact Radio.map_handOver_replies _ _
  | circuit => rfl

theorem map_handOver_circuitReplies (d : Dispatcher σ) (m : MessageId) (content : Content) :
    (d.circuitReplies m content).map Reply.handOver =
      (d.leftForCircuit m content).map (Cargo.via .circuit m none) :=
  Radio.map_handOver_replies _ _

theorem leftForCircuit_eq (d : Dispatcher σ) (m : MessageId) (content : Content) :
    d.leftForCircuit m content =
      if d.route = .ims then Reply.refused (d.imsReplies m content).1 else content.cargos := by
  unfold leftForCircuit
  cases d.route <;> rfl

/-! ### The entry -/

theorem entry?_launch (hroute : d.route = .ims) (hne : content.indices ≠ []) (s : Sending)
    (r : MessageRef) :
    let gone := (Reply.refused (d.imsReplies s.message content).1).map Cargo.index
    (d.launch s.now s.message content s.sentTokens s.deliveredTokens).2.fallback.entry? r =
      if r = d.fallback.nextFree then
        some ⟨d.fallback.nextFree, s.message, content.without gone,
          if content.exhaustedBy gone then .concluded else .awaitingReport⟩
      else d.fallback.entry? r := by
  intro gone
  have hlaunch : (d.launch s.now s.message content s.sentTokens s.deliveredTokens).2.fallback =
      if (Reply.refused (d.imsReplies s.message content).1).isEmpty then
        (d.fallback.register s.message content).2
      else ((d.fallback.register s.message content).2.detach d.fallback.nextFree gone).2 := by
    unfold launch
    simp only [hroute, offerVia_eq]
    rw [(reroute_eq _ _ _ _).2.2]
    simp only [gone, imsReplies, hroute]
    rfl
  have hreg := d.fallback.files_register s.message content
  rw [hlaunch]
  split
  · next hnone =>
    have hgone : gone = [] := by
      simp only [gone, List.isEmpty_iff.1 hnone, List.map_nil]
    have hleft : content.exhaustedBy [] = false := by
      rw [Bool.eq_false_iff, ne_eq, Content.exhaustedBy_iff]
      simpa using hne
    rw [hgone, Content.without_nil, hleft, hreg.entry?]
    rfl
  · have hdet := Fallback.files_detach hreg.self rfl gone
    by_cases hr : r = d.fallback.nextFree
    · rw [if_pos hr, hr]
      exact hdet.self
    · rw [if_neg hr]
      exact (hdet.of_ne hr).trans (hreg.of_ne hr)

theorem fallback_launch_circuit (hroute : d.route = .circuit) (s : Sending) (content : Content) :
    (d.launch s.now s.message content s.sentTokens s.deliveredTokens).2.fallback = d.fallback := by
  unfold launch
  simp only [hroute, offerCircuit_eq]
  rfl

/-! ### Where the parts are left -/

/-- The last answer about every part is a refusal. -/
def AllRefused (n : Nat) (rs : List Reply) : Prop :=
  ∀ i < n, ∃ r, Reply.last? rs i = some r ∧ r.verdict = .refused

/-- **Where a send leaves its parts.**  `ims` and `circuit` are the answers of the two routes. -/
structure Placed (d : Dispatcher σ) (s : Sending) (content : Content) (ims circuit : List Reply)
    (d' : Dispatcher σ) : Prop where
  indices_eq : content.cargos.map Cargo.index = List.range content.indices.length
  /-- The IP route, if it is selected, gets every part once, in the order of the indices. -/
  ims_eq : ims.map Reply.handOver =
    if d.route = .ims then content.cargos.map (Cargo.via .ims s.message (some d.fallback.nextFree))
    else []
  /-- So does the circuit domain, if it is selected; else it gets what the IP route has refused. -/
  circuit_eq : circuit.map Reply.handOver =
    (if d.route = .ims then Reply.refused ims else content.cargos).map
      (Cargo.via .circuit s.message none)
  /-- There is no reference in the circuit domain, and the radio reports the send results. -/
  reportsSent : ∀ r ∈ circuit, r.handOver.ref = none ∧ r.handOver.callback.reportsSent = true
  attempts : d'.attempts = d.attempts ++ (ims ++ circuit).map Reply.attempt
  exists_last : ∀ i < content.indices.length, ∃ r, Reply.last? (ims ++ circuit) i = some r
  /-- A part whose last hand-over was refused has failed. -/
  failed : ∀ i r, Reply.last? (ims ++ circuit) i = some r → r.verdict = .refused →
    ∀ c, d'.tracker.context? s.message = some c →
      c.parts[i]? = some (.failed .genericFailure)
  /-- A part whose last hand-over was taken, with no signal as yet, is pending. -/
  pending : ∀ i r, Reply.last? (ims ++ circuit) i = some r → r.verdict = .accepted [] →
    d'.tracker.Pending s.message i
  /-- On the IP route the entry keeps the parts that the route has taken and waits for them, if
  there are any. -/
  entry : d.route = .ims → ∃ e, d'.fallback.entry? d.fallback.nextFree = some e ∧
    e.message = s.message ∧ e.content = content.without ((Reply.refused ims).map Cargo.index) ∧
    e.phase = (if Reply.taken ims = [] then .concluded else .awaitingReport) ∧
    (content.kind = .sms ∨ Reply.taken ims ≠ [] → e.content.indices = Reply.taken ims)
  unenlisted : d.route = .circuit → d'.fallback = d.fallback
  /-- If every part is refused in the end, the context is gone, the sent token has been fired with
  the failure, and the delivered tokens are closed. -/
  all_refused : AllRefused content.indices.length (ims ++ circuit) →
    d'.tracker.context? s.message = none ∧
    d'.tracker.outcomes = (d.opened s content).tracker.outcomes ++
      (s.sentTokens.getLast?.toList.map (Token.fire .genericFailure) ++
        (s.deliveredTokens.take content.indices.length).map Token.close)
  /-- Only then, if the radio has given no signal as yet; otherwise no token has been fired. -/
  retired_iff : (∀ r ∈ ims ++ circuit, r.verdict.echo = []) →
    (d'.tracker.context? s.message = none ↔ AllRefused content.indices.length (ims ++ circuit)) ∧
    (¬ AllRefused content.indices.length (ims ++ circuit) →
      d'.tracker.outcomes = (d.opened s content).tracker.outcomes)

section Launch

variable (hc : content.Indexed) (d : Dispatcher σ) (s : Sending)

theorem map_index_imsReplies (d : Dispatcher σ) (m : MessageId) (content : Content) :
    (d.imsReplies m content).1.map Reply.index =
      if d.route = .ims then content.indices else [] := by
  have hims := map_handOver_imsReplies d m content
  split at hims
  · next hroute =>
    rw [if_pos hroute, (Reply.of_map_handOver hims).1, content.map_index_cargos]
  · next hroute =>
    rw [if_neg hroute, List.map_eq_nil_iff.1 hims, List.map_nil]

theorem cargo_index_imsReplies {r : Reply} (hr : r ∈ (d.imsReplies s.message content).1) :
    r.handOver.cargo.index = r.index ∧ r.message = s.message ∧ d.route = .ims := by
  have hims := map_handOver_imsReplies d s.message content
  split at hims
  · next hroute =>
    obtain ⟨c, -, hvia⟩ := (Reply.of_map_handOver hims).2 r hr
    unfold Reply.index Reply.message
    rw [hvia]
    exact ⟨rfl, rfl, hroute⟩
  · rw [List.map_eq_nil_iff.1 hims] at hr
    cases hr

theorem of_mem_circuitReplies {r : Reply} (hr : r ∈ d.circuitReplies s.message content) :
    r.handOver.cargo.index = r.index ∧ r.message = s.message ∧ r.handOver.ref = none ∧
      r.handOver.callback.reportsSent = true := by
  obtain ⟨c, -, hvia⟩ :=
    (Reply.of_map_handOver (map_handOver_circuitReplies d s.message content)).2 r hr
  unfold Reply.index Reply.message
  rw [hvia]
  exact ⟨rfl, rfl, rfl, rfl⟩

theorem map_index_circuitReplies :
    (d.circuitReplies s.message content).map Reply.index =
      if d.route = .ims then
        ((d.imsReplies s.message content).1.filter (!·.verdict.isAccepted)).map Reply.index
      else content.indices := by
  rw [(Reply.of_map_handOver (map_handOver_circuitReplies d s.message content)).1,
    leftForCircuit_eq]
  split
  · exact Reply.map_index_refused fun r hr => (cargo_index_imsReplies d s hr).1
  · exact content.map_index_cargos

include hc in
theorem rounds_launch :
    Reply.Rounds (d.imsReplies s.message content).1 (d.circuitReplies s.message content) := by
  have hims : ((d.imsReplies s.message content).1.map Reply.index).Nodup := by
    rw [map_index_imsReplies]
    split
    · exact hc.nodup
    · exact List.nodup_nil
  refine ⟨hims, ?_, fun r hr => ?_⟩
  · rw [map_index_circuitReplies]
    split
    · exact hims.sublist (List.filter_sublist.map _)
    · exact hc.nodup
  · rw [map_index_circuitReplies, if_pos (cargo_index_imsReplies d s hr).2.2]
    exact Reply.index_mem_refused_iff hims hr

theorem mem_indices_iff (i : Nat) :
    i ∈ (d.answers s.message content).map Reply.index ↔ i ∈ content.indices := by
  unfold answers
  rw [List.map_append, List.mem_append, map_index_circuitReplies, map_index_imsReplies]
  split
  · next hroute =>
    constructor
    · rintro (hi | hi)
      · exact hi
      · have hsub := (List.filter_sublist (p := (!·.verdict.isAccepted))
          (l := (d.imsReplies s.message content).1)).map Reply.index
        have hi := hsub.subset hi
        rwa [map_index_imsReplies, if_pos hroute] at hi
    · exact Or.inl
  · simp

theorem message_of_mem {r : Reply} (hr : r ∈ d.answers s.message content) :
    r.message = s.message := by
  rcases List.mem_append.1 hr with hr | hr
  · exact (cargo_index_imsReplies d s hr).2.1
  · exact (of_mem_circuitReplies d s hr).2.1

theorem exists_last_launch {i : Nat} (hi : i ∈ content.indices) :
    ∃ r, Reply.last? (d.answers s.message content) i = some r := by
  cases hlast : Reply.last? (d.answers s.message content) i with
  | none => exact absurd ((mem_indices_iff d s i).2 hi) (Reply.last?_eq_none_iff.1 hlast)
  | some r => exact ⟨r, rfl⟩

include hc

/-- **The parts that no route takes** are those whose last answer is a refusal. -/
theorem mem_failing_iff {i : Nat} :
    i ∈ d.failing s.message content ↔
      ∃ r, Reply.last? (d.answers s.message content) i = some r ∧ r.verdict = .refused := by
  unfold failing
  rw [Reply.map_index_refused fun r hr => (of_mem_circuitReplies d s hr).1]
  exact (rounds_launch hc d s).mem_refused_iff

theorem nodup_failing : (d.failing s.message content).Nodup := by
  unfold failing
  rw [Reply.map_index_refused fun r hr => (of_mem_circuitReplies d s hr).1]
  exact (rounds_launch hc d s).nodup_second.sublist (List.filter_sublist.map _)

theorem silent_launch {i : Nat} {r : Reply}
    (hr : Reply.last? (d.answers s.message content) i = some r) (hsilent : r.verdict.echo = []) :
    (d.opened s content).tracker.Pending s.message i ∧
      ∀ x ∈ d.answers s.message content, x.index = i → x.verdict.echo = [] := by
  refine ⟨?_, (rounds_launch hc d s).silent_of_last? hr hsilent⟩
  obtain ⟨hmem, rfl⟩ := Reply.of_last? hr
  have hi := (mem_indices_iff d s r.index).1 (List.mem_map_of_mem hmem)
  rw [hc] at hi
  exact Tracker.pending_opened _ _ _ (List.mem_range.1 hi) _ _

theorem silent_of_mem_failing {i : Nat} (hi : i ∈ d.failing s.message content) :
    (d.opened s content).tracker.Pending s.message i ∧
      ∀ x ∈ d.answers s.message content, x.index = i → x.verdict.echo = [] := by
  obtain ⟨r, hr, href⟩ := (mem_failing_iff hc d s).1 hi
  exact silent_launch hc d s hr (by rw [href]; rfl)

theorem failed_launch {i : Nat} {r : Reply}
    (hr : Reply.last? (d.answers s.message content) i = some r) (href : r.verdict = .refused)
    {c : Tracker.Context}
    (hctx : (d.launch s.now s.message content s.sentTokens s.deliveredTokens).2.tracker.context?
      s.message = some c) :
    c.parts[i]? = some (.failed .genericFailure) := by
  rw [tracker_launch] at hctx
  exact Tracker.failed_of_mem (fun r hr => message_of_mem d s hr) (nodup_failing hc d s)
    (fun j hj => silent_of_mem_failing hc d s hj) ((mem_failing_iff hc d s).2 ⟨r, hr, href⟩) hctx

theorem pending_launch {i : Nat} {r : Reply}
    (hr : Reply.last? (d.answers s.message content) i = some r)
    (hacc : r.verdict = .accepted []) :
    (d.launch s.now s.message content s.sentTokens s.deliveredTokens).2.tracker.Pending s.message
      i := by
  obtain ⟨hp, hsilent⟩ := silent_launch hc d s hr (by rw [hacc]; rfl)
  rw [tracker_launch]
  refine Tracker.pending_of_silent (fun r hr => message_of_mem d s hr) hp hsilent fun hfail => ?_
  obtain ⟨x, hx, href⟩ := (mem_failing_iff hc d s).1 hfail
  rw [hr] at hx
  obtain rfl := Option.some.inj hx
  rw [hacc] at href
  cases href

/-! ### The end of a send that nobody takes -/

theorem allRefused_iff :
    AllRefused content.indices.length (d.answers s.message content) ↔
      ∀ i < content.indices.length, i ∈ d.failing s.message content :=
  forall₂_congr fun _ _ => (mem_failing_iff hc d s).symm

theorem retired_launch (hne : content.indices ≠ [])
    (h : AllRefused content.indices.length (d.answers s.message content)) :
    let d' := (d.launch s.now s.message content s.sentTokens s.deliveredTokens).2
    d'.tracker.context? s.message = none ∧
    d'.tracker.outcomes = (d.opened s content).tracker.outcomes ++
      (s.sentTokens.getLast?.toList.map (Token.fire .genericFailure) ++
        (s.deliveredTokens.take content.indices.length).map Token.close) := by
  intro d'
  have hall := (allRefused_iff hc d s).1 h
  have hn := List.length_pos_iff.2 hne
  have hsilent : ∀ r ∈ d.answers s.message content, r.verdict.echo = [] := by
    intro r hr
    have hi := (mem_indices_iff d s r.index).1 (List.mem_map_of_mem hr)
    rw [hc] at hi
    exact (silent_of_mem_failing hc d s (hall _ (List.mem_range.1 hi))).2 r hr rfl
  have hctx := context?_opened d s content
  have htracker : d'.tracker = ((d.opened s content).tracker.settle s.message
      (d.failing s.message content) .genericFailure).2 := by
    rw [← Tracker.failAll_eq_settle hctx (List.ne_nil_of_mem (hall 0 hn)) (nodup_failing hc d s)
      fun i hi => (silent_of_mem_failing hc d s hi).1]
    exact tracker_launch_of_silent hsilent
  rw [htracker, Tracker.context?_settle hctx, Tracker.outcomes_settle hctx]
  exact ⟨Tracker.Context.remains_settle_opened hall (by decide),
    congrArg _ (Tracker.Context.conclusion_settle_opened hn hall (by decide))⟩

theorem retired_launch_iff (hsilent : ∀ r ∈ d.answers s.message content, r.verdict.echo = [])
    (hne : content.indices ≠ []) :
    let d' := (d.launch s.now s.message content s.sentTokens s.deliveredTokens).2
    (d'.tracker.context? s.message = none ↔
      AllRefused content.indices.length (d.answers s.message content)) ∧
    (¬ AllRefused content.indices.length (d.answers s.message content) →
      d'.tracker.outcomes = (d.opened s content).tracker.outcomes) := by
  intro d'
  refine ⟨⟨fun hnone i hi => ?_, fun h => (retired_launch hc d s hne h).1⟩, fun hnot => ?_⟩
  · obtain ⟨r, hr⟩ := exists_last_launch d s (hc.mem_indices hi)
    refine ⟨r, hr, ?_⟩
    cases hv : r.verdict with
    | refused => rfl
    | accepted echo =>
      have hecho := hsilent r (Reply.of_last? hr).1
      rw [hv] at hecho
      obtain ⟨c, hctx, -⟩ := pending_launch hc d s hr (hv.trans (congrArg _ hecho))
      exact absurd (hnone.symm.trans hctx) (by simp)
  · rw [allRefused_iff hc] at hnot
    simp only [not_forall] at hnot
    obtain ⟨i, hi, hleft⟩ := hnot
    show Tracker.outcomes (d.launch _ _ _ _ _).2.tracker = _
    rw [tracker_launch_of_silent hsilent]
    cases hfail : d.failing s.message content with
    | nil => rfl
    | cons j l =>
      have hctx := context?_opened d s content
      rw [← hfail, Tracker.failAll_eq_settle hctx (by simp [hfail]) (nodup_failing hc d s)
        fun j hj => (silent_of_mem_failing hc d s hj).1, Tracker.outcomes_settle hctx]
      -- a part that a route has taken keeps the context waiting
      have hpending : ((Tracker.Context.opened s.now content.indices.length s.sentTokens
          s.deliveredTokens).settle (d.failing s.message content) .genericFailure).parts[i]? =
            some .pending := by
        rw [Tracker.Context.settle_parts, if_neg fun h => hleft h.2]
        simp [Tracker.Context.opened, hi]
      rw [Tracker.Context.conclusion_of_pending (List.mem_of_getElem? hpending), List.append_nil]

theorem entry_launch (hroute : d.route = .ims) (hne : content.indices ≠ []) :
    let ims := (d.imsReplies s.message content).1
    let d' := (d.launch s.now s.message content s.sentTokens s.deliveredTokens).2
    ∃ e, d'.fallback.entry? d.fallback.nextFree = some e ∧
      e.message = s.message ∧ e.content = content.without ((Reply.refused ims).map Cargo.index) ∧
      e.phase = (if Reply.taken ims = [] then .concluded else .awaitingReport) ∧
      (content.kind = .sms ∨ Reply.taken ims ≠ [] → e.content.indices = Reply.taken ims) := by
  intro ims d'
  have hindices : ims.map Reply.index = content.indices := by
    rw [map_index_imsReplies, if_pos hroute]
  have htaken : content.indices.filter (· ∉ (Reply.refused ims).map Cargo.index) =
      Reply.taken ims := by
    rw [Reply.map_index_refused fun r hr => (cargo_index_imsReplies d s hr).1, ← hindices]
    refine Reply.filter_not_mem_refused ?_
    rw [hindices]
    exact hc.nodup
  have hexhausted : content.exhaustedBy ((Reply.refused ims).map Cargo.index) = true ↔
      Reply.taken ims = [] := by
    rw [Content.exhaustedBy_iff, htaken]
  have hentry := (entry?_launch hroute hne s d.fallback.nextFree).trans (if_pos rfl)
  refine ⟨_, hentry, rfl, rfl, if_congr hexhausted rfl rfl, ?_⟩
  rintro (hkind | hsome)
  · rw [← htaken]
    cases content with
    | sms destination serviceCentre parts =>
      unfold Content.without Content.indices
      rw [List.filter_map]
      rfl
    | mms pdu locationUrl => cases hkind
  · rw [← htaken]
    exact Content.indices_without (Bool.eq_false_iff.2 fun h => hsome (hexhausted.1 h))

/-- **Where a send leaves its parts.** -/
theorem placed_launch (hne : content.indices ≠ []) :
    d.Placed s content (d.imsReplies s.message content).1 (d.circuitReplies s.message content)
      (d.launch s.now s.message content s.sentTokens s.deliveredTokens).2 where
  indices_eq := content.map_index_cargos.trans hc
  ims_eq := map_handOver_imsReplies d s.message content
  circuit_eq := by rw [map_handOver_circuitReplies, leftForCircuit_eq]
  reportsSent r hr := (of_mem_circuitReplies d s hr).2.2
  attempts := attempts_launch d s content
  exists_last i hi := exists_last_launch d s (hc.mem_indices hi)
  failed i r hr href c hctx := failed_launch hc d s hr href hctx
  pending i r hr hacc := pending_launch hc d s hr hacc
  entry hroute := entry_launch hc d s hroute hne
  unenlisted hroute := fallback_launch_circuit hroute s content
  all_refused h := retired_launch hc d s hne h
  retired_iff hsilent := retired_launch_iff hc d s hsilent hne

end Launch

/-- What a send is answered. -/
def receiptOf (d : Dispatcher σ) (s : Sending) (content : Content) : Receipt where
  message := s.message
  partCount := content.indices.length
  route := d.route
  ref := if d.route = .ims then some d.fallback.nextFree else none
  time := .ofSeconds s.now

theorem launchOr_ok {kind : Kind} (hc : content.Sendable kind) (d : Dispatcher σ) (s : Sending) :
    let launched := d.launchOr s.now s.message (.ok content) s.sentTokens s.deliveredTokens
    launched.1 = .ok (d.receiptOf s content) ∧
    d.Placed s content (d.imsReplies s.message content).1 (d.circuitReplies s.message content)
      launched.2 :=
  ⟨congrArg Except.ok (receipt_launch d s content), placed_launch hc.indexed d s hc.nonempty⟩

/-- **Every send** of a valid request is answered with a receipt and leaves its parts by the answers
of the radio: each one is offered to the selected route once, and to the circuit domain what the IP
route has refused; the last answer about a part says how the part stands, the entry waits for what
the IP route has taken, and the send is over exactly if the radio takes nothing.  A multimedia
message is one part. -/
theorem send_places_parts (d : Dispatcher σ) (now : Int) (m : MessageId) :
    (∀ (r : SendRequest) content, r.content d.limits = .ok content →
      let s : Sending := ⟨now, m, r.sentTokens, r.deliveredTokens⟩
      (d.send now m r).1 = .ok (d.receiptOf s content) ∧
      d.Placed s content (d.imsReplies m content).1 (d.circuitReplies m content)
        (d.send now m r).2) ∧
    ∀ (pdu : Octets) (locationUrl : Option String) (sentToken : Option Token), pdu ≠ [] →
      let content : Content := .mms pdu locationUrl
      let s : Sending := ⟨now, m, sentToken.toList, []⟩
      (d.sendMultimedia now m pdu locationUrl sentToken).1 = .ok (d.receiptOf s content) ∧
      d.Placed s content (d.imsReplies m content).1 (d.circuitReplies m content)
        (d.sendMultimedia now m pdu locationUrl sentToken).2 := by
  constructor
  · intro r content hcontent s
    unfold send
    rw [hcontent]
    exact launchOr_ok (sendable_content hcontent) d s
  · intro pdu locationUrl sentToken hpdu content s
    have hcontent : multimediaContent pdu locationUrl = .ok content := by
      unfold multimediaContent
      rw [if_neg (by simpa using hpdu)]
    unfold sendMultimedia
    rw [hcontent]
    exact launchOr_ok (sendable_multimediaContent hcontent) d s

/-- A dispatcher of short parts whose radio refuses some of them. -/
def picky (rejected : List (Route × Nat)) : Dispatcher ScriptedRadio :=
  new ⟨2, 0, 0⟩ 300 true { ScriptedRadio.new true with rejected } (.memory ⟨0, 0, []⟩)

/-- Of two parts the IP route takes the first one, and nobody takes the second; a multimedia message
that nobody takes is over. -/
theorem send_places_parts_refused :
    let d := picky [(.ims, 1), (.circuit, 1)]
    let r : SendRequest := ⟨"10086", none, .text "短信", [⟨1⟩], [⟨2⟩]⟩
    let d' := (d.send 0 ⟨7⟩ r).2
    (∃ content, r.content d.limits = .ok content ∧ d'.tracker.Pending ⟨7⟩ 0 ∧
      (∀ c, d'.tracker.context? ⟨7⟩ = some c → c.parts[1]? = some (.failed .genericFailure)) ∧
      ∃ e, d'.fallback.entry? .first = some e ∧ e.phase = .awaitingReport ∧
        e.content.indices = [0]) ∧
    let d := picky [(.ims, 0), (.circuit, 0)]
    ([1] : Octets) ≠ [] ∧
      (d.sendMultimedia 0 ⟨8⟩ [1] none (some ⟨3⟩)).2.tracker.context? ⟨8⟩ = none := by
  intro d r d'
  constructor
  · let content : Content := .sms "10086" none [
      ⟨0, 2, .ucs2, some "短", [119, 237], none⟩, ⟨1, 2, .ucs2, some "信", [79, 225], none⟩]
    have hcontent : r.content d.limits = .ok content := by decide +kernel
    obtain ⟨-, hplaced⟩ := (send_places_parts d 0 ⟨7⟩).1 r content hcontent
    obtain ⟨e, he, -, -, hphase, hindices⟩ := hplaced.entry (by decide)
    exact ⟨content, hcontent, hplaced.pending 0 _ rfl (by decide),
      hplaced.failed 1 _ rfl (by decide), e, he, hphase.trans (by decide),
      (hindices (Or.inl rfl)).trans (by decide)⟩
  · intro d
    obtain ⟨-, hplaced⟩ := (send_places_parts d 0 ⟨8⟩).2 [1] none (some ⟨3⟩) (by decide)
    refine ⟨by decide, (hplaced.all_refused fun i hi => ?_).1⟩
    obtain rfl := Nat.lt_one_iff.1 hi
    exact ⟨_, rfl, by decide⟩

end Dispatcher

end ShortMessage
