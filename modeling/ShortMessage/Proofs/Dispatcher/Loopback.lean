import ShortMessage.Proofs.Dispatcher.Answers
import ShortMessage.Proofs.Dispatcher.Refusal
import ShortMessage.Proofs.Tracker.OnCourse

/-!
# Sends over the loopback radio

The loopback radio takes every part and calls back about it later.  So a send over it leaves its
parts due, and is on course until all of them have been called back.

* `Entrusted`, `entrusted_launch`: what a send leaves to be called back;
* `onCourse_launch`, `ends_of_onCourse`: its beginning and its end;
* `loopback_completes`: how every send over the loopback radio ends.
-/

namespace ShortMessage

open LoopbackRadio (Completion Interleaves)

namespace Dispatcher

variable {d d' d'' : Dispatcher LoopbackRadio} {due due' : List Completion}

/-! ### A send over the loopback radio -/

theorem send_eq_launch {σ : Type} [Radio σ] {d : Dispatcher σ} {now : Int} {m : MessageId}
    {r : SendRequest} {parts : List Part} (hdestination : r.destination ≠ "")
    (hparts : d.limits.segment r.payload = .ok parts) :
    d.send now m r =
      let launched := d.launch now m (.sms r.destination r.serviceCentre parts) r.sentTokens
        r.deliveredTokens
      (.ok launched.1, launched.2) := by
  have hpayload := (SegmentLimits.nonempty_of_segment hparts).1
  have hcontent : r.content d.limits = .ok (.sms r.destination r.serviceCentre parts) := by
    unfold SendRequest.content
    rw [SendRequest.check_eq_ok_iff.2 ⟨hdestination, hpayload⟩, hparts]
    rfl
  unfold send launchOr
  rw [hcontent]

/-- What hand-overs to the loopback radio leave: completions that are due. -/
structure Entrusted (d : Dispatcher LoopbackRadio) (due : List Completion)
    (d' : Dispatcher LoopbackRadio) : Prop where
  tracker : d'.tracker = d.tracker
  resolved : d'.resolved = d.resolved
  due : d'.radio.due = d.radio.due ++ due

theorem Entrusted.trans (h : d.Entrusted due d') (h' : d'.Entrusted due' d'') :
    d.Entrusted (due ++ due') d'' :=
  ⟨h'.tracker.trans h.tracker, h'.resolved.trans h.resolved,
    by rw [h'.due, h.due, List.append_assoc]⟩

/-- What is called back about a piece. -/
def completion (route : Route) (m : MessageId) (c : Cargo) : Completion :=
  ⟨.via route m c.index, LoopbackRadio.signalsOf c⟩

/-- **The loopback radio refuses nothing.** -/
theorem entrusted_offerVia (d : Dispatcher LoopbackRadio) (route : Route) (m : MessageId)
    (ref : Option MessageRef) (cargos : List Cargo) :
    (d.offerVia route m ref cargos).1 = [] ∧
      d.Entrusted (cargos.map (completion route m)) (d.offerVia route m ref cargos).2 := by
  unfold offerVia
  induction cargos generalizing d with
  | nil => exact ⟨rfl, rfl, rfl, (List.append_nil _).symm⟩
  | cons c cs ih =>
    have hone : d.Entrusted [completion route m c] (d.offer (c.via route m ref)).2 :=
      ⟨rfl, rfl, rfl⟩
    obtain ⟨hnone, hrest⟩ := ih (d.offer (c.via route m ref)).2
    refine ⟨?_, hone.trans hrest⟩
    simp only [offerAll, hnone]
    rfl

theorem entrusted_launch (d : Dispatcher LoopbackRadio) (s : Sending) (content : Content) :
    (d.opened s content).Entrusted (content.cargos.map (completion d.route s.message))
      (d.launch s.now s.message content s.sentTokens s.deliveredTokens).2 := by
  unfold launch
  cases d.route with
  | circuit =>
    obtain ⟨hnone, hall⟩ := entrusted_offerVia (d.opened s content) .circuit s.message none
      content.cargos
    show (d.opened s content).Entrusted _
      (((d.opened s content).offerVia .circuit s.message none content.cargos).2.failAll s.message
        ((d.opened s content).offerVia .circuit s.message none content.cargos).1)
    rw [hnone]
    exact hall
  | ims =>
    obtain ⟨hnone, hall⟩ := entrusted_offerVia
      ((d.opened s content).enlist s.message content).2 .ims s.message (some d.fallback.nextFree)
      content.cargos
    show (d.opened s content).Entrusted _
      ((((d.opened s content).enlist s.message content).2.offerVia .ims s.message
        (some d.fallback.nextFree) content.cargos).2.reroute s.message d.fallback.nextFree
        (((d.opened s content).enlist s.message content).2.offerVia .ims s.message
          (some d.fallback.nextFree) content.cargos).1)
    rw [hnone]
    exact ⟨hall.tracker, hall.resolved, hall.due⟩

theorem foldl_callBack {σ : Type} (d : Dispatcher σ) (said : List (Callback × Signal)) :
    said.foldl (fun d x => d.callBack x.1 x.2) d =
      { d with tracker := said.foldl (fun t x => t.callBack x.1 x.2) d.tracker } := by
  induction said generalizing d with
  | nil => rfl
  | cons x said ih =>
    rw [List.foldl_cons, ih]
    rfl

theorem fates_eq_append {σ : Type} (d : Dispatcher σ) (τ : Token) :
    d.fates τ = d.tracker.fates τ ++ (d.resolved.filter (·.1 = τ)).map Prod.snd := by
  unfold fates outcomes Tracker.fates
  rw [List.filter_append, List.map_append]

theorem onCourse_launch {s : Sending} (destination : String) (serviceCentre : Option String)
    {parts : List Part} (hne : parts ≠ []) (hindex : parts.map Part.index = List.range parts.length)
    (hm : ∀ x ∈ d.radio.due, x.callback.message ≠ s.message) (hnd : s.tokens.Nodup)
    (hfresh : ∀ τ ∈ s.tokens, τ ∉ d.tracker.held ∧ d.tracker.fates τ = []) :
    Tracker.OnCourse ⟨s.message, parts.length, s.sentTokens, s.deliveredTokens⟩ s.now
      (d.launch s.now s.message (.sms destination serviceCentre parts) s.sentTokens
        s.deliveredTokens).2.radio.due
      (d.launch s.now s.message (.sms destination serviceCentre parts) s.sentTokens
        s.deliveredTokens).2.tracker := by
  let content : Content := .sms destination serviceCentre parts
  let r : Tracker.Registration := ⟨s.message, parts.length, s.sentTokens, s.deliveredTokens⟩
  have hleft := entrusted_launch d s content
  have htracker : (d.opened s content).tracker = d.tracker.handle (.register s.now r) := by
    show d.tracker.register _ _ content.indices.length _ _ = _
    rw [show content.indices.length = parts.length from List.length_map _]
    rfl
  have hdue : (d.opened s content).radio.due = d.radio.due := rfl
  rw [hleft.tracker, htracker, hleft.due, hdue]
  refine ⟨Tracker.faring_register hnd hfresh, fun c hc => ?_, fun x hx hxm => ?_⟩
  · have hopened : (d.tracker.handle (.register s.now r)).context? s.message =
        some (r.opened s.now) := (Tracker.context?_register _ _ _ _ _ _ _).trans (if_pos rfl)
    rw [hopened] at hc
    obtain rfl := Option.some.inj hc
    have hlen : (r.opened s.now).parts.length = parts.length := List.length_replicate
    refine ⟨Tracker.Context.sound_opened _ _ _ _, ?_, fun i code hi => ?_, fun i hi => ?_⟩
    · exact List.ne_nil_of_length_pos (hlen ▸ List.length_pos_iff.2 hne)
    · cases List.eq_of_mem_replicate (List.mem_of_getElem? hi)
    · rw [hlen] at hi
      have hi : i ∈ parts.map Part.index := by rwa [hindex, List.mem_range]
      obtain ⟨p, hp, rfl⟩ := List.mem_map.1 hi
      refine Or.inr ⟨completion d.route s.message (.part p destination serviceCentre),
        List.mem_append_right _ (List.mem_map_of_mem (List.mem_map_of_mem hp)), rfl, rfl, ?_⟩
      exact List.mem_cons_of_mem _ List.mem_cons_self
  · rcases List.mem_append.1 hx with hx | hx
    · exact absurd hxm (hm x hx)
    · obtain ⟨c, hc, rfl⟩ := List.mem_map.1 hx
      obtain ⟨p, -, rfl⟩ := List.mem_map.1 hc
      rintro signal hsignal result rfl
      rcases List.mem_cons.1 hsignal with hs | hs
      · exact Signal.sent.inj hs
      · cases List.mem_singleton.1 hs

theorem ends_of_onCourse {r : Tracker.Registration} {now : Int} {said : List (Callback × Signal)}
    (h : Tracker.OnCourse r now due d.tracker) (hsaid : Interleaves due said)
    (hnd : r.tokens.Nodup)
    (hnone : ∀ τ ∈ r.tokens, (d.resolved.filter (·.1 = τ)).map Prod.snd = []) :
    (said.foldl (fun d x => d.callBack x.1 x.2) d).tracker.context? r.message = none ∧
      ∀ τ ∈ r.tokens, (said.foldl (fun d x => d.callBack x.1 x.2) d).fates τ =
        [if τ ∈ r.surplus then .closed else .fired .success] := by
  obtain ⟨hgone, hfaring⟩ := h.run hsaid
  rw [foldl_callBack]
  refine ⟨hgone, fun τ hτ => ?_⟩
  rw [fates_eq_append, hnone τ hτ, List.append_nil]
  exact hfaring.fates_eq hnd hgone hτ

/-- **Every send over the loopback radio ends well.**  A text or datum that has parts is sent, on
either route, and whatever the order in which the radio then calls back – about this message and
others – its context is gone in the end, the last sent token and the delivered tokens of all parts
have been fired with success, and no other token of it has been fired. -/
theorem loopback_completes {now : Int} {m : MessageId} {r : SendRequest} {parts : List Part}
    (hdestination : r.destination ≠ "") (hparts : d.limits.segment r.payload = .ok parts)
    (hm : ∀ x ∈ d.radio.due, x.callback.message ≠ m) (hnd : r.tokens.Nodup)
    (hfresh : ∀ τ ∈ r.tokens, τ ∉ d.tracker.held ∧ d.fates τ = []) :
    ∃ receipt, (d.send now m r).1 = .ok receipt ∧ receipt.partCount = parts.length ∧
      receipt.route = d.route ∧
      ∀ said, Interleaves (d.send now m r).2.radio.due said →
        let done := said.foldl (fun d x => d.callBack x.1 x.2) (d.send now m r).2
        done.tracker.context? m = none ∧
        (∀ τ, r.sentTokens.getLast? = some τ → done.fates τ = [.fired .success]) ∧
        (∀ i < parts.length, ∀ τ, r.deliveredTokens[i]? = some τ →
          done.fates τ = [.fired .success]) ∧
        ∀ τ ∈ r.sentTokens.dropLast ++ r.deliveredTokens.drop parts.length,
          done.fates τ = [.closed] := by
  rw [send_eq_launch hdestination hparts]
  have hne := (SegmentLimits.nonempty_of_segment hparts).2
  let s : Sending := ⟨now, m, r.sentTokens, r.deliveredTokens⟩
  let reg : Tracker.Registration := ⟨m, parts.length, r.sentTokens, r.deliveredTokens⟩
  have hnone : ∀ τ ∈ r.tokens,
      d.tracker.fates τ = [] ∧ (d.resolved.filter (·.1 = τ)).map Prod.snd = [] := by
    intro τ hτ
    have hfates := (hfresh τ hτ).2
    rwa [fates_eq_append, List.append_eq_nil_iff] at hfates
  have hcourse := onCourse_launch (s := s) r.destination r.serviceCentre hne
    (SegmentLimits.map_index_segment hparts) hm hnd fun τ hτ => ⟨(hfresh τ hτ).1, (hnone τ hτ).1⟩
  have hresolved := (entrusted_launch d s (.sms r.destination r.serviceCentre parts)).resolved
  have hreceipt := receipt_launch d s (.sms r.destination r.serviceCentre parts)
  refine ⟨_, rfl, ?_, ?_, fun said hsaid => ?_⟩
  · exact (congrArg Receipt.partCount hreceipt).trans (List.length_map _)
  · exact congrArg Receipt.route hreceipt
  obtain ⟨hgone, hend⟩ := ends_of_onCourse hcourse hsaid hnd fun τ hτ => by
    rw [hresolved]
    exact (hnone τ hτ).2
  have hnd : reg.tokens.Nodup := hnd
  refine ⟨hgone, fun τ hτ => ?_, fun i hi τ hτ => ?_, fun τ hτ => ?_⟩
  · have hno := (Tracker.Registration.last_not_mem hnd hτ).1
    rw [hend τ (Tracker.Registration.mem_tokens_of_last hτ), if_neg hno]
  · have htake : (reg.deliveredTokens.take reg.partCount)[i]? = some τ :=
      (List.getElem?_take_of_lt hi).trans hτ
    have hno : τ ∉ reg.surplus := fun hs =>
      (Tracker.Registration.surplus_not_mem hnd hs).2 (List.mem_of_getElem? htake)
    rw [hend τ (Tracker.Registration.mem_tokens_of_delivered htake), if_neg hno]
  · have hs : τ ∈ reg.surplus := hτ
    rw [hend τ (Tracker.Registration.mem_tokens_of_surplus hs), if_pos hs]

/-- A text of two parts, with two sent tokens and one delivered token too many. -/
theorem loopback_completes_inTurn :
    let d := new ⟨2, 0, 0⟩ 300 true (LoopbackRadio.new true) (.memory ⟨0, 0, []⟩)
    let r : SendRequest := ⟨"10086", none, .text "短信", [⟨1⟩, ⟨2⟩], [⟨3⟩, ⟨4⟩, ⟨5⟩]⟩
    ∃ said, Interleaves (d.send 0 ⟨7⟩ r).2.radio.due said ∧
      let done := said.foldl (fun d x => d.callBack x.1 x.2) (d.send 0 ⟨7⟩ r).2
      done.tracker.context? ⟨7⟩ = none ∧ done.fates ⟨1⟩ = [.closed] ∧
      done.fates ⟨2⟩ = [.fired .success] ∧ done.fates ⟨3⟩ = [.fired .success] ∧
      done.fates ⟨4⟩ = [.fired .success] ∧ done.fates ⟨5⟩ = [.closed] := by
  intro d r
  have hparts : d.limits.segment r.payload = .ok [
      ⟨0, 2, .ucs2, some "短", [119, 237], none⟩, ⟨1, 2, .ucs2, some "信", [79, 225], none⟩] := by
    have hlist : "短信".toList = ['短', '信'] := rfl
    have hdetect : detectEncoding ['短', '信'] = .ucs2 := by decide
    have hpieces : pieces (unitLength .ucs2) 1 ['短', '信'] = [['短'], ['信']] := by
      simp [pieces, fill, unitLength, Utf16.unitCount]
    have hcut : SegmentLimits.cutText ⟨2, 0, 0⟩ .ucs2 ['短', '信'] = .ok [['短'], ['信']] := by
      rw [← hpieces]
      rfl
    show SegmentLimits.segmentText ⟨2, 0, 0⟩ "短信" = _
    simp only [SegmentLimits.segmentText, hlist, hdetect, hcut]
    rfl
  obtain ⟨receipt, -, -, -, hall⟩ := @loopback_completes d 0 ⟨7⟩ r _ (by decide) hparts
    (fun x hx => absurd hx List.not_mem_nil) (by decide)
    fun τ _ => ⟨fun hτ => absurd hτ List.not_mem_nil, rfl⟩
  obtain ⟨hgone, hsent, hdelivered, hclosed⟩ := hall _ (interleaves_inTurn _)
  exact ⟨_, interleaves_inTurn _, hgone, hclosed ⟨1⟩ (by decide), hsent ⟨2⟩ rfl,
    hdelivered 0 (by decide) ⟨3⟩ rfl, hdelivered 1 (by decide) ⟨4⟩ rfl, hclosed ⟨5⟩ (by decide)⟩

end Dispatcher

end ShortMessage
