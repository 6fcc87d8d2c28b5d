import ShortMessage.Dispatcher.Receive
import ShortMessage.Proofs.Dispatcher.Trace
import ShortMessage.Radio.Scripted

/-!
# Refused calls

A call is checked before anything is done about it, however deep the check sits: in the request, in
the parts of its payload, in the archive behind a stored message.  A call that is refused closes the
tokens that it was given and leaves everything else as it was.

* `Call`, `perform`: the calls that may be refused;
* `SendRequest.Refused`, `Refuses`: why, in the order in which it is found out;
* `SendRequest.content_eq_error_iff`, `storedTextContent_eq_error_iff`,
  `storedMultimediaContent_eq_error_iff`, `checkInjection_eq_error_iff`: what the checks find;
* `perform_eq_error_iff`, `refused_call_changes_nothing`: when a call is refused, and what it
  leaves.
-/

namespace ShortMessage

theorem bind_eq_error_iff {α β : Type} {x : Except Failure α} {g : α → Except Failure β}
    {f : Failure} : (x >>= g) = .error f ↔ x = .error f ∨ ∃ a, x = .ok a ∧ g a = .error f := by
  cases x with
  | error f' => simp [bind, Except.bind]
  | ok a => simp [bind, Except.bind]

theorem toList_isEmpty_iff {s : String} : s.toList.isEmpty = true ↔ s = "" := by
  rw [List.isEmpty_iff, String.toList_eq_nil_iff]

theorem Token.fates_close (tokens : List Token) (τ : Token) :
    ((tokens.map Token.close).filter (·.1 = τ)).map Prod.snd =
      List.replicate (tokens.count τ) .closed := by
  refine List.eq_replicate_iff.2 ⟨?_, fun o ho => ?_⟩
  · rw [Tracker.length_filter_fst, Token.map_fst_close]
  · obtain ⟨ev, hev, rfl⟩ := List.mem_map.1 ho
    obtain ⟨t, -, rfl⟩ := List.mem_map.1 (List.mem_filter.1 hev).1
    rfl

/-! ### Requests -/

namespace SendRequest

variable {r : SendRequest} {l : SegmentLimits} {f : Failure}

/-- **Why a request is refused**: the destination is looked at first, and then the payload. -/
inductive Refused (l : SegmentLimits) (r : SendRequest) : Failure → Prop
  | noDestination (h : r.destination = "") : Refused l r (.invalidArgument .noDestination)
  | noContent (hd : r.destination ≠ "") (h : r.payload.isEmpty = true) :
    Refused l r (.invalidArgument .noContent)
  | noParts {f : Failure} (hd : r.destination ≠ "") (hp : r.payload.isEmpty = false)
      (h : l.Rejects r.payload f) : Refused l r f

theorem check_eq_error_iff :
    r.check = .error f ↔ (r.destination = "" ∧ f = .invalidArgument .noDestination) ∨
      (r.destination ≠ "" ∧ r.payload.isEmpty = true ∧ f = .invalidArgument .noContent) := by
  unfold check
  by_cases hd : r.destination = ""
  · rw [if_pos (toList_isEmpty_iff.2 hd), Except.error.injEq, eq_comm]
    simp [hd]
  · rw [if_neg fun h => hd (toList_isEmpty_iff.1 h)]
    cases hp : r.payload.isEmpty <;> simp [hd, eq_comm]

theorem check_eq_ok_iff :
    r.check = .ok () ↔ r.destination ≠ "" ∧ r.payload.isEmpty = false := by
  unfold check
  by_cases hd : r.destination = ""
  · rw [if_pos (toList_isEmpty_iff.2 hd)]
    simp [hd]
  · rw [if_neg fun h => hd (toList_isEmpty_iff.1 h)]
    cases hp : r.payload.isEmpty <;> simp [hd]

theorem content_eq_error_iff : r.content l = .error f ↔ r.Refused l f := by
  unfold content
  simp only [bind_eq_error_iff, check_eq_error_iff, SegmentLimits.segment_eq_error_iff]
  constructor
  · rintro ((⟨hd, rfl⟩ | ⟨hd, hp, rfl⟩) | ⟨⟨⟩, hcheck, hrej | ⟨parts, -, hno⟩⟩)
    · exact .noDestination hd
    · exact .noContent hd hp
    · obtain ⟨hd, hp⟩ := check_eq_ok_iff.1 hcheck
      exact .noParts hd hp hrej
    · cases hno
  · rintro (hd | ⟨hd, hp⟩ | ⟨hd, hp, hrej⟩)
    · exact Or.inl (Or.inl ⟨hd, rfl⟩)
    · exact Or.inl (Or.inr ⟨hd, hp, rfl⟩)
    · exact Or.inr ⟨(), check_eq_ok_iff.2 ⟨hd, hp⟩, Or.inl hrej⟩

end SendRequest

namespace Dispatcher

variable {σ : Type} {d d' : Dispatcher σ} {name : String} {f : Failure}

/-! ### Calls -/

/-- A call that may be refused. -/
inductive Call
  | send (now : Int) (message : MessageId) (request : SendRequest)
  | sendMultimedia (now : Int) (message : MessageId) (pdu : Octets) (locationUrl : Option String)
      (sentToken : Option Token)
  | sendStoredText (now : Int) (message : MessageId) (name : String)
      (serviceCentre : Option String) (sentTokens deliveredTokens : List Token)
  | sendStoredMultimedia (now : Int) (message : MessageId) (name : String)
      (sentToken : Option Token)
  | inject (pdu : Octets) (format : String) (token : Option Token)
  | setBroadcast (first last : UInt16) (enabled : Bool)

/-- The tokens that a call is given. -/
def Call.tokens : Call → List Token
  | .send _ _ r => r.tokens
  | .sendMultimedia _ _ _ _ sentToken => sentToken.toList
  | .sendStoredText _ _ _ _ sentTokens deliveredTokens => sentTokens ++ deliveredTokens
  | .sendStoredMultimedia _ _ _ sentToken => sentToken.toList
  | .inject _ _ token => token.toList
  | .setBroadcast .. => []

/-- Leaves out what a call answers beside a failure. -/
def outcome {α : Type} (answer : Except Failure α × Dispatcher σ) :
    Except Failure Unit × Dispatcher σ :=
  (answer.1.map fun _ => (), answer.2)

/-- Makes a call; of its answer only failure matters here. -/
def perform [Radio σ] (d : Dispatcher σ) : Call → Except Failure Unit × Dispatcher σ
  | .send now message r => outcome (d.send now message r)
  | .sendMultimedia now message pdu locationUrl sentToken =>
    outcome (d.sendMultimedia now message pdu locationUrl sentToken)
  | .sendStoredText now message name serviceCentre sentTokens deliveredTokens =>
    outcome (d.sendStoredText now message name serviceCentre sentTokens deliveredTokens)
  | .sendStoredMultimedia now message name sentToken =>
    outcome (d.sendStoredMultimedia now message name sentToken)
  | .inject pdu format token => outcome (d.inject pdu format token)
  | .setBroadcast first last enabled => outcome (d.setBroadcast first last enabled)

/-- Why no message can be looked up under a name. -/
inductive Unnamed (d : Dispatcher σ) (name : String) : Failure → Prop
  | noName (h : name = "") : Unnamed d name (.invalidArgument .noMessageName)
  | noArchive (hn : name ≠ "") (h : d.archive = none) : Unnamed d name (.unavailable .archive)

/-- **Why a call is refused.** -/
inductive Refuses (d : Dispatcher σ) : Call → Failure → Prop
  | request {now : Int} {m : MessageId} {r : SendRequest} {f : Failure}
      (h : r.Refused d.limits f) : Refuses d (.send now m r) f
  | noMultimediaPdu {now : Int} {m : MessageId} {locationUrl : Option String}
      {sentToken : Option Token} :
    Refuses d (.sendMultimedia now m [] locationUrl sentToken) (.invalidArgument .noMultimediaPdu)
  | unnamedText {now : Int} {m : MessageId} {name : String} {serviceCentre : Option String}
      {sentTokens deliveredTokens : List Token} {f : Failure} (h : d.Unnamed name f) :
    Refuses d (.sendStoredText now m name serviceCentre sentTokens deliveredTokens) f
  | noStoredText {now : Int} {m : MessageId} {name : String} {serviceCentre : Option String}
      {sentTokens deliveredTokens : List Token} {a : Archive} (hn : name ≠ "")
      (ha : d.archive = some a) (h : a.text? name = none) :
    Refuses d (.sendStoredText now m name serviceCentre sentTokens deliveredTokens)
      (.invalidArgument (.noStoredText name))
  | storedText {now : Int} {m : MessageId} {name : String} {serviceCentre : Option String}
      {sentTokens deliveredTokens : List Token} {a : Archive} {t : StoredText} {f : Failure}
      (hn : name ≠ "") (ha : d.archive = some a) (ht : a.text? name = some t)
      (h : SendRequest.Refused d.limits ⟨t.destination, serviceCentre, .text t.body, [], []⟩ f) :
    Refuses d (.sendStoredText now m name serviceCentre sentTokens deliveredTokens) f
  | unnamedMultimedia {now : Int} {m : MessageId} {name : String} {sentToken : Option Token}
      {f : Failure} (h : d.Unnamed name f) :
    Refuses d (.sendStoredMultimedia now m name sentToken) f
  | noStoredMultimedia {now : Int} {m : MessageId} {name : String} {sentToken : Option Token}
      {a : Archive} (hn : name ≠ "") (ha : d.archive = some a) (h : a.multimedia? name = none) :
    Refuses d (.sendStoredMultimedia now m name sentToken)
      (.invalidArgument (.noStoredMultimedia name))
  | storedMultimedia {now : Int} {m : MessageId} {name : String} {sentToken : Option Token}
      {a : Archive} {stored : StoredMultimedia} (hn : name ≠ "") (ha : d.archive = some a)
      (hs : a.multimedia? name = some stored) (h : stored.pdu = []) :
    Refuses d (.sendStoredMultimedia now m name sentToken) (.invalidArgument .noMultimediaPdu)
  | unknownFormat {pdu : Octets} {format : String} {token : Option Token}
      (h : format ≠ "3gpp" ∧ format ≠ "3gpp2") :
    Refuses d (.inject pdu format token) (.invalidArgument (.unknownFormat format))
  | noPdu {format : String} {token : Option Token} (h : format = "3gpp" ∨ format = "3gpp2") :
    Refuses d (.inject [] format token) (.invalidArgument .noPdu)
  | invertedRange {first last : UInt16} {enabled : Bool} (h : last < first) :
    Refuses d (.setBroadcast first last enabled)
      (.invalidArgument (.invertedRange first.toNat last.toNat))

/-! ### What the checks find -/

theorem multimediaContent_eq_error_iff {pdu : Octets} {locationUrl : Option String} :
    multimediaContent pdu locationUrl = .error f ↔
      pdu = [] ∧ f = .invalidArgument .noMultimediaPdu := by
  unfold multimediaContent
  cases pdu <;> simp [eq_comm]

theorem namedIn_eq_error_iff : d.namedIn name = .error f ↔ d.Unnamed name f := by
  unfold namedIn
  by_cases hn : name = ""
  · rw [if_pos (toList_isEmpty_iff.2 hn)]
    constructor
    · intro h
      obtain rfl := Except.error.inj h
      exact .noName hn
    · rintro (_ | hn')
      · rfl
      · exact absurd hn hn'
  · rw [if_neg fun h => hn (toList_isEmpty_iff.1 h)]
    cases ha : d.archive with
    | none =>
      constructor
      · intro h
        obtain rfl := Except.error.inj h
        exact .noArchive hn ha
      · rintro (hn' | -)
        · exact absurd hn' hn
        · rfl
    | some a =>
      constructor
      · intro h
        cases h
      · rintro (hn' | ⟨-, ha'⟩)
        · exact absurd hn' hn
        · rw [ha] at ha'
          cases ha'

theorem namedIn_eq_ok_iff {a : Archive} :
    d.namedIn name = .ok a ↔ name ≠ "" ∧ d.archive = some a := by
  unfold namedIn
  by_cases hn : name = ""
  · rw [if_pos (toList_isEmpty_iff.2 hn)]
    simp [hn]
  · rw [if_neg fun h => hn (toList_isEmpty_iff.1 h)]
    cases d.archive <;> simp [hn]

theorem storedTextContent_eq_error_iff {serviceCentre : Option String} :
    d.storedTextContent name serviceCentre = .error f ↔ d.Unnamed name f ∨
      ∃ a, (name ≠ "" ∧ d.archive = some a) ∧
        ((a.text? name = none ∧ f = .invalidArgument (.noStoredText name)) ∨
          ∃ t, a.text? name = some t ∧
            SendRequest.Refused d.limits
              ⟨t.destination, serviceCentre, .text t.body, [], []⟩ f) := by
  unfold storedTextContent
  simp only [bind_eq_error_iff, namedIn_eq_error_iff, namedIn_eq_ok_iff]
  refine or_congr .rfl (exists_congr fun a => and_congr_right fun _ => ?_)
  cases a.text? name with
  | none => simp [eq_comm]
  | some t => simp [SendRequest.content_eq_error_iff]

theorem storedMultimediaContent_eq_error_iff :
    d.storedMultimediaContent name = .error f ↔ d.Unnamed name f ∨
      ∃ a, (name ≠ "" ∧ d.archive = some a) ∧
        ((a.multimedia? name = none ∧ f = .invalidArgument (.noStoredMultimedia name)) ∨
          ∃ s, a.multimedia? name = some s ∧ s.pdu = [] ∧
            f = .invalidArgument .noMultimediaPdu) := by
  unfold storedMultimediaContent
  simp only [bind_eq_error_iff, namedIn_eq_error_iff, namedIn_eq_ok_iff]
  refine or_congr .rfl (exists_congr fun a => and_congr_right fun _ => ?_)
  cases a.multimedia? name with
  | none => simp [eq_comm]
  | some s => simp [multimediaContent_eq_error_iff]

theorem ofText_eq_error_iff {format : String} :
    PduFormat.ofText format = .error f ↔
      (format ≠ "3gpp" ∧ format ≠ "3gpp2") ∧ f = .invalidArgument (.unknownFormat format) := by
  unfold PduFormat.ofText
  by_cases h3 : format = "3gpp" <;> by_cases h32 : format = "3gpp2" <;> simp [h3, h32, eq_comm]

theorem exists_ofText_iff {format : String} :
    (∃ p, PduFormat.ofText format = .ok p) ↔ format = "3gpp" ∨ format = "3gpp2" := by
  unfold PduFormat.ofText
  by_cases h3 : format = "3gpp" <;> by_cases h32 : format = "3gpp2" <;> simp [h3, h32]

theorem checkInjection_eq_error_iff {pdu : Octets} {format : String} :
    checkInjection pdu format = .error f ↔
      ((format ≠ "3gpp" ∧ format ≠ "3gpp2") ∧ f = .invalidArgument (.unknownFormat format)) ∨
      ((format = "3gpp" ∨ format = "3gpp2") ∧ pdu = [] ∧ f = .invalidArgument .noPdu) := by
  unfold checkInjection
  rw [bind_eq_error_iff, ofText_eq_error_iff, ← exists_ofText_iff]
  refine or_congr .rfl ?_
  cases pdu <;> simp [eq_comm, pure, Except.pure]

/-! ### What a refusal leaves -/

theorem outcome_eq_error_iff {α : Type} {answer : Except Failure α × Dispatcher σ} :
    outcome answer = (.error f, d') ↔ answer = (.error f, d') := by
  obtain ⟨answer, after⟩ := answer
  cases answer <;> simp [outcome, Except.map]

section

variable [Radio σ] {call : Call}

/-- A request fails only over its content. -/
theorem launchOr_eq_error_iff {now : Int} {m : MessageId} {content : Except Failure Content}
    {sentTokens deliveredTokens : List Token} :
    d.launchOr now m content sentTokens deliveredTokens = (.error f, d') ↔
      content = .error f ∧ d' = d.closeTokens (sentTokens ++ deliveredTokens) := by
  unfold launchOr
  cases content <;> simp [eq_comm]

theorem inject_eq_error_iff {pdu : Octets} {format : String} {token : Option Token} :
    d.inject pdu format token = (.error f, d') ↔
      checkInjection pdu format = .error f ∧ d' = d.closeTokens token.toList := by
  unfold inject
  cases checkInjection pdu format with
  | error f' => simp [eq_comm]
  | ok format =>
    simp only
    split <;> simp

theorem setBroadcast_eq_error_iff {first last : UInt16} {enabled : Bool} :
    d.setBroadcast first last enabled = (.error f, d') ↔
      (last < first ∧ f = .invalidArgument (.invertedRange first.toNat last.toNat)) ∧ d' = d := by
  unfold setBroadcast
  split
  · next h => simp [h, eq_comm]
  · next h => simp [h]

/-- **A refusal closes the tokens of the call**, and does nothing else. -/
theorem perform_eq_error_iff :
    d.perform call = (.error f, d') ↔ d.Refuses call f ∧ d' = d.closeTokens call.tokens := by
  cases call with
  | send now m r =>
    unfold perform send
    rw [outcome_eq_error_iff, launchOr_eq_error_iff, SendRequest.content_eq_error_iff]
    refine and_congr_left' ⟨.request, fun h => ?_⟩
    cases h with
    | request hr => exact hr
  | sendMultimedia now m pdu locationUrl sentToken =>
    unfold perform sendMultimedia
    rw [outcome_eq_error_iff, launchOr_eq_error_iff, multimediaContent_eq_error_iff,
      List.append_nil]
    refine and_congr_left' ⟨?_, ?_⟩
    · rintro ⟨rfl, rfl⟩
      exact .noMultimediaPdu
    · intro h
      cases h with
      | noMultimediaPdu => exact ⟨rfl, rfl⟩
  | sendStoredText now m name serviceCentre sentTokens deliveredTokens =>
    unfold perform sendStoredText
    rw [outcome_eq_error_iff, launchOr_eq_error_iff, storedTextContent_eq_error_iff]
    refine and_congr_left' ⟨?_, ?_⟩
    · rintro (hu | ⟨a, ⟨hn, ha⟩, ⟨hnone, rfl⟩ | ⟨t, ht, hr⟩⟩)
      · exact .unnamedText hu
      · exact .noStoredText hn ha hnone
      · exact .storedText hn ha ht hr
    · intro h
      cases h with
      | unnamedText hu => exact Or.inl hu
      | noStoredText hn ha hnone => exact Or.inr ⟨_, ⟨hn, ha⟩, Or.inl ⟨hnone, rfl⟩⟩
      | storedText hn ha ht hr => exact Or.inr ⟨_, ⟨hn, ha⟩, Or.inr ⟨_, ht, hr⟩⟩
  | sendStoredMultimedia now m name sentToken =>
    unfold perform sendStoredMultimedia
    rw [outcome_eq_error_iff, launchOr_eq_error_iff, storedMultimediaContent_eq_error_iff,
      List.append_nil]
    refine and_congr_left' ⟨?_, ?_⟩
    · rintro (hu | ⟨a, ⟨hn, ha⟩, ⟨hnone, rfl⟩ | ⟨s, hs, hpdu, rfl⟩⟩)
      · exact .unnamedMultimedia hu
      · exact .noStoredMultimedia hn ha hnone
      · exact .storedMultimedia hn ha hs hpdu
    · intro h
      cases h with
      | unnamedMultimedia hu => exact Or.inl hu
      | noStoredMultimedia hn ha hnone => exact Or.inr ⟨_, ⟨hn, ha⟩, Or.inl ⟨hnone, rfl⟩⟩
      | storedMultimedia hn ha hs hpdu => exact Or.inr ⟨_, ⟨hn, ha⟩, Or.inr ⟨_, hs, hpdu, rfl⟩⟩
  | inject pdu format token =>
    unfold perform
    rw [outcome_eq_error_iff, inject_eq_error_iff, checkInjection_eq_error_iff]
    refine and_congr_left' ⟨?_, ?_⟩
    · rintro (⟨hformat, rfl⟩ | ⟨hformat, rfl, rfl⟩)
      · exact .unknownFormat hformat
      · exact .noPdu hformat
    · intro h
      cases h with
      | unknownFormat hformat => exact Or.inl ⟨hformat, rfl⟩
      | noPdu hformat => exact Or.inr ⟨hformat, rfl, rfl⟩
  | setBroadcast first last enabled =>
    unfold perform
    have hclose : d.closeTokens [] = d := by
      unfold closeTokens
      rw [List.map_nil, List.append_nil]
    rw [outcome_eq_error_iff, setBroadcast_eq_error_iff, Call.tokens, hclose]
    refine and_congr_left' ⟨?_, ?_⟩
    · rintro ⟨hrange, rfl⟩
      exact .invertedRange hrange
    · intro h
      cases h with
      | invertedRange hrange => exact ⟨hrange, rfl⟩

end

/-- **A refused call changes nothing.**  A call fails exactly for one of the reasons above; then
contexts, entries, the next reference, the record of hand-overs, counters, radio, card and archive
are as they were, and every token that the call was given is closed and not fired. -/
theorem refused_call_changes_nothing [Radio σ] (d : Dispatcher σ) (call : Call) (f : Failure) :
    ((d.perform call).1 = .error f ↔ d.Refuses call f) ∧
    ((d.perform call).1 = .error f →
      (d.perform call).2 =
        { d with resolved := d.resolved ++ call.tokens.map Token.close } ∧
      ∀ τ, (d.perform call).2.fates τ =
        d.fates τ ++ List.replicate (call.tokens.count τ) .closed) := by
  have hiff : (d.perform call).1 = .error f ↔ d.Refuses call f ∧
      (d.perform call).2 = d.closeTokens call.tokens := by
    rw [← perform_eq_error_iff, Prod.ext_iff]
    simp
  refine ⟨⟨fun h => (hiff.1 h).1, fun h => ?_⟩, fun h => ⟨(hiff.1 h).2, fun τ => ?_⟩⟩
  · have hclosed : d.perform call = (.error f, d.closeTokens call.tokens) :=
      perform_eq_error_iff.2 ⟨h, rfl⟩
    rw [hclosed]
  · rw [(hiff.1 h).2, ← Token.fates_close]
    unfold fates outcomes closeTokens
    rw [← List.append_assoc, List.filter_append, List.map_append]

/-- A text with a character that no part can hold, while a multimedia message waits for its
carrier. -/
theorem refused_call_changes_nothing_uncuttable :
    let d := ((new ⟨6, 4, 0⟩ 300 true (ScriptedRadio.new true) (.memory ⟨0, 0, []⟩)).sendMultimedia
      0 ⟨7⟩ [1] none (some ⟨3⟩)).2
    let call : Call := .send 1 ⟨8⟩ ⟨"10086", none, .text "a😀b", [⟨1⟩], [⟨2⟩]⟩
    let f : Failure := .invalidArgument (.charTooWide 1 '😀')
    d.Refuses call f ∧ (d.perform call).2.tracker = d.tracker ∧
      (d.perform call).2.fallback = d.fallback ∧ (d.perform call).2.attempts = d.attempts ∧
      (d.perform call).2.fates ⟨1⟩ = [.closed] ∧ (d.perform call).2.fates ⟨2⟩ = [.closed] ∧
      (d.perform call).2.fates ⟨3⟩ = [] := by
  intro d call f
  have hf : (d.perform call).1 = .error f := by decide
  obtain ⟨hiff, hleft⟩ := refused_call_changes_nothing d call f
  obtain ⟨hd, hfates⟩ := hleft hf
  refine ⟨hiff.1 hf, ?_, ?_, ?_, hfates ⟨1⟩, hfates ⟨2⟩, hfates ⟨3⟩⟩ <;> rw [hd]

end Dispatcher

end ShortMessage
