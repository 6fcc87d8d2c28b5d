import ShortMessage.Dispatcher.Report
import ShortMessage.Proofs.Dispatcher.Content

/-!
# Runs of a dispatcher

Every call on a dispatcher that has to do with sending is an `Event`, and a run is a list of events
handled one after the other.  The radio is arbitrary, so it may take or refuse whatever it likes,
and between two calls it may change as it likes.

* `Event`, `handle`, `run`: the calls and their runs;
* `answer?`: what a request to send is answered;
* `Step`, `step_handle`: what an event does;
* `Admissible`: a run whose sends have identities of their own and find a free reference.
-/

namespace ShortMessage.Dispatcher

variable {σ : Type}

/-- What all requests to send have in common. -/
structure Sending where
  now : Int
  message : MessageId
  sentTokens : List Token
  deliveredTokens : List Token

/-- All tokens that a send brings. -/
def Sending.tokens (s : Sending) : List Token :=
  s.sentTokens ++ s.deliveredTokens

/-- A call on a dispatcher, or a change of its surroundings. -/
inductive Event (σ : Type)
  | send (now : Int) (message : MessageId) (request : SendRequest)
  | sendMultimedia (now : Int) (message : MessageId) (pdu : Octets) (locationUrl : Option String)
      (sentToken : Option Token)
  | sendStoredText (now : Int) (message : MessageId) (name : String)
      (serviceCentre : Option String) (sentTokens deliveredTokens : List Token)
  | sendStoredMultimedia (now : Int) (message : MessageId) (name : String)
      (sentToken : Option Token)
  | report (kind : Kind) (ref : MessageRef) (success : Bool)
  | callBack (callback : Callback) (signal : Signal)
  | sweep (now : Int)
  | surroundings (radio : σ) (card : Card) (archive : Option Archive)

/-- The send that an event asks for. -/
def Event.sending? : Event σ → Option Sending
  | .send now message r => some ⟨now, message, r.sentTokens, r.deliveredTokens⟩
  | .sendMultimedia now message _ _ sentToken => some ⟨now, message, sentToken.toList, []⟩
  | .sendStoredText now message _ _ sentTokens deliveredTokens =>
    some ⟨now, message, sentTokens, deliveredTokens⟩
  | .sendStoredMultimedia now message _ sentToken => some ⟨now, message, sentToken.toList, []⟩
  | .report .. | .callBack .. | .sweep .. | .surroundings .. => none

/-- What a request sends. -/
def Event.kind? : Event σ → Option Kind
  | .send .. | .sendStoredText .. => some .sms
  | .sendMultimedia .. | .sendStoredMultimedia .. => some .mms
  | .report .. | .callBack .. | .sweep .. | .surroundings .. => none

/-- The requests to send of a run, in their order. -/
def sendings (es : List (Event σ)) : List Sending :=
  es.filterMap Event.sending?

/-- The identities that a run uses. -/
def messages (es : List (Event σ)) : List MessageId :=
  (sendings es).map Sending.message

theorem messages_append (es fs : List (Event σ)) :
    messages (es ++ fs) = messages es ++ messages fs := by
  unfold messages sendings
  rw [List.filterMap_append, List.map_append]

theorem mem_messages {es : List (Event σ)} {e : Event σ} {s : Sending} (he : e ∈ es)
    (hs : e.sending? = some s) : s.message ∈ messages es :=
  List.mem_map.2 ⟨s, List.mem_filterMap.2 ⟨e, he, hs⟩, rfl⟩

section Run

variable [Radio σ]

/-- What one event makes of a dispatcher. -/
def handle (d : Dispatcher σ) : Event σ → Dispatcher σ
  | .send now message r => (d.send now message r).2
  | .sendMultimedia now message pdu locationUrl sentToken =>
    (d.sendMultimedia now message pdu locationUrl sentToken).2
  | .sendStoredText now message name serviceCentre sentTokens deliveredTokens =>
    (d.sendStoredText now message name serviceCentre sentTokens deliveredTokens).2
  | .sendStoredMultimedia now message name sentToken =>
    (d.sendStoredMultimedia now message name sentToken).2
  | .report kind ref success => d.report kind ref success
  | .callBack callback signal => d.callBack callback signal
  | .sweep now => (d.sweep now).2
  | .surroundings radio card archive => { d with radio, card, archive }

/-- What a request to send is answered. -/
def answer? (d : Dispatcher σ) : Event σ → Option (Except Failure Receipt)
  | .send now message r => some (d.send now message r).1
  | .sendMultimedia now message pdu locationUrl sentToken =>
    some (d.sendMultimedia now message pdu locationUrl sentToken).1
  | .sendStoredText now message name serviceCentre sentTokens deliveredTokens =>
    some (d.sendStoredText now message name serviceCentre sentTokens deliveredTokens).1
  | .sendStoredMultimedia now message name sentToken =>
    some (d.sendStoredMultimedia now message name sentToken).1
  | .report .. | .callBack .. | .sweep .. | .surroundings .. => none

/-- A dispatcher after a list of events. -/
def run (d : Dispatcher σ) (es : List (Event σ)) : Dispatcher σ :=
  es.foldl handle d

variable {d : Dispatcher σ}

@[simp] theorem run_nil (d : Dispatcher σ) : d.run [] = d := rfl

theorem run_append (d : Dispatcher σ) (es fs : List (Event σ)) :
    d.run (es ++ fs) = (d.run es).run fs :=
  List.foldl_append

theorem run_concat (d : Dispatcher σ) (es : List (Event σ)) (e : Event σ) :
    d.run (es ++ [e]) = (d.run es).handle e :=
  run_append d es [e]

/-! ### What an event does -/

/-- **What an event does**: a request is refused or launched, and answered so; a report is ignored
or decides about the entry that waits for it; a signal, a sweep or a change of the surroundings is
what it says. -/
inductive Step (d : Dispatcher σ) : Event σ → Dispatcher σ → Prop
  | refused {e : Event σ} {s : Sending} (he : e.sending? = some s)
      (hanswer : ∃ f, d.answer? e = some (.error f)) :
    Step d e (d.closeTokens s.tokens)
  | launched {e : Event σ} {s : Sending} {content : Content} (he : e.sending? = some s)
      (hc : content.Indexed) (hne : content.indices ≠ []) (hkind : e.kind? = some content.kind)
      (hanswer : d.answer? e = some (.ok
        (d.launch s.now s.message content s.sentTokens s.deliveredTokens).1)) :
    Step d e (d.launch s.now s.message content s.sentTokens s.deliveredTokens).2
  | ignored {kind : Kind} {ref : MessageRef} {success : Bool} {fallback : Fallback}
      (hno : ∀ e, d.fallback.entry? ref = some e → e.content.kind = kind →
        e.phase ≠ .awaitingReport)
      (hentries : fallback.entries = d.fallback.entries)
      (hnext : fallback.next = d.fallback.next)
      (hcounters : ∃ new, fallback.counters = d.fallback.counters ++ new ∧
        ∀ k ∈ new, k = .staleSignal .fallback) :
    Step d (.report kind ref success) { d with fallback }
  | succeeded {ref : MessageRef} {e : Fallback.Entry} (he : d.fallback.entry? ref = some e)
      (hp : e.phase = .awaitingReport) :
    Step d (.report e.content.kind ref true)
      { d with
          fallback := d.fallback.move e .concluded
          tracker := (d.tracker.settle e.message e.content.indices .success).2 }
  | failed {ref : MessageRef} {e : Fallback.Entry} {d' : Dispatcher σ}
      (he : d.fallback.entry? ref = some e) (hp : e.phase = .awaitingReport)
      (hd : d' = ({ d with fallback := d.fallback.move e .awaitingResend } : Dispatcher σ).resend
        { e with phase := .awaitingResend }) :
    Step d (.report e.content.kind ref false)
      { d' with fallback := d'.fallback.markResent ref }
  | callBack (callback : Callback) (signal : Signal) :
    Step d (.callBack callback signal) (d.callBack callback signal)
  | sweep (now : Int) : Step d (.sweep now) (d.sweep now).2
  | surroundings (radio : σ) (card : Card) (archive : Option Archive) :
    Step d (.surroundings radio card archive) { d with radio, card, archive }

theorem step_launchOr {e : Event σ} (s : Sending) (he : e.sending? = some s) {kind : Kind}
    (hkind : e.kind? = some kind) {content : Except Failure Content}
    (hanswer : d.answer? e =
      some (d.launchOr s.now s.message content s.sentTokens s.deliveredTokens).1)
    (hc : ∀ c, content = .ok c → c.Sendable kind) :
    Step d e (d.launchOr s.now s.message content s.sentTokens s.deliveredTokens).2 := by
  cases content with
  | error failure => exact .refused he ⟨failure, hanswer⟩
  | ok c =>
    obtain ⟨rfl, hne, hindexed⟩ := hc c rfl
    exact .launched he hindexed hne hkind hanswer

theorem report_succeeded {ref : MessageRef} {e : Fallback.Entry}
    (he : d.fallback.entry? ref = some e) (hp : e.phase = .awaitingReport) :
    d.report e.content.kind ref true =
      { d with
          fallback := d.fallback.move e .concluded
          tracker := (d.tracker.settle e.message e.content.indices .success).2 } := by
  unfold report
  rw [Fallback.report_of_awaiting he hp]
  rfl

theorem step_report (d : Dispatcher σ) (kind : Kind) (ref : MessageRef) (success : Bool) :
    Step d (.report kind ref success) (d.report kind ref success) := by
  rcases d.fallback.report_cases kind ref success with ⟨hno, hdec, hentries, hnext⟩ |
    ⟨e, he, rfl, hp, hrep⟩
  · have hd : d.report kind ref success =
        { d with fallback := (d.fallback.report kind ref success).2 } := by
      unfold report
      simp only [hdec]
    rw [hd]
    exact .ignored hno hentries hnext (d.fallback.counters_report kind ref success)
  · cases success with
    | true =>
      rw [report_succeeded he hp]
      exact .succeeded he hp
    | false =>
      unfold report
      rw [hrep]
      exact .failed he hp rfl

theorem step_handle (d : Dispatcher σ) (e : Event σ) : Step d e (d.handle e) := by
  cases e with
  | send now message r =>
    exact step_launchOr ⟨now, message, r.sentTokens, r.deliveredTokens⟩ rfl rfl rfl
      fun _ => sendable_content
  | sendMultimedia now message pdu locationUrl sentToken =>
    exact step_launchOr ⟨now, message, sentToken.toList, []⟩ rfl rfl rfl
      fun _ => sendable_multimediaContent
  | sendStoredText now message name serviceCentre sentTokens deliveredTokens =>
    exact step_launchOr ⟨now, message, sentTokens, deliveredTokens⟩ rfl rfl rfl
      fun _ => sendable_storedTextContent
  | sendStoredMultimedia now message name sentToken =>
    exact step_launchOr ⟨now, message, sentToken.toList, []⟩ rfl rfl rfl
      fun _ => sendable_storedMultimediaContent
  | report kind ref success => exact step_report d kind ref success
  | callBack callback signal => exact .callBack callback signal
  | sweep now => exact .sweep now
  | surroundings radio card archive => exact .surroundings radio card archive

/-! ### Admissible runs -/

/-- A dispatcher that nothing has been asked of yet. -/
def Initial (d : Dispatcher σ) : Prop :=
  ∃ limits timeout prefersIms radio card, d = new limits timeout prefersIms radio card

/-- **A run that can happen**: identities are given out once, and a send that takes the IP route
finds a free reference – the search for one would not end otherwise. -/
structure Admissible (d : Dispatcher σ) (es : List (Event σ)) : Prop where
  fresh : (messages es).Nodup
  room : ∀ pre e post, es = pre ++ e :: post → e.sending? ≠ none →
    (d.run pre).route = .ims → (d.run pre).fallback.HasRoom

theorem Admissible.of_append {es fs : List (Event σ)} (h : Admissible d (es ++ fs)) :
    Admissible d es := by
  refine ⟨?_, fun pre e post hes => h.room pre e (post ++ fs) (by rw [hes]; simp)⟩
  have := h.fresh
  rw [messages_append] at this
  exact this.of_append_left

end Run

end ShortMessage.Dispatcher
