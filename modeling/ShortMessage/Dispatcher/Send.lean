import ShortMessage.Dispatcher.State

/-!
# Sending

A message is checked, cut into parts and tracked; then every part is handed to the radio on the
selected route.  On the IP route the message is enlisted for the carrier's report first; the parts
that the radio refuses there are detached and handed to the circuit domain instead, and what that
refuses too has failed.

* `SendRequest`, `Receipt`: what a sender asks and gets;
* `Dispatcher.track`, `enlist`, `offerVia`, `detach`, `failAll`: the stages of a send;
* `Dispatcher.launch`: all of them, for a content of either kind;
* `Dispatcher.send`, `sendMultimedia`, `sendStoredText`, `sendStoredMultimedia`.
-/

namespace ShortMessage

/-- A request to send a text or a datum. -/
structure SendRequest where
  destination : String
  serviceCentre : Option String
  payload : Payload
  /-- The last one learns how the whole send ended. -/
  sentTokens : List Token
  /-- One for each part that the sender wants to hear of. -/
  deliveredTokens : List Token

namespace SendRequest

/-- A request names a destination and has something to send. -/
def check (r : SendRequest) : Except Failure Unit :=
  if r.destination.toList.isEmpty then .error (.invalidArgument .noDestination)
  else if r.payload.isEmpty then .error (.invalidArgument .noContent)
  else .ok ()

/-- All tokens of a request, which a refusal closes. -/
def tokens (r : SendRequest) : List Token :=
  r.sentTokens ++ r.deliveredTokens

/-- The content of a request, cut into parts. -/
def content (r : SendRequest) (limits : SegmentLimits) : Except Failure Content := do
  r.check
  let parts ← limits.segment r.payload
  pure (.sms r.destination r.serviceCentre parts)

end SendRequest

/-- **What a sender gets**: the hand-overs are made, the results come later. -/
structure Receipt where
  message : MessageId
  partCount : Nat
  route : Route
  ref : Option MessageRef
  time : Timestamp
deriving DecidableEq

namespace Dispatcher

variable {σ : Type}

/-! ### The stages -/

/-- Opens a tracking context for a content. -/
def track (d : Dispatcher σ) (now : Int) (message : MessageId) (content : Content)
    (sentTokens deliveredTokens : List Token) : Dispatcher σ :=
  { d with
      tracker := d.tracker.register now message content.indices.length sentTokens
        deliveredTokens }

/-- Registers a content for the carrier's report. -/
def enlist (d : Dispatcher σ) (message : MessageId) (content : Content) :
    MessageRef × Dispatcher σ :=
  let (ref, fallback) := d.fallback.register message content
  (ref, { d with fallback })

/-- Takes refused pieces out of what the carrier will report on. -/
def detach (d : Dispatcher σ) (ref : MessageRef) (refused : List Cargo) : Dispatcher σ :=
  { d with fallback := (d.fallback.detach ref (refused.map Cargo.index)).2 }

variable [Radio σ]

/-- Hands pieces over by a route; answers those that were refused. -/
def offerVia (d : Dispatcher σ) (route : Route) (message : MessageId) (ref : Option MessageRef)
    (cargos : List Cargo) : List Cargo × Dispatcher σ :=
  d.offerAll (Cargo.via route message ref) cargos

/-- Hands pieces to the circuit domain; those that it refuses have failed. -/
def offerCircuit (d : Dispatcher σ) (message : MessageId) (cargos : List Cargo) : Dispatcher σ :=
  let (refused, d) := d.offerVia .circuit message none cargos
  d.failAll message refused

/-- Sends pieces that the IP route refused by the circuit domain instead. -/
def reroute (d : Dispatcher σ) (message : MessageId) (ref : MessageRef) (refused : List Cargo) :
    Dispatcher σ :=
  if refused.isEmpty then d
  else (d.detach ref refused).offerCircuit message refused

/-- **A send**, from tracking to the last hand-over. -/
def launch (d : Dispatcher σ) (now : Int) (message : MessageId) (content : Content)
    (sentTokens deliveredTokens : List Token) : Receipt × Dispatcher σ :=
  let route := d.route
  let receipt (ref : Option MessageRef) : Receipt :=
    { message, partCount := content.indices.length, route, ref, time := .ofSeconds now }
  let d := d.track now message content sentTokens deliveredTokens
  match route with
  | .circuit => (receipt none, d.offerCircuit message content.cargos)
  | .ims =>
    let (ref, d) := d.enlist message content
    let (refused, d) := d.offerVia .ims message (some ref) content.cargos
    (receipt (some ref), d.reroute message ref refused)

/-! ### The requests -/

/-- Goes on with a content, or closes the tokens and fails. -/
def launchOr (d : Dispatcher σ) (now : Int) (message : MessageId)
    (content : Except Failure Content) (sentTokens deliveredTokens : List Token) :
    Except Failure Receipt × Dispatcher σ :=
  match content with
  | .error e => (.error e, d.closeTokens (sentTokens ++ deliveredTokens))
  | .ok content =>
    let (receipt, d) := d.launch now message content sentTokens deliveredTokens
    (.ok receipt, d)

/-- **Sends a text or a datum** under a new identity. -/
def send (d : Dispatcher σ) (now : Int) (message : MessageId) (r : SendRequest) :
    Except Failure Receipt × Dispatcher σ :=
  d.launchOr now message (r.content d.limits) r.sentTokens r.deliveredTokens

/-- The content of a multimedia message, if there is any. -/
def multimediaContent (pdu : Octets) (locationUrl : Option String) : Except Failure Content :=
  if pdu.isEmpty then .error (.invalidArgument .noMultimediaPdu)
  else .ok (.mms pdu locationUrl)

/-- **Sends a multimedia message** whole. -/
def sendMultimedia (d : Dispatcher σ) (now : Int) (message : MessageId) (pdu : Octets)
    (locationUrl : Option String) (sentToken : Option Token) :
    Except Failure Receipt × Dispatcher σ :=
  d.launchOr now message (multimediaContent pdu locationUrl) sentToken.toList []

/-! ### Sending from the archive -/

/-- The archive, if a message is named and there is an archive to look it up in. -/
def namedIn (d : Dispatcher σ) (name : String) : Except Failure Archive :=
  if name.toList.isEmpty then .error (.invalidArgument .noMessageName)
  else
    match d.archive with
    | none => .error (.unavailable .archive)
    | some a => .ok a

/-- A text of the archive, checked and cut as if it had just been given. -/
def storedTextContent (d : Dispatcher σ) (name : String) (serviceCentre : Option String) :
    Except Failure Content := do
  let a ← d.namedIn name
  match a.text? name with
  | none => .error (.invalidArgument (.noStoredText name))
  | some t =>
    let request : SendRequest := ⟨t.destination, serviceCentre, .text t.body, [], []⟩
    request.content d.limits

/-- A multimedia message of the archive. -/
def storedMultimediaContent (d : Dispatcher σ) (name : String) : Except Failure Content := do
  let a ← d.namedIn name
  match a.multimedia? name with
  | none => .error (.invalidArgument (.noStoredMultimedia name))
  | some m => multimediaContent m.pdu m.locationUrl

/-- **Sends a text from the archive.** -/
def sendStoredText (d : Dispatcher σ) (now : Int) (message : MessageId) (name : String)
    (serviceCentre : Option String) (sentTokens deliveredTokens : List Token) :
    Except Failure Receipt × Dispatcher σ :=
  d.launchOr now message (d.storedTextContent name serviceCentre) sentTokens deliveredTokens

/-- **Sends a multimedia message from the archive.** -/
def sendStoredMultimedia (d : Dispatcher σ) (now : Int) (message : MessageId) (name : String)
    (sentToken : Option Token) : Except Failure Receipt × Dispatcher σ :=
  d.launchOr now message (d.storedMultimediaContent name) sentToken.toList []

end Dispatcher

end ShortMessage
