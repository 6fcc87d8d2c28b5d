import ShortMessage.Meter
import ShortMessage.Registry
import ShortMessage.Token

/-!
# Tracking the parts of a message

A tracker opens a context for every send and follows its parts.  Signals come in any order, more
than once and too late.  When every part has a send result the sent token is fired once, with the
failure of the lowest failed part or with success; a part that is delivered fires its own token.  A
context retires when it has nothing left to wait for, or when a sweep finds it too old.

* `Tracker.Context`: the parts of one send and the tokens it still holds;
* `Tracker.register`, `signal`, `settle`, `sweep`: the operations;
* `Tracker.Context.signal`, `takeAggregate`, `isRetirable`: what a context decides by itself;
* `Tracker.outcomes`, `counters`: what the operations did so far, oldest first.
-/

namespace ShortMessage

/-- The parts of one send and the tokens it still holds. -/
structure Tracker.Context where
  /-- When the send began, in seconds. -/
  openedAt : Int
  parts : List Progress
  sentToken : Option Token
  /-- The token of each part, as long as it is held. -/
  deliveredTokens : List (Option Token)
  /-- Whether the result of the whole send has been reported. -/
  reported : Bool
deriving DecidableEq

namespace Tracker.Context

/-- A new context: every part is pending, and the last sent token counts. -/
def opened (now : Int) (partCount : Nat) (sentTokens deliveredTokens : List Token) : Context :=
  { openedAt := now
    parts := List.replicate partCount .pending
    sentToken := sentTokens.getLast?
    deliveredTokens :=
      (deliveredTokens.take partCount).map some ++
        List.replicate (partCount - deliveredTokens.length) none
    reported := false }

/-- The tokens that a context holds. -/
def held (c : Context) : List Token :=
  c.sentToken.toList ++ c.deliveredTokens.filterMap id

/-- The result of the whole send: that of the lowest failed part, or success. -/
def aggregate (c : Context) : SendResult :=
  (c.parts.findSome? fun
    | .failed result => some result
    | _ => none).getD .success

/-- Every part has a send result. -/
def allSettled (c : Context) : Bool :=
  c.parts.all Progress.isSettled

/-- Does a part still wait for something?  A sent part waits for its delivery if a token asks for
it. -/
def awaits : Progress → Option Token → Bool
  | .pending, _ => true
  | .sent, token => token.isSome
  | .failed _, _ | .delivered, _ => false

/-- A context that has reported and whose parts wait for nothing. -/
def isRetirable (c : Context) : Bool :=
  c.reported &&
    (c.parts.mapIdx fun i p => awaits p (c.deliveredTokens[i]?).join).all (!·)

/-- A signal about the part at `index`, with the delivered token that it releases. -/
def signal (c : Context) (index : Nat) : Signal → Context × Option Token
  | .sent result =>
    if c.parts[index]? = some .pending then
      ({ c with parts := c.parts.set index (.ofResult result) }, none)
    else (c, none)
  | .delivered =>
    if c.parts[index]? = some .pending ∨ c.parts[index]? = some .sent then
      ({ c with
          parts := c.parts.set index .delivered
          deliveredTokens := c.deliveredTokens.set index none },
        (c.deliveredTokens[index]?).join)
    else (c, none)

/-- Gives the listed parts a send result if they are still pending. -/
def settle (c : Context) (indices : List Nat) (result : SendResult) : Context :=
  { c with
      parts := c.parts.mapIdx fun i p =>
        if p = .pending ∧ i ∈ indices then .ofResult result else p }

/-- Reports the whole send once all its parts are settled; the second component says with which
result. -/
def takeAggregate (c : Context) : Context × Option SendResult :=
  if c.reported || !c.allSettled then (c, none)
  else ({ c with reported := true, sentToken := none }, some c.aggregate)

/-- How long a context has been open; a clock that runs backwards counts for nothing. -/
def age (c : Context) (now : Int) : Nat :=
  (now - c.openedAt).toNat

/-- What a sweep does with the tokens of a context that it retires. -/
def timeOut (c : Context) : List TokenEvent :=
  (if c.reported then [] else c.sentToken.toList.map (Token.fire .timeout)) ++
    (c.deliveredTokens.filterMap id).map (Token.fire .timeout)

end Tracker.Context

/-- **A tracker**: the live contexts, and what became of tokens and signals so far. -/
structure Tracker where
  /-- The age, in seconds, at which a sweep retires a context. -/
  timeout : Nat
  contexts : Registry MessageId Tracker.Context
  outcomes : List TokenEvent
  counters : List Counter

namespace Tracker

/-- A tracker that has seen nothing. -/
def new (timeout : Nat) : Tracker :=
  ⟨timeout, .empty, [], []⟩

/-- The context of a message, while it is live. -/
def context? (t : Tracker) (id : MessageId) : Option Context :=
  t.contexts.get? id

/-- How far the parts of a live message have come. -/
def parts? (t : Tracker) (id : MessageId) : Option (List Progress) :=
  (t.context? id).map Context.parts

/-- A message is live as long as it is tracked. -/
def isLive (t : Tracker) (id : MessageId) : Bool :=
  t.contexts.contains id

/-- Raises a counter. -/
def count (t : Tracker) (counter : Counter) : Tracker :=
  { t with counters := t.counters ++ [counter] }

/-- Takes down what becomes of tokens. -/
def resolve (t : Tracker) (events : List TokenEvent) : Tracker :=
  { t with outcomes := t.outcomes ++ events }

/-- The tokens that no context will hold: all sent tokens but the last, and the delivered tokens
beyond the last part. -/
def surplus (partCount : Nat) (sentTokens deliveredTokens : List Token) : List Token :=
  sentTokens.dropLast ++ deliveredTokens.drop partCount

/-- **Opens a context.**  Surplus tokens are closed, and so are those of a context that the new one
replaces. -/
def register (t : Tracker) (now : Int) (id : MessageId) (partCount : Nat)
    (sentTokens deliveredTokens : List Token) : Tracker :=
  let replaced := ((t.context? id).map Context.held).getD []
  let t := t.resolve ((surplus partCount sentTokens deliveredTokens ++ replaced).map Token.close)
  { t with
      contexts := t.contexts.insert id (.opened now partCount sentTokens deliveredTokens) }

/-- The end of every step on a context: a released delivered token is fired, the send is reported if
that is due, and the context is kept or retired. -/
def conclude (t : Tracker) (id : MessageId) (c : Context) (released : Option Token) : Tracker :=
  let t := t.resolve (released.toList.map (Token.fire .success))
  let (c', report) := c.takeAggregate
  let t :=
    match report with
    | none => t
    | some result =>
      (t.resolve (c.sentToken.toList.map (Token.fire result))).count (.aggregateReported result)
  if c'.isRetirable then
    { t.resolve (c'.held.map Token.close) with contexts := t.contexts.erase id }
  else { t with contexts := t.contexts.insert id c' }

/-- What a signal is called when it is too late. -/
def staleKind : Signal → StaleKind
  | .sent _ => .sent
  | .delivered => .delivered

/-- **A signal about one part**; of an unknown message or part it is stale. -/
def signal (t : Tracker) (id : MessageId) (index : Nat) (s : Signal) : Tracker :=
  match t.context? id with
  | none => t.count (.staleSignal (staleKind s))
  | some c =>
    if index < c.parts.length then
      let (c', released) := c.signal index s
      t.conclude id c' released
    else t.count (.staleSignal (staleKind s))

/-- A signal through a callback. -/
def callBack (t : Tracker) (b : Callback) (s : Signal) : Tracker :=
  if b.relays s then t.signal b.message b.index s else t

/-- **Settles the listed parts** that are still pending; says whether the message is known. -/
def settle (t : Tracker) (id : MessageId) (indices : List Nat) (result : SendResult) :
    Bool × Tracker :=
  match t.context? id with
  | none => (false, t.count (.staleSignal .settle))
  | some c => (true, t.conclude id (c.settle indices result) none)

/-- Is a context too old? -/
def isExpired (t : Tracker) (now : Int) (c : Context) : Bool :=
  t.timeout ≤ c.age now

/-- **Sweeps**: retires the contexts that are too old, in the order in which they were last touched,
and says which. -/
def sweep (t : Tracker) (now : Int) : List MessageId × Tracker :=
  let expired := t.contexts.entries.filter fun e => t.isExpired now e.2
  (expired.map (·.1),
    { t with
        contexts := t.contexts.retain fun _ c => !t.isExpired now c
        outcomes := t.outcomes ++ expired.flatMap (·.2.timeOut)
        counters := t.counters ++ expired.map fun _ => .trackingTimeout })

end Tracker

end ShortMessage
