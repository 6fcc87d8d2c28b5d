import ShortMessage.Archive
import ShortMessage.Card
import ShortMessage.Fallback
import ShortMessage.Radio
import ShortMessage.Segment
import ShortMessage.Tracker

/-!
# The dispatcher

A dispatcher joins a radio, a card and perhaps an archive with a tracker and a fallback registry.

* `Dispatcher`: all of that, and what was handed over, resolved and counted so far;
* `Dispatcher.offer`, `offerAll`: hand-overs to the radio, and what it refused;
* `Dispatcher.callBack`, `sweep`: what comes back from outside.
-/

namespace ShortMessage

/-- **A dispatcher** over a radio of type `σ`. -/
structure Dispatcher (σ : Type) where
  limits : SegmentLimits
  /-- Whether the IP route is taken when it is there. -/
  prefersIms : Bool
  radio : σ
  card : Card
  archive : Option Archive
  tracker : Tracker
  fallback : Fallback
  /-- Every hand-over to the radio, oldest first. -/
  attempts : List Attempt
  /-- What became of tokens that never reached the tracker. -/
  resolved : List TokenEvent
  counted : List Counter

namespace Dispatcher

variable {σ : Type}

/-- A dispatcher that has done nothing yet; it has no archive. -/
def new (limits : SegmentLimits) (timeout : Nat) (prefersIms : Bool) (radio : σ) (card : Card) :
    Dispatcher σ :=
  { limits
    prefersIms
    radio
    card
    archive := none
    tracker := .new timeout
    fallback := .new
    attempts := []
    resolved := []
    counted := [] }

/-- The dispatcher with an archive. -/
def withArchive (d : Dispatcher σ) (a : Archive) : Dispatcher σ :=
  { d with archive := some a }

/-- What became of all tokens so far. -/
def outcomes (d : Dispatcher σ) : List TokenEvent :=
  d.tracker.outcomes ++ d.resolved

/-- All that was counted so far. -/
def counters (d : Dispatcher σ) : List Counter :=
  d.tracker.counters ++ d.fallback.counters ++ d.counted

/-- Counts one event. -/
def count (d : Dispatcher σ) (c : Counter) : Dispatcher σ :=
  { d with counted := d.counted ++ [c] }

/-- The hand-overs that the radio took, oldest first. -/
def taken (d : Dispatcher σ) : List HandOver :=
  (d.attempts.filter Attempt.accepted).map Attempt.handOver

/-- Closes tokens that a failed operation was given. -/
def closeTokens (d : Dispatcher σ) (tokens : List Token) : Dispatcher σ :=
  { d with resolved := d.resolved ++ tokens.map Token.close }

/-- **A signal from the radio** about a hand-over. -/
def callBack (d : Dispatcher σ) (b : Callback) (s : Signal) : Dispatcher σ :=
  { d with tracker := d.tracker.callBack b s }

/-- Ends parts that no route took. -/
def failAll (d : Dispatcher σ) (message : MessageId) (cargos : List Cargo) : Dispatcher σ :=
  { d with
      tracker := cargos.foldl (fun t c => t.signal message c.index (.sent .genericFailure))
        d.tracker }

/-- **Sweeps** the tracker, and then the fallback entries whose message is gone; says how many
messages were too old. -/
def sweep (d : Dispatcher σ) (now : Int) : Nat × Dispatcher σ :=
  let (expired, tracker) := d.tracker.sweep now
  (expired.length, { d with tracker, fallback := (d.fallback.retire tracker.isLive).2 })

variable [Radio σ]

/-- The route that a message takes. -/
def route (d : Dispatcher σ) : Route :=
  if d.prefersIms && Radio.imsAvailable d.radio then .ims else .circuit

/-- **Hands one piece over**; says whether the radio took it.  What the radio calls back at once is
heard before the call ends. -/
def offer (d : Dispatcher σ) (h : HandOver) : Bool × Dispatcher σ :=
  let (verdict, radio) := Radio.offer d.radio h
  let attempted (accepted : Bool) : Dispatcher σ :=
    { d with radio, attempts := d.attempts ++ [⟨h, accepted⟩] }
  match verdict with
  | .refused => (false, attempted false)
  | .accepted echo =>
    (true,
      echo.foldl (fun d s => d.callBack h.callback s)
        ((attempted true).count (.partDispatched h.route)))

/-- Hands a list of pieces over, in its order; answers those that the radio refused. -/
def offerAll (d : Dispatcher σ) (toHandOver : Cargo → HandOver) :
    List Cargo → List Cargo × Dispatcher σ
  | [] => ([], d)
  | c :: cs =>
    let (accepted, d) := d.offer (toHandOver c)
    let (refused, d) := offerAll d toHandOver cs
    (if accepted then refused else c :: refused, d)

end Dispatcher

/-- A piece on its way by a route. -/
def Cargo.via (route : Route) (message : MessageId) (ref : Option MessageRef) (c : Cargo) :
    HandOver :=
  { cargo := c, route, ref, callback := .via route message c.index }

/-- The pieces of a content. -/
def Content.cargos : Content → List Cargo
  | .sms destination serviceCentre parts => parts.map (.part · destination serviceCentre)
  | .mms pdu locationUrl => [.multimedia pdu locationUrl]

end ShortMessage
