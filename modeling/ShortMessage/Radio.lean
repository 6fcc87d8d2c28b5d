import ShortMessage.Token

/-!
# Radios

A radio takes parts and multimedia messages and sends them, now or later.  What the rest of the
library needs to know of one is the class `Radio`; every operation answers at once and may change
the radio.

* `Cargo`, `HandOver`: what a radio is asked to send;
* `Verdict`: a refusal, or an acceptance with the signals that come back before the call ends;
* `Intake`: what becomes of a received PDU and of the token that waits for it;
* `Attempt`: a hand-over and its verdict, for the record.
-/

namespace ShortMessage

/-- What a radio sends in one piece. -/
inductive Cargo
  | part (part : Part) (destination : String) (serviceCentre : Option String)
  | multimedia (pdu : Octets) (locationUrl : Option String)
deriving DecidableEq

/-- The index of a cargo in its message; a multimedia message is the one part 0. -/
def Cargo.index : Cargo → Nat
  | .part p _ _ => p.index
  | .multimedia .. => 0

/-- One piece for the radio, the way it is to take, and whom to call back. -/
structure HandOver where
  cargo : Cargo
  route : Route
  /-- The reference under which a carrier will report; only on the IP route. -/
  ref : Option MessageRef
  callback : Callback
deriving DecidableEq

/-- The message that a hand-over belongs to, as the radio will name it. -/
def HandOver.message (h : HandOver) : MessageId :=
  h.callback.message

/-- The part that a hand-over is about, as the radio will name it. -/
def HandOver.index (h : HandOver) : Nat :=
  h.callback.index

/-- A refusal, or an acceptance with what is called back before the call ends. -/
inductive Verdict
  | refused
  | accepted (echo : List Signal)
deriving DecidableEq

/-- What becomes of a received PDU: nobody takes it, it waits for someone to confirm it, or it is
confirmed at once. -/
inductive Intake
  | refused
  | held
  | confirmed
deriving DecidableEq

/-- **A radio.** -/
class Radio (σ : Type) where
  /-- Is the IP route there? -/
  imsAvailable : σ → Bool
  offer : σ → HandOver → Verdict × σ
  /-- Passes a PDU on as if it had been received. -/
  inject : σ → Octets → PduFormat → Option Token → Intake × σ
  /-- Listens, or stops listening, to a range of cell broadcasts. -/
  setBroadcast : σ → UInt16 → UInt16 → Bool → Bool × σ

/-- A hand-over and whether the radio took it. -/
structure Attempt where
  handOver : HandOver
  accepted : Bool
deriving DecidableEq

end ShortMessage
