import ShortMessage.Failure
import ShortMessage.Octets

/-!
# The nouns of a message

Small values that messages, radios and carriers speak of.

* `SendResult`: how the sending of one part ended;
* `Route`, `Kind`, `PduFormat`, `Encoding`: closed lists of names;
* `MessageId`: the identity of one send;
* `MessageRef`: the number a carrier uses to report on a message;
* `Part`: one radio part of a message, and `Progress`: how far it has come.
-/

namespace ShortMessage

/-- How the sending of a part ended.  `timeout` is what a tracker says of a part it gave up on. -/
inductive SendResult
  | success
  | genericFailure
  | radioOff
  | nullPdu
  | noService
  | limitExceeded
  | fdnCheckFailure
  | timeout
deriving DecidableEq

namespace SendResult

/-- The number of a result at the radio; a timeout counts as a generic failure there. -/
def code : SendResult → Int
  | .success => 0
  | .genericFailure | .timeout => 1
  | .radioOff => 2
  | .nullPdu => 3
  | .noService => 4
  | .limitExceeded => 5
  | .fdnCheckFailure => 6

/-- The result of a number at the radio; `timeout` has no number of its own. -/
def ofCode (code : Int) : Except Failure SendResult :=
  match code with
  | 0 => .ok .success
  | 1 => .ok .genericFailure
  | 2 => .ok .radioOff
  | 3 => .ok .nullPdu
  | 4 => .ok .noService
  | 5 => .ok .limitExceeded
  | 6 => .ok .fdnCheckFailure
  | _ => .error (.invalidArgument (.unknownResult code))

/-- Every other result is a failure. -/
def isSuccess (r : SendResult) : Bool :=
  r = .success

/-- The result as it is shown. -/
def text : SendResult → String
  | .success => "success"
  | .genericFailure => "generic_failure"
  | .radioOff => "radio_off"
  | .nullPdu => "null_pdu"
  | .noService => "no_service"
  | .limitExceeded => "limit_exceeded"
  | .fdnCheckFailure => "fdn_check_failure"
  | .timeout => "timeout"

end SendResult

/-- The two ways to the network: over IP, or over the circuit domain. -/
inductive Route
  | ims
  | circuit
deriving DecidableEq

/-- The route as it is shown. -/
def Route.text : Route → String
  | .ims => "ims"
  | .circuit => "circuit"

/-- What is sent: a short message or a multimedia message. -/
inductive Kind
  | sms
  | mms
deriving DecidableEq

/-- The kind as counters name it. -/
def Kind.text : Kind → String
  | .sms => "sms"
  | .mms => "mms"

/-- The formats of a received PDU. -/
inductive PduFormat
  | threeGpp
  | threeGpp2
deriving DecidableEq

/-- The format as radios name it. -/
def PduFormat.text : PduFormat → String
  | .threeGpp => "3gpp"
  | .threeGpp2 => "3gpp2"

/-- The format of a name, which must be exactly one of the two. -/
def PduFormat.ofText (name : String) : Except Failure PduFormat :=
  if name = "3gpp" then .ok .threeGpp
  else if name = "3gpp2" then .ok .threeGpp2
  else .error (.invalidArgument (.unknownFormat name))

/-- How the payload of a part spells its content; a whole message shares one. -/
inductive Encoding
  | gsm7
  | ucs2
  | binary
deriving DecidableEq

/-- The identity of one send: a universally unique number. -/
structure MessageId where
  number : BitVec 128
deriving DecidableEq

/-- The reference number of a message on the IP route. -/
structure MessageRef where
  number : Int32
deriving DecidableEq

/-- The reference as it is shown. -/
def MessageRef.text (r : MessageRef) : String :=
  toString r.number.toInt

/-- **A part** of a message, the unit that a radio sends. -/
structure Part where
  index : Nat
  total : Nat
  encoding : Encoding
  /-- The text of the part; binary data has none. -/
  text : Option String
  /-- One octet for each septet, two for each wide unit, or the data. -/
  payload : Octets
  port : Option UInt16
deriving DecidableEq

/-- The part is one of several, so it carries a header that numbers it. -/
def Part.isMultipart (p : Part) : Bool :=
  1 < p.total

/-- How far a part has come. -/
inductive Progress
  | pending
  | sent
  | failed (result : SendResult)
  | delivered
deriving DecidableEq

namespace Progress

/-- A settled part has a send result. -/
def isSettled (p : Progress) : Bool :=
  p ≠ .pending

/-- The send result of a part, once it is settled; a delivered part was sent. -/
def sendResult? : Progress → Option SendResult
  | .pending => none
  | .sent | .delivered => some .success
  | .failed result => some result

/-- Where a pending part goes when its send result comes in. -/
def ofResult (r : SendResult) : Progress :=
  if r.isSuccess then .sent else .failed r

/-- The progress as it is shown. -/
def text : Progress → String
  | .pending => "pending"
  | .sent => "sent"
  | .failed result => "failed:" ++ result.text
  | .delivered => "delivered"

end Progress

end ShortMessage
