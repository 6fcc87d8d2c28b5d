import ShortMessage.Dispatcher.State

/-!
# Receiving

* `Dispatcher.inject`: a PDU is treated as if the radio had received it;
* `Dispatcher.setBroadcast`: the ranges of cell broadcasts that the radio listens to.
-/

namespace ShortMessage

namespace Dispatcher

variable {σ : Type} [Radio σ]

/-- What an injection asks of its format and PDU. -/
def checkInjection (pdu : Octets) (format : String) : Except Failure PduFormat := do
  let format ← PduFormat.ofText format
  if pdu.isEmpty then .error (.invalidArgument .noPdu) else pure format

/-- **Injects a PDU**; says whether the radio took it. -/
def inject (d : Dispatcher σ) (pdu : Octets) (format : String) (token : Option Token) :
    Except Failure Bool × Dispatcher σ :=
  match checkInjection pdu format with
  | .error e => (.error e, d.closeTokens token.toList)
  | .ok format =>
    let (intake, radio) := Radio.inject d.radio pdu format token
    let d := { d with radio }
    match intake with
    | .refused => (.ok false, d.closeTokens token.toList)
    | .held => (.ok true, d)
    | .confirmed =>
      (.ok true, { d with resolved := d.resolved ++ token.toList.map (Token.fire .success) })

/-- **Listens to a range of cell broadcasts**, or stops; says whether the radio does so. -/
def setBroadcast (d : Dispatcher σ) (first last : UInt16) (enabled : Bool) :
    Except Failure Bool × Dispatcher σ :=
  if last < first then (.error (.invalidArgument (.invertedRange first.toNat last.toNat)), d)
  else
    let (accepted, radio) := Radio.setBroadcast d.radio first last enabled
    (.ok accepted, { d with radio })

end Dispatcher

end ShortMessage
