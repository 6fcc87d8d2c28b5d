import ShortMessage.Dispatcher.Send
import ShortMessage.Json.Form
import ShortMessage.MessageId.Text
import ShortMessage.Timestamp.Text

/-!
# JSON forms of messages

The forms of the closed lists of names, of identities, references and instants, and of the records
`Part` and `Receipt`.
-/

namespace ShortMessage

open JsonForm

/-! ### Names -/

/-- The results by name. -/
def SendResult.spelling : Spelling SendResult where
  values := [.success, .genericFailure, .radioOff, .nullPdu, .noService, .limitExceeded,
    .fdnCheckFailure, .timeout]
  name
    | .success => "Success"
    | .genericFailure => "GenericFailure"
    | .radioOff => "RadioOff"
    | .nullPdu => "NullPdu"
    | .noService => "NoService"
    | .limitExceeded => "LimitExceeded"
    | .fdnCheckFailure => "FdnCheckFailure"
    | .timeout => "Timeout"

instance : JsonForm SendResult := SendResult.spelling.form

/-- The routes by name. -/
def Route.spelling : Spelling Route where
  values := [.ims, .circuit]
  name
    | .ims => "Ims"
    | .circuit => "Circuit"

instance : JsonForm Route := Route.spelling.form

/-- The kinds by name. -/
def Kind.spelling : Spelling Kind where
  values := [.sms, .mms]
  name
    | .sms => "Sms"
    | .mms => "Mms"

instance : JsonForm Kind := Kind.spelling.form

/-- The formats by name; elsewhere they go by `PduFormat.text`. -/
def PduFormat.spelling : Spelling PduFormat where
  values := [.threeGpp, .threeGpp2]
  name
    | .threeGpp => "ThreeGpp"
    | .threeGpp2 => "ThreeGpp2"

instance : JsonForm PduFormat := PduFormat.spelling.form

/-- The encodings by name. -/
def Encoding.spelling : Spelling Encoding where
  values := [.gsm7, .ucs2, .binary]
  name
    | .gsm7 => "Gsm7"
    | .ucs2 => "Ucs2"
    | .binary => "Binary"

instance : JsonForm Encoding := Encoding.spelling.form

/-- The phases by name; those before the carrier's report speak of IP. -/
def Fallback.Phase.spelling : Spelling Fallback.Phase where
  values := [.awaitingReport, .succeeded, .awaitingResend, .resentViaCircuit, .concluded]
  name
    | .awaitingReport => "AwaitingIpResult"
    | .succeeded => "IpSucceeded"
    | .awaitingResend => "IpFailedAwaitingResend"
    | .resentViaCircuit => "ResentViaCircuit"
    | .concluded => "Terminal"

instance : JsonForm Fallback.Phase := Fallback.Phase.spelling.form

/-- The names of how far a part has come; one that failed also tells its result, and so is no
name. -/
def Progress.spelling : Spelling Progress where
  values := [.pending, .sent, .delivered]
  name
    | .pending => "Pending"
    | .sent => "Sent"
    | .delivered => "Delivered"
    | .failed _ => "SendFailed"

instance : JsonForm Progress where
  write
    | .failed result => .object [("SendFailed", write result)]
    | p => Progress.spelling.write p
  read?
    | .object [("SendFailed", result)] => (read? result).map .failed
    | value => Progress.spelling.read? value

/-! ### Identities, references and instants -/

instance : JsonForm MessageId where
  write id := .text id.toText
  read?
    | .text s => MessageId.ofText? s
    | _ => none

instance : JsonForm MessageRef where
  write r := .integer r.number.toInt
  read? j := (j.integer? (-0x80000000) 0x7FFFFFFF).map fun n => ⟨Int32.ofInt n⟩

instance : JsonForm Timestamp where
  write t := .text t.toText
  read?
    | .text s => Timestamp.ofText? s
    | _ => none

/-! ### Records -/

instance : JsonForm Part where
  write p :=
    .object [("index", write p.index), ("total", write p.total), ("encoding", write p.encoding),
      ("text", write p.text), ("payload", write p.payload), ("destination_port", write p.port)]
  read? j := do
    match ← j.row? ["index", "total", "encoding", "text", "payload", "destination_port"] 6 with
    | [index, total, encoding, text, payload, port] =>
      pure ⟨← read? index, ← read? total, ← read? encoding, ← read? text, ← read? payload,
        ← read? port⟩
    | _ => none

instance : JsonForm Receipt where
  write r :=
    .object [("message_id", write r.message), ("part_count", write r.partCount),
      ("path", write r.route), ("message_ref", write r.ref), ("dispatched_at", write r.time)]
  read? j := do
    match ← j.row? ["message_id", "part_count", "path", "message_ref", "dispatched_at"] 5 with
    | [message, partCount, route, ref, time] =>
      pure ⟨← read? message, ← read? partCount, ← read? route, ← read? ref, ← read? time⟩
    | _ => none

end ShortMessage
