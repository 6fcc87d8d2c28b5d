import ShortMessage.Archive
import ShortMessage.Card
import ShortMessage.Json.Form
import ShortMessage.Json.Message

/-!
# JSON forms of what is stored

The forms of card records and card settings, and of the messages of the archive.
-/

namespace ShortMessage

open JsonForm

/-! ### Cards -/

/-- The statuses by name. -/
def RecordStatus.spelling : Spelling RecordStatus where
  values := [.free, .read, .unread, .sent, .unsent]
  name
    | .free => "Free"
    | .read => "Read"
    | .unread => "Unread"
    | .sent => "Sent"
    | .unsent => "Unsent"

instance : JsonForm RecordStatus := RecordStatus.spelling.form

instance : JsonForm CardRecord where
  write r :=
    .object [("index", write r.index), ("status", write r.status), ("data", write r.data)]
  read? j := do
    match ← j.row? ["index", "status", "data"] 3 with
    | [index, status, data] => pure ⟨← read? index, ← read? status, ← read? data⟩
    | _ => none

/-- The backends by the names that settings have for them. -/
def CardBackend.spelling : Spelling CardBackend where
  values := [.memory, .sqlite]
  name := CardBackend.text

instance : JsonForm CardBackend := CardBackend.spelling.form

/-- The place of the table is written only if there is one. -/
instance : JsonForm CardSettings where
  write s :=
    .object <|
      [("backend", write s.backend), ("capacity", write s.capacity),
        ("record_size", write s.recordSize)] ++
      s.databaseUrl.toList.map fun url => ("database_url", write url)
  read? j := do
    match ← j.row? ["backend", "capacity", "record_size", "database_url"] 3 with
    | [backend, capacity, recordSize, databaseUrl] =>
      pure ⟨← read? backend, ← read? capacity, ← read? recordSize, ← read? databaseUrl⟩
    | _ => none

/-! ### The archive -/

instance : JsonForm StoredText where
  write t := .object [("destination", write t.destination), ("body", write t.body)]
  read? j := do
    match ← j.row? ["destination", "body"] 2 with
    | [destination, body] => pure ⟨← read? destination, ← read? body⟩
    | _ => none

instance : JsonForm StoredMultimedia where
  write m := .object [("pdu", write m.pdu), ("location_url", write m.locationUrl)]
  read? j := do
    match ← j.row? ["pdu", "location_url"] 2 with
    | [pdu, locationUrl] => pure ⟨← read? pdu, ← read? locationUrl⟩
    | _ => none

/-- The directions by name. -/
def Direction.spelling : Spelling Direction where
  values := [.incoming, .outgoing]
  name
    | .incoming => "Incoming"
    | .outgoing => "Outgoing"

instance : JsonForm Direction := Direction.spelling.form

instance : JsonForm ImportedText where
  write m :=
    .object [("address", write m.address), ("direction", write m.direction),
      ("body", write m.body), ("timestamp", write m.time), ("seen", write m.seen),
      ("read", write m.read)]
  read? j := do
    match ← j.row? ["address", "direction", "body", "timestamp", "seen", "read"] 6 with
    | [address, direction, body, time, seen, isRead] =>
      pure ⟨← read? address, ← read? direction, ← read? body, ← read? time, ← read? seen,
        ← read? isRead⟩
    | _ => none

instance : JsonForm ImportedMultimedia where
  write m :=
    .object [("pdu", write m.pdu), ("message_id", write m.name), ("timestamp", write m.time),
      ("seen", write m.seen), ("read", write m.read)]
  read? j := do
    match ← j.row? ["pdu", "message_id", "timestamp", "seen", "read"] 5 with
    | [pdu, name, time, seen, isRead] =>
      pure ⟨← read? pdu, ← read? name, ← read? time, ← read? seen, ← read? isRead⟩
    | _ => none

instance : JsonForm Flags where
  write f :=
    .object [("seen", write f.seen), ("read", write f.read), ("archived", write f.archived)]
  read? j := do
    match ← j.row? ["seen", "read", "archived"] 3 with
    | [seen, isRead, archived] => pure ⟨← read? seen, ← read? isRead, ← read? archived⟩
    | _ => none

end ShortMessage
