import ShortMessage.Json.Storage
import ShortMessage.Proofs.Json.Form
import ShortMessage.Proofs.MessageId
import ShortMessage.Proofs.Timestamp

/-!
# Every form round-trips

Each type that is written as JSON is read back, and whatever is read has one written form.  A value
fits if its counts are below two to the sixty-fourth and its instants are ones that texts stand for.

* `Part.Fits`, `Receipt.Fits`, ..: the values of records that fit;
* `Part.roundTrips`, `Receipt.roundTrips`, ..: the forms of records, from those of their fields;
* `FormsRoundTrip`, `forms_round_trip`: all forms, and the spellings that are read besides.
-/

namespace ShortMessage

open JsonForm

/-! ### Names -/

theorem SendResult.roundTrips : NamesRoundTrip SendResult :=
  spelling.namesRoundTrip fun r => by cases r <;> rfl

theorem Route.roundTrips : NamesRoundTrip Route :=
  spelling.namesRoundTrip fun r => by cases r <;> rfl

theorem Kind.roundTrips : NamesRoundTrip Kind :=
  spelling.namesRoundTrip fun k => by cases k <;> rfl

theorem PduFormat.roundTrips : NamesRoundTrip PduFormat :=
  spelling.namesRoundTrip fun f => by cases f <;> rfl

theorem Encoding.roundTrips : NamesRoundTrip Encoding :=
  spelling.namesRoundTrip fun e => by cases e <;> rfl

theorem Fallback.Phase.roundTrips : NamesRoundTrip Fallback.Phase :=
  spelling.namesRoundTrip fun p => by cases p <;> rfl

theorem RecordStatus.roundTrips : NamesRoundTrip RecordStatus :=
  spelling.namesRoundTrip fun s => by cases s <;> rfl

theorem CardBackend.roundTrips : NamesRoundTrip CardBackend :=
  spelling.namesRoundTrip fun b => by cases b <;> rfl

theorem Direction.roundTrips : NamesRoundTrip Direction :=
  spelling.namesRoundTrip fun d => by cases d <;> rfl

/-- Of a part that failed the result is told; the other ways that a part may have come are names. -/
theorem Progress.roundTrips : NamesRoundTrip Progress where
  toRoundTrips := Faithful.roundTrips {
    read_write := fun p _ => by
      cases p with
      | failed result =>
        show (read? (write result)).map Progress.failed = some (.failed result)
        rw [SendResult.roundTrips.read_write result trivial, Option.map_some]
      | _ => rfl
    fits_of_read := fun _ _ _ => trivial }
  as_object name := by
    by_cases hname : name = "SendFailed"
    · subst hname
      rfl
    · simp only [read?]
      split
      · rename_i heq
        cases heq
        exact absurd rfl hname
      · rfl

/-! ### Identities, references and instants -/

theorem MessageId.roundTrips : RoundTrips MessageId fun _ => True :=
  Faithful.roundTrips ⟨fun id _ => ofText?_toText id, fun _ _ _ => trivial⟩

theorem MessageRef.roundTrips : RoundTrips MessageRef fun _ => True := by
  refine Faithful.roundTrips ⟨fun r _ => ?_, fun _ _ _ => trivial⟩
  have hread : Json.integer? (-0x80000000) 0x7FFFFFFF (.integer r.number.toInt) =
      some r.number.toInt :=
    Json.integer?_eq_some_iff.2 ⟨rfl, r.number.le_toInt, Int.le_of_lt_add_one r.number.toInt_lt⟩
  show (Json.integer? (-0x80000000) 0x7FFFFFFF (.integer r.number.toInt)).map
    (fun n => (⟨Int32.ofInt n⟩ : MessageRef)) = some r
  rw [hread, Option.map_some, Int32.ofInt_toInt]

theorem Timestamp.roundTrips : RoundTrips Timestamp IsRegular := by
  refine Faithful.roundTrips ⟨fun t ht => ofText?_toText ht, fun value t h => ?_⟩
  cases value with
  | text s => exact isRegular_of_ofText? h
  | _ => cases h

/-! ### Fields -/

theorem faithful_octets : Faithful Octets fun _ => True :=
  (faithful_list faithful_uint8).congr fun _ => by simp

theorem faithful_optionalString : Faithful (Option String) fun _ => True :=
  (faithful_option faithful_string fun _ h => nomatch h).congr fun _ => by simp

theorem faithful_optionalPort : Faithful (Option UInt16) fun _ => True :=
  (faithful_option faithful_uint16 fun _ h => nomatch h).congr fun _ => by simp

theorem faithful_optionalFlag : Faithful (Option Bool) fun _ => True :=
  (faithful_option faithful_bool fun _ h => nomatch h).congr fun _ => by simp

theorem faithful_optionalRef : Faithful (Option MessageRef) fun _ => True :=
  (faithful_option MessageRef.roundTrips.toFaithful fun _ h => nomatch h).congr fun _ => by simp

theorem faithful_optionalTime : Faithful (Option Timestamp) fun o => ∀ t ∈ o, t.IsRegular :=
  faithful_option Timestamp.roundTrips.toFaithful fun _ h => nomatch h

/-! ### Records -/

/-- The names of the fields of a part. -/
def Part.fields : List String :=
  ["index", "total", "encoding", "text", "payload", "destination_port"]

/-- A part's numbers are 64-bit counts. -/
def Part.Fits (p : Part) : Prop :=
  p.index < 0x10000000000000000 ∧ p.total < 0x10000000000000000

theorem Part.roundTrips : RecordRoundTrips Part Fits fields 6 := by
  refine .of_row fields 6
    (fun p => [write p.index, write p.total, write p.encoding, write p.text, write p.payload,
      write p.port])
    (by decide) (fun _ => Nat.le_refl 6) (fun _ => rfl) (fun _ => rfl) ?_ ?_
  · rintro p ⟨hindex, htotal⟩
    simp [fields, faithful_nat.read_write _ hindex, faithful_nat.read_write _ htotal,
      Encoding.roundTrips.read_write p.encoding trivial,
      faithful_optionalString.read_write p.text trivial,
      faithful_octets.read_write p.payload trivial, faithful_optionalPort.read_write p.port trivial]
  · intro values p h
    split at h
    · simp only [Option.bind_eq_bind, Option.bind_eq_some_iff] at h
      obtain ⟨index, hindex, total, htotal, _, -, _, -, _, -, _, -, h⟩ := h
      cases h
      exact ⟨faithful_nat.fits_of_read _ _ hindex, faithful_nat.fits_of_read _ _ htotal⟩
    · cases h

/-- The names of the fields of a receipt. -/
def Receipt.fields : List String :=
  ["message_id", "part_count", "path", "message_ref", "dispatched_at"]

/-- A receipt's count has 64 bits, and its time can be written. -/
def Receipt.Fits (r : Receipt) : Prop :=
  r.partCount < 0x10000000000000000 ∧ r.time.IsRegular

theorem Receipt.roundTrips : RecordRoundTrips Receipt Fits fields 5 := by
  refine .of_row fields 5
    (fun r => [write r.message, write r.partCount, write r.route, write r.ref, write r.time])
    (by decide) (fun _ => Nat.le_refl 5) (fun _ => rfl) (fun _ => rfl) ?_ ?_
  · rintro r ⟨hcount, htime⟩
    simp [fields, MessageId.roundTrips.read_write r.message trivial,
      faithful_nat.read_write _ hcount, Route.roundTrips.read_write r.route trivial,
      faithful_optionalRef.read_write r.ref trivial, Timestamp.roundTrips.read_write _ htime]
  · intro values r h
    split at h
    · simp only [Option.bind_eq_bind, Option.bind_eq_some_iff] at h
      obtain ⟨_, -, count, hcount, _, -, _, -, time, htime, h⟩ := h
      cases h
      exact ⟨faithful_nat.fits_of_read _ _ hcount, Timestamp.roundTrips.fits_of_read _ _ htime⟩
    · cases h

/-- The names of the fields of a record. -/
def CardRecord.fields : List String :=
  ["index", "status", "data"]

/-- A record's index is a 64-bit count. -/
def CardRecord.Fits (r : CardRecord) : Prop :=
  r.index < 0x10000000000000000

theorem CardRecord.roundTrips : RecordRoundTrips CardRecord Fits fields 3 := by
  refine .of_row fields 3 (fun r => [write r.index, write r.status, write r.data])
    (by decide) (fun _ => Nat.le_refl 3) (fun _ => rfl) (fun _ => rfl) ?_ ?_
  · intro r hindex
    simp [fields, faithful_nat.read_write _ hindex,
      RecordStatus.roundTrips.read_write r.status trivial,
      faithful_octets.read_write r.data trivial]
  · intro values r h
    split at h
    · simp only [Option.bind_eq_bind, Option.bind_eq_some_iff] at h
      obtain ⟨index, hindex, _, -, _, -, h⟩ := h
      cases h
      exact faithful_nat.fits_of_read _ _ hindex
    · cases h

/-- The names of the fields of a card's settings. -/
def CardSettings.fields : List String :=
  ["backend", "capacity", "record_size", "database_url"]

/-- Sizes of cards are 64-bit counts. -/
def CardSettings.Fits (s : CardSettings) : Prop :=
  s.capacity < 0x10000000000000000 ∧ s.recordSize < 0x10000000000000000

/-- The place of the table is the last field, so a list may leave it out as well. -/
theorem CardSettings.roundTrips : RecordRoundTrips CardSettings Fits fields 3 := by
  refine .of_row fields 3
    (fun s => [write s.backend, write s.capacity, write s.recordSize] ++
      s.databaseUrl.toList.map write)
    (by decide) (fun s => ?_) (fun s => ?_) (fun _ => rfl) ?_ ?_
  · cases s.databaseUrl <;> simp [fields]
  · obtain ⟨_, _, _, url⟩ := s
    cases url <;> rfl
  · rintro s ⟨hcapacity, hsize⟩
    have hnone : read? Json.null = some (none : Option String) := rfl
    have hsome (url : String) : read? (write url) = some (some url) :=
      faithful_optionalString.read_write (some url) trivial
    obtain ⟨backend, capacity, recordSize, url⟩ := s
    cases url <;>
      simp [fields, faithful_nat.read_write _ hcapacity, faithful_nat.read_write _ hsize,
        CardBackend.roundTrips.read_write backend trivial, hnone, hsome]
  · intro values s h
    split at h
    · simp only [Option.bind_eq_bind, Option.bind_eq_some_iff] at h
      obtain ⟨_, -, capacity, hcapacity, size, hsize, _, -, h⟩ := h
      cases h
      exact ⟨faithful_nat.fits_of_read _ _ hcapacity, faithful_nat.fits_of_read _ _ hsize⟩
    · cases h

/-- The names of the fields of a stored text. -/
def StoredText.fields : List String :=
  ["destination", "body"]

theorem StoredText.roundTrips : RecordRoundTrips StoredText (fun _ => True) fields 2 :=
  .of_row fields 2 (fun t => [write t.destination, write t.body])
    (by decide) (fun _ => Nat.le_refl 2) (fun _ => rfl) (fun _ => rfl)
    (fun t _ => by
      simp [fields, faithful_string.read_write t.destination trivial,
        faithful_string.read_write t.body trivial])
    fun _ _ _ => trivial

/-- The names of the fields of a stored multimedia message. -/
def StoredMultimedia.fields : List String :=
  ["pdu", "location_url"]

theorem StoredMultimedia.roundTrips :
    RecordRoundTrips StoredMultimedia (fun _ => True) fields 2 :=
  .of_row fields 2 (fun m => [write m.pdu, write m.locationUrl])
    (by decide) (fun _ => Nat.le_refl 2) (fun _ => rfl) (fun _ => rfl)
    (fun m _ => by
      simp [fields, faithful_octets.read_write m.pdu trivial,
        faithful_optionalString.read_write m.locationUrl trivial])
    fun _ _ _ => trivial

/-- The names of the fields of an imported text. -/
def ImportedText.fields : List String :=
  ["address", "direction", "body", "timestamp", "seen", "read"]

/-- An imported text's time can be written. -/
def ImportedText.Fits (m : ImportedText) : Prop :=
  m.time.IsRegular

theorem ImportedText.roundTrips : RecordRoundTrips ImportedText Fits fields 6 := by
  refine .of_row fields 6
    (fun m => [write m.address, write m.direction, write m.body, write m.time, write m.seen,
      write m.read])
    (by decide) (fun _ => Nat.le_refl 6) (fun _ => rfl) (fun _ => rfl) ?_ ?_
  · intro m htime
    simp [fields, faithful_string.read_write m.address trivial,
      Direction.roundTrips.read_write m.direction trivial,
      faithful_string.read_write m.body trivial, Timestamp.roundTrips.read_write _ htime,
      faithful_bool.read_write m.seen trivial, faithful_bool.read_write m.read trivial]
  · intro values m h
    split at h
    · simp only [Option.bind_eq_bind, Option.bind_eq_some_iff] at h
      obtain ⟨_, -, _, -, _, -, time, htime, _, -, _, -, h⟩ := h
      cases h
      exact Timestamp.roundTrips.fits_of_read _ _ htime
    · cases h

/-- The names of the fields of an imported multimedia message. -/
def ImportedMultimedia.fields : List String :=
  ["pdu", "message_id", "timestamp", "seen", "read"]

/-- An imported message's time can be written, if it brings one. -/
def ImportedMultimedia.Fits (m : ImportedMultimedia) : Prop :=
  ∀ t ∈ m.time, t.IsRegular

theorem ImportedMultimedia.roundTrips : RecordRoundTrips ImportedMultimedia Fits fields 5 := by
  refine .of_row fields 5
    (fun m => [write m.pdu, write m.name, write m.time, write m.seen, write m.read])
    (by decide) (fun _ => Nat.le_refl 5) (fun _ => rfl) (fun _ => rfl) ?_ ?_
  · intro m htime
    simp [fields, faithful_octets.read_write m.pdu trivial,
      faithful_optionalString.read_write m.name trivial,
      faithful_optionalTime.read_write m.time htime, faithful_bool.read_write m.seen trivial,
      faithful_bool.read_write m.read trivial]
  · intro values m h
    split at h
    · simp only [Option.bind_eq_bind, Option.bind_eq_some_iff] at h
      obtain ⟨_, -, _, -, time, htime, _, -, _, -, h⟩ := h
      cases h
      exact faithful_optionalTime.fits_of_read _ _ htime
    · cases h

/-- The names of the flags. -/
def Flags.fields : List String :=
  ["seen", "read", "archived"]

theorem Flags.roundTrips : RecordRoundTrips Flags (fun _ => True) fields 3 :=
  .of_row fields 3 (fun f => [write f.seen, write f.read, write f.archived])
    (by decide) (fun _ => Nat.le_refl 3) (fun _ => rfl) (fun _ => rfl)
    (fun f _ => by
      simp [fields, faithful_optionalFlag.read_write f.seen trivial,
        faithful_optionalFlag.read_write f.read trivial,
        faithful_optionalFlag.read_write f.archived trivial])
    fun _ _ _ => trivial

/-! ### All forms -/

/-- **Every form round-trips.**  Identities and instants are read from other texts too, as the same
values. -/
structure FormsRoundTrip : Prop where
  sendResult : NamesRoundTrip SendResult
  recordStatus : NamesRoundTrip RecordStatus
  route : NamesRoundTrip Route
  kind : NamesRoundTrip Kind
  pduFormat : NamesRoundTrip PduFormat
  encoding : NamesRoundTrip Encoding
  phase : NamesRoundTrip Fallback.Phase
  direction : NamesRoundTrip Direction
  cardBackend : NamesRoundTrip CardBackend
  progress : NamesRoundTrip Progress
  messageId : RoundTrips MessageId fun _ => True
  /-- Thirty-two digits of either case, bare, with hyphens, in braces, or after a name space. -/
  messageId_forms : ∀ (id : MessageId) (digits : List Char), digits.length = 32 →
    Text.number? 16 digits = some id.number.toNat →
      ∀ form ∈ [digits, MessageId.hyphenated MessageId.groups digits,
        '{' :: MessageId.hyphenated MessageId.groups digits ++ ['}'],
        MessageId.nameSpace ++ MessageId.hyphenated MessageId.groups digits],
      read? (.text (.ofList form)) = some id
  messageRef : RoundTrips MessageRef fun _ => True
  timestamp : RoundTrips Timestamp Timestamp.IsRegular
  /-- All instants of years of four digits fit, but for leap seconds. -/
  timestamp_year : ∀ t : Timestamp, 0 ≤ t.date.year → t.date.year ≤ 9999 →
    t.nanos < 1000000000 → t.IsRegular
  /-- The time of another zone, ahead of universal time or behind it. -/
  timestamp_zoned : ∀ t : Timestamp, t.IsRegular → ∀ hours < 24, ∀ minutes < 60,
    ∀ (mark : Char) (sign : Int), mark = '+' ∧ sign = 1 ∨ mark = '-' ∧ sign = -1 →
      ∀ zoned : Timestamp,
        zoned = ⟨t.seconds + sign * (3600 * hours + 60 * minutes : Nat), t.nanos⟩ →
        Timestamp.isInRange zoned.date.year = true →
        read? (.text (.ofList (zoned.localText ++ mark :: Timestamp.offsetText hours minutes))) =
          some t
  part : RecordRoundTrips Part Part.Fits Part.fields 6
  receipt : RecordRoundTrips Receipt Receipt.Fits Receipt.fields 5
  cardRecord : RecordRoundTrips CardRecord CardRecord.Fits CardRecord.fields 3
  cardSettings : RecordRoundTrips CardSettings CardSettings.Fits CardSettings.fields 3
  storedText : RecordRoundTrips StoredText (fun _ => True) StoredText.fields 2
  storedMultimedia : RecordRoundTrips StoredMultimedia (fun _ => True) StoredMultimedia.fields 2
  importedText : RecordRoundTrips ImportedText ImportedText.Fits ImportedText.fields 6
  importedMultimedia :
    RecordRoundTrips ImportedMultimedia ImportedMultimedia.Fits ImportedMultimedia.fields 5
  flags : RecordRoundTrips Flags (fun _ => True) Flags.fields 3

/-- **Every form round-trips.** -/
theorem forms_round_trip : FormsRoundTrip where
  sendResult := SendResult.roundTrips
  recordStatus := RecordStatus.roundTrips
  route := Route.roundTrips
  kind := Kind.roundTrips
  pduFormat := PduFormat.roundTrips
  encoding := Encoding.roundTrips
  phase := Fallback.Phase.roundTrips
  direction := Direction.roundTrips
  cardBackend := CardBackend.roundTrips
  progress := Progress.roundTrips
  messageId := MessageId.roundTrips
  messageId_forms _ _ hlength hvalue := MessageId.ofText?_forms hlength hvalue
  messageRef := MessageRef.roundTrips
  timestamp := Timestamp.roundTrips
  timestamp_year _ := Timestamp.isRegular_of_year
  timestamp_zoned t ht hours hhours minutes hminutes mark sign hmark zoned hzoned hrange := by
    subst hzoned
    exact Timestamp.ofText?_zoned ht hhours hminutes hmark hrange
  part := Part.roundTrips
  receipt := Receipt.roundTrips
  cardRecord := CardRecord.roundTrips
  cardSettings := CardSettings.roundTrips
  storedText := StoredText.roundTrips
  storedMultimedia := StoredMultimedia.roundTrips
  importedText := ImportedText.roundTrips
  importedMultimedia := ImportedMultimedia.roundTrips
  flags := Flags.roundTrips

/-- A receipt in a list, with an identity in capitals after its name space, a route as an object and
a time five and a half hours ahead, has the form that its values are written in. -/
theorem forms_round_trip_receipt :
    ∃ r : Receipt, Receipt.Fits r ∧
      Json.canonical? Receipt (.list [.text "urn:uuid:0F8FAD5B-D9CB-469F-A165-70867728950E",
        .integer 3, .object [("Ims", .null)], .integer (-5),
        .text "2024-02-29t18:04:56.1230+05:30"]) = some (write r) ∧
      read? (write r) = some r ∧ Json.canonical? Receipt (write r) = some (write r) ∧
      r.message.toText = "0f8fad5b-d9cb-469f-a165-70867728950e" ∧
      r.time.toText = "2024-02-29T12:34:56.123Z" := by
  let r : Receipt :=
    ⟨⟨0x0F8FAD5BD9CB469FA16570867728950E⟩, 3, .ims, some ⟨-5⟩, ⟨1709210096, 123000000⟩⟩
  have hread : read? (.list [.text "urn:uuid:0F8FAD5B-D9CB-469F-A165-70867728950E", .integer 3,
      .object [("Ims", .null)], .integer (-5),
      .text "2024-02-29t18:04:56.1230+05:30"]) = some r := by
    decide +kernel
  obtain ⟨hfirst, hback, hagain⟩ := forms_round_trip.receipt.canonical _ r hread
  exact ⟨r, forms_round_trip.receipt.fits_of_read _ r hread, hfirst, hback, hagain,
    by decide +kernel, by decide +kernel⟩

end ShortMessage
