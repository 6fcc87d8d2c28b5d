import ShortMessage.Json.Storage
import ShortMessage.Settings

/-!
# JSON forms of settings

The settings are an object of five objects, as they are a table of five tables.
-/

namespace ShortMessage

open JsonForm

instance : JsonForm SegmentLimits where
  write l :=
    .object [("max_user_data_octets", write l.userData),
      ("concat_header_octets", write l.concatHeader), ("port_header_octets", write l.portHeader)]
  read? j := do
    match ← j.row? ["max_user_data_octets", "concat_header_octets", "port_header_octets"] 3 with
    | [userData, concatHeader, portHeader] =>
      pure ⟨← read? userData, ← read? concatHeader, ← read? portHeader⟩
    | _ => none

instance : JsonForm TrackingSettings where
  write t :=
    .object [("retirement_timeout_seconds", write t.retirementSeconds),
      ("sweep_interval_seconds", write t.sweepSeconds)]
  read? j := do
    match ← j.row? ["retirement_timeout_seconds", "sweep_interval_seconds"] 2 with
    | [retirement, sweep] => pure ⟨← read? retirement, ← read? sweep⟩
    | _ => none

instance : JsonForm LogSettings where
  write l := .object [("log_level", write l.level), ("log_format", write l.format)]
  read? j := do
    match ← j.row? ["log_level", "log_format"] 2 with
    | [level, format] => pure ⟨← read? level, ← read? format⟩
    | _ => none

/-- The preferred route is an object of its own. -/
instance : JsonForm Settings where
  write s :=
    .object [("segmentation", write s.limits), ("slot_store", write s.card),
      ("tracking", write s.tracking), ("fallback", .object [("ims_enabled", write s.prefersIms)]),
      ("observability", write s.log)]
  read? j := do
    match ← j.row? ["segmentation", "slot_store", "tracking", "fallback", "observability"] 5 with
    | [limits, card, tracking, fallback, log] =>
      match ← fallback.row? ["ims_enabled"] 1 with
      | [prefersIms] =>
        pure ⟨← read? limits, ← read? card, ← read? tracking, ← read? prefersIms, ← read? log⟩
      | _ => none
    | _ => none

end ShortMessage
