import ShortMessage.Message

/-!
# Counters

What the library counts while it works.  A counter is raised by one each time, so a component keeps
the list of the counters it raised, oldest first; `List.count` reads one off.

* `Counter`: the counters;
* `Counter.label`: the name under which a counter is published.
-/

namespace ShortMessage

/-- The things a signal can be too late for. -/
inductive StaleKind
  | sent
  | delivered
  | settle
  | fallback
deriving DecidableEq

/-- The kind as counters name it. -/
def StaleKind.text : StaleKind → String
  | .sent => "sent"
  | .delivered => "delivered"
  | .settle => "settle"
  | .fallback => "fallback"

/-- **The counters**, each with what tells its events apart. -/
inductive Counter
  | staleSignal (kind : StaleKind)
  | aggregateReported (result : SendResult)
  | trackingTimeout
  | partDispatched (route : Route)
  | fallbackResend (kind : Kind)
deriving DecidableEq

/-- The name of a counter, with its labels in braces. -/
def Counter.label : Counter → String
  | .staleSignal kind => "sms_stale_signals_total\x7bsignal=" ++ kind.text ++ "\x7d"
  | .aggregateReported result =>
    "sms_aggregate_reported_total\x7bresult=" ++ result.text ++ "\x7d"
  | .trackingTimeout => "sms_tracking_timeouts_total"
  | .partDispatched route => "sms_parts_dispatched_total\x7bpath=" ++ route.text ++ "\x7d"
  | .fallbackResend kind => "sms_fallback_resends_total\x7bkind=" ++ kind.text ++ "\x7d"

end ShortMessage
