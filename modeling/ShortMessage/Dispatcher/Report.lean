import ShortMessage.Dispatcher.Send

/-!
# Carrier reports

A carrier reports how a message went on the IP route.  Success settles the parts that were waiting
for it; failure sends what is still pending once more, by the circuit domain.

* `Dispatcher.resend`: what a failure leads to;
* `Dispatcher.report`: a report on a message of either kind.
-/

namespace ShortMessage

namespace Dispatcher

variable {σ : Type} [Radio σ]

/-- The pieces of an entry whose parts are pending, or none if the message is no longer tracked. -/
def pendingCargos (d : Dispatcher σ) (e : Fallback.Entry) : List Cargo :=
  match d.tracker.parts? e.message with
  | none => []
  | some parts => e.content.cargos.filter fun c => parts[c.index]? = some .pending

/-- **Resends** what is still pending by the circuit domain. -/
def resend (d : Dispatcher σ) (e : Fallback.Entry) : Dispatcher σ :=
  let pending := d.pendingCargos e
  if pending.isEmpty then d
  else (d.count (.fallbackResend e.content.kind)).offerCircuit e.message pending

/-- **A carrier's report.** -/
def report (d : Dispatcher σ) (kind : Kind) (ref : MessageRef) (success : Bool) : Dispatcher σ :=
  let (decision, fallback) := d.fallback.report kind ref success
  let d := { d with fallback }
  match decision with
  | .ignored => d
  | .succeeded e =>
    { d with tracker := (d.tracker.settle e.message e.content.indices .success).2 }
  | .resend e =>
    let d := d.resend e
    { d with fallback := d.fallback.markResent ref }

end Dispatcher

end ShortMessage
