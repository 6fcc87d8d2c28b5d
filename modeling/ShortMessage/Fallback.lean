import ShortMessage.Meter
import ShortMessage.Registry
import ShortMessage.Token

/-!
# Falling back from IP to the circuit domain

A message on the IP route gets a reference, under which the carrier reports how it went.  Until then
its content is kept, so that a failure can be made good over the circuit domain.

    awaitingReport --success--> succeeded --> concluded
    awaitingReport --failure--> awaitingResend --resent--> resentViaCircuit --> concluded

A report decides at most once; a concluded entry stays until its message is no longer tracked.

* `Content`, `Fallback.Entry`, `Fallback.Phase`: what is kept;
* `Fallback.register`: the next free reference, in cyclic order;
* `Fallback.report`, `markResent`, `detach`, `retire`: the operations.
-/

namespace ShortMessage

/-- What a message consists of beyond its identity. -/
inductive Content
  | sms (destination : String) (serviceCentre : Option String) (parts : List Part)
  | mms (pdu : Octets) (locationUrl : Option String)
deriving DecidableEq

namespace Content

/-- The kind of a content. -/
def kind : Content → Kind
  | .sms .. => .sms
  | .mms .. => .mms

/-- The parts of a content by their indices; a multimedia message is the one part 0. -/
def indices : Content → List Nat
  | .sms _ _ parts => parts.map Part.index
  | .mms .. => [0]

/-- What is left of a content without the listed parts; a multimedia message stays whole. -/
def without (gone : List Nat) : Content → Content
  | .sms destination serviceCentre parts =>
    .sms destination serviceCentre (parts.filter (·.index ∉ gone))
  | c@(.mms ..) => c

/-- Do the listed parts use up a content? -/
def exhaustedBy (gone : List Nat) : Content → Bool
  | .sms _ _ parts => (parts.filter (·.index ∉ gone)).isEmpty
  | .mms .. => 0 ∈ gone

end Content

namespace MessageRef

/-- References are given out from here on. -/
def first : MessageRef := ⟨1⟩

/-- The reference after another: one more, and one again after the largest. -/
def following (r : MessageRef) : MessageRef :=
  if r.number = Int32.maxValue then first else ⟨r.number + 1⟩

end MessageRef

namespace Fallback

/-- How far an entry is on its way to the end. -/
inductive Phase
  | awaitingReport
  | succeeded
  | awaitingResend
  | resentViaCircuit
  | concluded
deriving DecidableEq

/-- A message on the IP route. -/
structure Entry where
  ref : MessageRef
  message : MessageId
  content : Content
  phase : Phase
deriving DecidableEq

/-- What a carrier's report leads to. -/
inductive Decision
  | ignored
  | succeeded (entry : Entry)
  | resend (entry : Entry)
deriving DecidableEq

end Fallback

/-- **The fallback registry.** -/
structure Fallback where
  entries : Registry MessageRef Fallback.Entry
  /-- Where the search for the next reference begins. -/
  next : MessageRef
  counters : List Counter

namespace Fallback

/-- A registry with no entry. -/
def new : Fallback :=
  ⟨.empty, .first, []⟩

/-- The entry of a reference, while there is one. -/
def entry? (f : Fallback) (r : MessageRef) : Option Entry :=
  f.entries.get? r

/-- The phase of a reference, while it has an entry. -/
def phase? (f : Fallback) (r : MessageRef) : Option Phase :=
  (f.entry? r).map Entry.phase

/-- The first reference from `r` on that is not taken, if one is met within `n` steps. -/
def firstFree (taken : MessageRef → Bool) : Nat → MessageRef → MessageRef
  | 0, r => r
  | n + 1, r => if taken r then firstFree taken n r.following else r

/-- The reference that the next registration gets.  Each live entry takes one reference, so there is
a free one after as many steps as there are entries. -/
def nextFree (f : Fallback) : MessageRef :=
  firstFree f.entries.contains f.entries.size f.next

/-- **Registers a message** under a free reference. -/
def register (f : Fallback) (message : MessageId) (content : Content) : MessageRef × Fallback :=
  let ref := f.nextFree
  (ref,
    { f with
        entries := f.entries.insert ref { ref, message, content, phase := .awaitingReport }
        next := ref.following })

/-- Changes the phase of an entry. -/
def move (f : Fallback) (e : Entry) (phase : Phase) : Fallback :=
  { f with entries := f.entries.insert e.ref { e with phase } }

/-- **A carrier's report.**  Of an unknown reference, or of the wrong kind of message, it is stale;
after the first it is ignored. -/
def report (f : Fallback) (kind : Kind) (r : MessageRef) (success : Bool) : Decision × Fallback :=
  match (f.entry? r).filter (·.content.kind = kind) with
  | none => (.ignored, { f with counters := f.counters ++ [.staleSignal .fallback] })
  | some e =>
    if e.phase ≠ .awaitingReport then (.ignored, f)
    else if success then (.succeeded { e with phase := .succeeded }, f.move e .concluded)
    else (.resend { e with phase := .awaitingResend }, f.move e .awaitingResend)

/-- The content of an entry has been handed to the circuit domain. -/
def markResent (f : Fallback) (r : MessageRef) : Fallback :=
  match f.entry? r with
  | some e => if e.phase = .awaitingResend then f.move e .concluded else f
  | none => f

/-- **Detaches parts** that the IP route did not take.  An entry with nothing left concludes. -/
def detach (f : Fallback) (r : MessageRef) (gone : List Nat) : Option Phase × Fallback :=
  match f.entry? r with
  | none => (none, f)
  | some e =>
    if e.phase ≠ .awaitingReport then (some e.phase, f)
    else
      let phase := if e.content.exhaustedBy gone then .concluded else .awaitingReport
      (some phase, f.move { e with content := e.content.without gone } phase)

/-- Removes the entries whose message is no longer tracked; says how many. -/
def retire (f : Fallback) (isTracked : MessageId → Bool) : Nat × Fallback :=
  let entries := f.entries.retain fun _ e => isTracked e.message
  (f.entries.size - entries.size, { f with entries })

end Fallback

end ShortMessage
