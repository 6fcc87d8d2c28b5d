import ShortMessage.Radio.Loopback

/-!
# Tasks in the background

A task runs when its turn comes, does something, and then either is over or waits: for a time of the
clock, for the end of the service, or for whichever of the two comes first.

* `Plan`, `Task`: what a task is for and how far it has come;
* `Pause`: what a task waits for;
* `Inbox`: the signal of the end, as a subscriber finds it.
-/

namespace ShortMessage

/-- What a task is for. -/
inductive Plan
  /-- Calls back, once the radio has taken its time. -/
  | complete (completion : LoopbackRadio.Completion)
  /-- Sweeps the tracker at every interval, until the service ends. -/
  | sweep
  /-- Waits for the end of the service. -/
  | attend
  /-- Waits for some milliseconds. -/
  | sleep (span : Nat)
  /-- Breaks down at once. -/
  | crash
deriving DecidableEq

/-- **A task**, known by its number. -/
structure Task where
  number : Nat
  plan : Plan
  /-- The time it last waited for; none if it has not run yet. -/
  due : Option Nat
deriving DecidableEq

/-- What a task waits for. -/
inductive Pause
  | time (due : Nat)
  | signal
  | timeOrSignal (due : Nat)
deriving DecidableEq

namespace Pause

/-- The time that ends a pause. -/
def due? : Pause → Option Nat
  | .time due | .timeOrSignal due => some due
  | .signal => none

/-- The end of the service ends the pause. -/
def endsOnSignal : Pause → Bool
  | .time _ => false
  | .signal | .timeOrSignal _ => true

end Pause

/-- What a subscriber to the end of a service finds. -/
inductive Reception
  | signal
  | empty
  | closed
deriving DecidableEq

/-- The reception as it is shown. -/
def Reception.text : Reception → String
  | .signal => "signal"
  | .empty => "empty"
  | .closed => "closed"

/-- A subscription: whether the signal waits in it, and whether it was made after the end, when
nothing can follow. -/
structure Inbox where
  signalled : Bool
  late : Bool
deriving DecidableEq

/-- Takes what is there. -/
def Inbox.take (i : Inbox) : Reception × Inbox :=
  if i.signalled then (.signal, { i with signalled := false })
  else (if i.late then .closed else .empty, i)

end ShortMessage
