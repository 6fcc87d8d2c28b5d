import ShortMessage.Dispatcher.Receive
import ShortMessage.Dispatcher.Report
import ShortMessage.Dispatcher.Storage
import ShortMessage.Service.Task
import ShortMessage.Settings

/-!
# The service

A service is a dispatcher over a loopback radio, with tasks in the background and a clock.  The
clock moves only while somebody waits, and then from one time that a task waits for to the next.

* `Service`, `Service.open?`: a service and how it is set up;
* `Service.withDispatcher`: the service after an operation of its dispatcher;
* `Service.turn`: what a task does when its turn comes; `Service.settle`: until all wait;
* `Service.wait`: lets time pass;
* `Service.shutDown`, `shutDownAndWait`, `subscribe`, `receive`: the end of the service.

While time passes, the tasks whose time has come run in the order in which they began to wait; those
whose time is the very end of a wait run in the next one.
-/

namespace ShortMessage

/-- Why a service cannot be set up. -/
inductive ServiceFailure
  | noCard (cause : Failure)
deriving DecidableEq

/-- Why a service cannot be set up, in words. -/
def ServiceFailure.message : ServiceFailure → String
  | .noCard _ => "创建槽位存储失败"

/-- **A service.** -/
structure Service where
  settings : Settings
  dispatcher : Dispatcher LoopbackRadio
  /-- The milliseconds that the radio takes. -/
  delay : Nat
  /-- The clock, in milliseconds. -/
  now : Nat
  /-- How many tasks there have been. -/
  tasks : Nat
  /-- The tasks that run next, in order. -/
  ready : List Task
  /-- The tasks that wait, in the order in which they began to. -/
  waiting : List (Pause × Task)
  /-- The tasks that are waited for at the end, by their numbers. -/
  registered : List Nat
  isShutDown : Bool
  inboxes : List Inbox

namespace Service

/-- The milliseconds that a loopback radio takes if nothing else is said. -/
def usualDelay : Nat := 10

/-- **Sets a service up**, with a card from a shelf. -/
def open? (settings : Settings) (ims : Bool) (delay : Nat) (shelf : TableShelf) :
    Except ServiceFailure Service :=
  match Card.ofSettings settings.card shelf with
  | .error cause => .error (.noCard cause)
  | .ok card =>
    .ok
      { settings
        dispatcher := .new settings.limits settings.tracking.retirementSeconds settings.prefersIms
          (.new ims) card
        delay
        now := 0
        tasks := 0
        ready := []
        waiting := []
        registered := []
        isShutDown := false
        inboxes := [] }

/-! ### Tasks -/

/-- Starts a task. -/
def start (s : Service) (plan : Plan) : Service :=
  { s with tasks := s.tasks + 1, ready := s.ready ++ [⟨s.tasks, plan, none⟩] }

/-- Starts a task that is waited for at the end. -/
def register (s : Service) (plan : Plan) : Service :=
  { s.start plan with registered := s.registered ++ [s.tasks] }

/-- Starts the task that sweeps. -/
def startSweeper (s : Service) : Service :=
  s.register .sweep

/-- **The service after an operation** of its dispatcher: what the radio took becomes tasks. -/
def withDispatcher (s : Service) (d : Dispatcher LoopbackRadio) : Service :=
  let s := { s with dispatcher := { d with radio := { d.radio with due := [] } } }
  d.radio.due.foldl (fun s c => s.start (.complete c)) s

/-- Lets a task wait, behind those that wait already. -/
def pause (s : Service) (p : Pause) (t : Task) : Service :=
  { s with waiting := s.waiting ++ [(p, { t with due := p.due? })] }

/-- Calls back about a hand-over. -/
def callBack (s : Service) (c : LoopbackRadio.Completion) : Service :=
  { s with
      dispatcher := c.signals.foldl (fun d signal => d.callBack c.callback signal) s.dispatcher }

/-- The milliseconds between two sweeps. -/
def interval (s : Service) : Nat :=
  1000 * s.settings.tracking.sweepSeconds

/-- **The turn of a task.**  The first turn of a sweeping task only sets the time of the first
sweep, and breaks it down if there is no interval.  Tracked messages do not age here. -/
def turn (s : Service) (t : Task) : Service :=
  match t.plan, t.due with
  | .complete c, none => if s.delay = 0 then s.callBack c else s.pause (.time (s.now + s.delay)) t
  | .complete c, some _ => s.callBack c
  | .sweep, none =>
    if s.interval = 0 ∨ s.isShutDown then s
    else s.pause (.timeOrSignal (s.now + s.interval)) t
  | .sweep, some due =>
    if s.isShutDown then s
    else
      let s := { s with dispatcher := (s.dispatcher.sweep 0).2 }
      s.pause (.timeOrSignal (due + s.interval)) t
  | .attend, _ => if s.isShutDown then s else s.pause .signal t
  | .sleep span, none => if span = 0 then s else s.pause (.time (s.now + span)) t
  | .sleep _, some _ => s
  | .crash, _ => s

/-- Lets all tasks run that can, so that every task waits. -/
def settle (s : Service) : Service :=
  s.ready.foldl turn { s with ready := [] }

/-! ### Time -/

/-- The next time that a task waits for. -/
def nextDue? (s : Service) : Option Nat :=
  (s.waiting.filterMap (·.1.due?)).min?

/-- A task's time has come; one that waits for the signal alone has none. -/
def isDueBy (time : Nat) (w : Pause × Task) : Bool :=
  match w.1.due? with
  | some due => due ≤ time
  | none => false

/-- Sets the clock; the tasks whose time has come run next. -/
def advance (s : Service) (time : Nat) : Service :=
  { s with
      now := time
      ready := s.ready ++ (s.waiting.filter (isDueBy time)).map (·.2)
      waiting := s.waiting.filter (!isDueBy time ·) }

/-- Lets time pass until a moment, or until all tasks wait and it `isOver`.  Every round takes the
clock on. -/
def runUntil (moment : Nat) (isOver : Service → Bool) : (fuel : Nat) → Service → Service
  | 0, s => s
  | fuel + 1, s =>
    let s := s.settle
    if isOver s then s
    else
      match s.nextDue? with
      | some due =>
        if due < moment then runUntil moment isOver fuel (s.advance due) else s.advance moment
      | none => s.advance moment

/-- **Waits** for some milliseconds. -/
def wait (s : Service) (span : Nat) : Service :=
  if span = 0 then s else s.runUntil (s.now + span) (fun _ => false) (span + 1)

/-! ### The end -/

/-- **Ends the service**: whoever waits for that is told, once. -/
def shutDown (s : Service) : Service :=
  if s.isShutDown then s
  else
    { s with
        isShutDown := true
        ready := s.ready ++ (s.waiting.filter (·.1.endsOnSignal)).map (·.2)
        waiting := s.waiting.filter (!·.1.endsOnSignal)
        inboxes := s.inboxes.map fun i => { i with signalled := true } }

/-- The tasks that are not over. -/
def unfinished (s : Service) : List Nat :=
  (s.ready ++ s.waiting.map (·.2)).map Task.number

/-- Are all the listed tasks over? -/
def areOver (numbers : List Nat) (s : Service) : Bool :=
  numbers.all (· ∉ s.unfinished)

/-- **Ends the service and waits** until the registered tasks are over, but only for some
milliseconds; says whether they are.  They are waited for once. -/
def shutDownAndWait (s : Service) (span : Nat) : Bool × Service :=
  let awaited := s.registered
  let s := { s.shutDown with registered := [] }
  if areOver awaited s then (true, s)
  else if span = 0 then (false, s)
  else
    let moment := s.now + span
    let s := s.runUntil moment (areOver awaited) (span + 1)
    (areOver awaited s, s)

/-- Subscribes to the end; says under which number. -/
def subscribe (s : Service) : Nat × Service :=
  (s.inboxes.length, { s with inboxes := s.inboxes ++ [⟨s.isShutDown, s.isShutDown⟩] })

/-- Looks into a subscription. -/
def receive (s : Service) (number : Nat) : Option Reception × Service :=
  match s.inboxes[number]? with
  | none => (none, s)
  | some i =>
    let (reception, i) := i.take
    (some reception, { s with inboxes := s.inboxes.set number i })

end Service

end ShortMessage
