import ShortMessage.Radio

/-!
# A radio that follows a script

For rehearsals: it sends nothing, refuses what the script says, and calls back at once where the
script says so.

* `ScriptedRadio`: the script, and what was injected and broadcast so far.
-/

namespace ShortMessage

/-- What is called back at once on a route. -/
structure ScriptedRadio.Echo where
  sent : Option SendResult
  delivered : Bool

/-- The signals of an echo; that of the delivery comes last. -/
def ScriptedRadio.Echo.signals (e : Echo) : List Signal :=
  e.sent.toList.map .sent ++ if e.delivered then [.delivered] else []

/-- The script for one route. -/
structure ScriptedRadio.Lane where
  failing : Bool
  echo : Option ScriptedRadio.Echo

/-- A route on which everything is taken in silence. -/
def ScriptedRadio.Lane.clear : Lane := ⟨false, none⟩

/-- A PDU that was injected, for the record. -/
structure ScriptedRadio.Injection where
  pdu : Octets
  format : PduFormat
  token : Option Token

/-- A range of cell broadcasts that was switched, for the record. -/
structure ScriptedRadio.BroadcastCall where
  first : UInt16
  last : UInt16
  enabled : Bool

/-- **A scripted radio.** -/
structure ScriptedRadio where
  ims : Bool
  available : Bool
  /-- The parts that are refused: routes and indices. -/
  rejected : List (Route × Nat)
  imsLane : ScriptedRadio.Lane
  circuitLane : ScriptedRadio.Lane
  /-- Whether cell broadcast is answered with a refusal. -/
  refusesBroadcast : Bool
  injections : List ScriptedRadio.Injection
  broadcasts : List ScriptedRadio.BroadcastCall

namespace ScriptedRadio

/-- A radio that refuses nothing and calls nothing back. -/
def new (ims : Bool) : ScriptedRadio :=
  ⟨ims, true, [], .clear, .clear, false, [], []⟩

/-- The script for a route. -/
def lane (r : ScriptedRadio) : Route → Lane
  | .ims => r.imsLane
  | .circuit => r.circuitLane

/-- Changes the script for a route. -/
def setLane (r : ScriptedRadio) (route : Route) (lane : Lane) : ScriptedRadio :=
  match route with
  | .ims => { r with imsLane := lane }
  | .circuit => { r with circuitLane := lane }

/-- What the script says about a hand-over. -/
def verdict (r : ScriptedRadio) (h : HandOver) : Verdict :=
  let lane := r.lane h.route
  if (h.route, h.cargo.index) ∈ r.rejected ∨ !r.available ∨ lane.failing then .refused
  else .accepted ((lane.echo.map Echo.signals).getD [])

instance : Radio ScriptedRadio where
  imsAvailable r := r.ims
  offer r h := (r.verdict h, r)
  inject r pdu format token :=
    if r.available then
      (.held, { r with injections := r.injections ++ [⟨pdu, format, token⟩] })
    else (.refused, r)
  setBroadcast r first last enabled :=
    if r.available then
      (!r.refusesBroadcast, { r with broadcasts := r.broadcasts ++ [⟨first, last, enabled⟩] })
    else (false, r)

end ScriptedRadio

end ShortMessage
