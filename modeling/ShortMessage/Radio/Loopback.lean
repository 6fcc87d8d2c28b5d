import ShortMessage.Radio

/-!
# A radio that sends to itself

It takes everything and, some time later, calls back that all went well: a part was sent and
delivered, a multimedia message was sent.  A received PDU is confirmed at once.

* `LoopbackRadio`: what it took and has not yet called back about.
-/

namespace ShortMessage

/-- A hand-over that is to be called back, and the signals to call back with. -/
structure LoopbackRadio.Completion where
  callback : Callback
  signals : List Signal
deriving DecidableEq

/-- **A loopback radio.** -/
structure LoopbackRadio where
  ims : Bool
  /-- How many hand-overs it took. -/
  taken : Nat
  /-- What it still has to call back about, oldest first. -/
  due : List LoopbackRadio.Completion

namespace LoopbackRadio

/-- A radio that has taken nothing yet. -/
def new (ims : Bool) : LoopbackRadio := ⟨ims, 0, []⟩

/-- What is called back about a cargo. -/
def signalsOf : Cargo → List Signal
  | .part .. => [.sent .success, .delivered]
  | .multimedia .. => [.sent .success]

instance : Radio LoopbackRadio where
  imsAvailable r := r.ims
  offer r h :=
    (.accepted [],
      { r with taken := r.taken + 1, due := r.due ++ [⟨h.callback, signalsOf h.cargo⟩] })
  inject r _ _ _ := (.confirmed, r)
  setBroadcast r _ _ _ := (true, r)

end LoopbackRadio

end ShortMessage
