import ShortMessage.Message

/-!
# Tokens and callbacks

A sender that wants to know how a send ends hands in tokens.  A token is fired with a result or
closed unfired, and whoever holds it does that once.  A radio that wants to tell what became of a
part calls it back.

* `Token`, `Outcome`, `TokenEvent`: what happened to a token;
* `Signal`, `Callback`: what a radio says about a part, and whom it says it to;
* `Callback.relays`: on the IP route a carrier reports the send result, so the radio's is not heard.
-/

namespace ShortMessage

/-- A promise to a sender, known by its number. -/
structure Token where
  number : Nat
deriving DecidableEq

/-- The end of a token. -/
inductive Outcome
  | fired (result : SendResult)
  | closed
deriving DecidableEq

/-- A token with its end. -/
abbrev TokenEvent := Token × Outcome

/-- The token is fired with a result. -/
def Token.fire (result : SendResult) (t : Token) : TokenEvent :=
  (t, .fired result)

/-- The token is closed unfired. -/
def Token.close (t : Token) : TokenEvent :=
  (t, .closed)

/-- What a radio says about a part. -/
inductive Signal
  | sent (result : SendResult)
  | delivered
deriving DecidableEq

/-- Whom a radio calls back about one part. -/
structure Callback where
  message : MessageId
  index : Nat
  /-- Off on the IP route. -/
  reportsSent : Bool
deriving DecidableEq

/-- The callback of a part handed over on a route. -/
def Callback.via (route : Route) (message : MessageId) (index : Nat) : Callback :=
  ⟨message, index, route = .circuit⟩

/-- Does a signal get through? -/
def Callback.relays (c : Callback) : Signal → Bool
  | .sent _ => c.reportsSent
  | .delivered => true

end ShortMessage
