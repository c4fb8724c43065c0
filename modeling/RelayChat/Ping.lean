import RelayChat.Command.Received

/-!
# Answering pings

A server that sends a PING wants its token back.  The answer carries the token
and nothing else of the ping.
-/

namespace RelayChat

/-- The PONG line that carries a token. -/
def pongLine (token : String) : String :=
  ((Message.ofVerb "PONG").withTrailing token).text

/-- The line that answers a received one, if it is a ping. -/
def Received.answer? : Received → Option String
  | .command ⟨_, .ping token⟩ => some (pongLine token)
  | _ => none

end RelayChat
