import RelayChat.Command.Canonical
import RelayChat.Failure

/-!
# Lines as they are received

`Received.ofLine` never fails: a line that cannot be read, or whose message is no
command, is kept with what is wrong with it, so that a line is never lost.  What
was received is kept without one CRLF at its end.

A line is written back in its canonical form; one whose message is no command is
written as that message, and one that could not be read is written as received.
-/

namespace RelayChat

/-- Why a line is no command. -/
inductive LineFault where
  /-- The line could not be read. -/
  | line (e : LineError)
  /-- The line was read and its message is no command. -/
  | command (e : CommandError)
deriving Repr, DecidableEq

namespace LineFault

/-- What the fault says. -/
def message : LineFault → String
  | .line e => e.message
  | .command e => e.message

/-- The failure that a fault is, in a line without its end. -/
def toFailure (line : String) : LineFault → Failure
  | .line e => .line e
  | .command e => .command line e

end LineFault

/-- What a received line is. -/
inductive Received where
  /-- A command. -/
  | command (c : Command)
  /-- A line that is no command: without its end, its message if it could be read, and what is
  wrong with it. -/
  | invalid (line : String) (message : Option Message) (fault : LineFault)
deriving Repr, DecidableEq

namespace Received

/-- The characters of a line without one CRLF at its end. -/
def withoutEnd (cs : List Char) : List Char :=
  match cs.reverse with
  | '\n' :: '\r' :: rest => rest.reverse
  | _ => cs

/-- What the message of a line is; the line is without its end. -/
def ofMessage (line : String) (m : Message) : Received :=
  match Command.ofMessage m with
  | .ok c => .command c
  | .error e => .invalid line (some m) (.command e)

/-- **What a line is.** -/
def ofLine (line : String) : Received :=
  let raw := String.ofList (withoutEnd line.toList)
  match Message.parse line with
  | .ok m => ofMessage raw m
  | .error e => .invalid raw none (.line e)

/-- Which kind of thing the line is. -/
def kind : Received → Kind
  | .command c => c.content.kind
  | .invalid .. => .invalid

/-- Whether the line is no command. -/
def isInvalid : Received → Bool
  | .command _ => false
  | .invalid .. => true

/-- The message of the line, unless it could not be read. -/
def message? : Received → Option Message
  | .command c => some c.message
  | .invalid _ m _ => m

/-- What is wrong with the line. -/
def fault? : Received → Option LineFault
  | .command _ => none
  | .invalid _ _ fault => some fault

/-- The message that the line is written back as, unless it could not be read. -/
def toMessage? : Received → Option Message
  | .command c => some c.toMessage
  | .invalid _ m _ => m

/-- The line as it is written back. -/
def text : Received → String
  | .command c => c.text
  | .invalid line none _ => line
  | .invalid _ (some m) _ => m.text

instance : ToString Received := ⟨text⟩

/-- The command of a line, or the failure that the line is. -/
def toCommand : Received → Except Failure Command
  | .command c => .ok c
  | .invalid line _ fault => .error (fault.toFailure line)

end Received

/-- Reads the command of a line. -/
def Command.parse (line : String) : Except Failure Command :=
  (Received.ofLine line).toCommand

/-! ### Sameness -/

namespace Content

/-- The content with each user reduced to a nickname. -/
def plainUsers : Content → Content
  | .privmsg (.user u) text isAction => .privmsg (.user (.plain u.nickname)) text isAction
  | .notice (.user u) text => .notice (.user (.plain u.nickname)) text
  | .whisper u text origin => .whisper (.plain u.nickname) text origin
  | .squery u text => .squery (.plain u.nickname) text
  | .invite u channel => .invite (.plain u.nickname) channel
  | .kick channels users comment =>
    .kick channels (users.map fun u => .plain u.nickname) comment
  | content => content

end Content

/-- Whether two lines are the same: equal in every part, except that users are compared by
nickname. -/
def Received.same : Received → Received → Bool
  | .command a, .command b =>
    a.message = b.message && a.content.plainUsers = b.content.plainUsers
  | .invalid lineA mA faultA, .invalid lineB mB faultB =>
    lineA = lineB && mA = mB && faultA = faultB
  | _, _ => false

end RelayChat
