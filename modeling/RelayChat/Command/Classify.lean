import RelayChat.Command.Action
import RelayChat.Command.Basic
import RelayChat.Text.Splitting

/-!
# What a message says

`Content.ofMessage` reads the fields of a message by its verb.  Fields are read
in the order of the parameters and the first that is missing or malformed is the
one reported, with two particulars: the text of a WHISPER or an SQUERY is looked
for before the user is read, and KICK reads its channels before it looks for its
users.

A field that stands in a position is the parameter there, or the trailing
parameter if it comes next (`textAt`).  PING, PONG, ERROR and QUIT take the
trailing parameter alone.
-/

namespace RelayChat

/-- Why a message is no command: what its verb requires and does not find. -/
inductive CommandError where
  /-- There is no parameter at a position. -/
  | missingParam (verb : String) (index : Nat)
  /-- There is no trailing parameter. -/
  | missingTrailing (verb : String)
  /-- The parameter at a position is, or holds, no channel. -/
  | invalidChannel (verb : String) (index : Nat) (value : String)
  /-- The parameter at a position is, or holds, no user. -/
  | invalidUser (verb : String) (index : Nat) (value : String)
deriving Repr, DecidableEq

namespace CommandError

/-- The verb of the message. -/
def verb : CommandError → String
  | .missingParam verb _ => verb
  | .missingTrailing verb => verb
  | .invalidChannel verb _ _ => verb
  | .invalidUser verb _ _ => verb

/-- What the error says. -/
def message : CommandError → String
  | .missingParam verb index => verb ++ " requires parameter " ++ toString index
  | .missingTrailing verb => verb ++ " requires a trailing parameter"
  | .invalidChannel verb index value =>
    verb ++ " parameter " ++ toString index ++ " is not a channel: " ++ Text.quoted value
  | .invalidUser verb index value =>
    verb ++ " parameter " ++ toString index ++ " is not a user: " ++ Text.quoted value

end CommandError

namespace Message

/-- The parameter at a position. -/
def paramAt (m : Message) (index : Nat) : Except CommandError String :=
  match m.param? index with
  | some param => .ok param
  | none => .error (.missingParam m.verb index)

/-- What stands in a position: the parameter, or the trailing parameter if it comes next. -/
def textAt (m : Message) (index : Nat) : Except CommandError String :=
  match m.param? index, m.trailing with
  | some param, _ => .ok param
  | none, some trailing =>
    if m.params.length = index then .ok trailing else .error (.missingParam m.verb index)
  | none, none => .error (.missingParam m.verb index)

/-- The trailing parameter. -/
def trailingText (m : Message) : Except CommandError String :=
  match m.trailing with
  | some trailing => .ok trailing
  | none => .error (.missingTrailing m.verb)

/-- Reads `value`, from the parameter at `index`, as a channel. -/
def channelFrom (m : Message) (index : Nat) (value : String) : Except CommandError Channel :=
  match Channel.ofChars? value.toList with
  | some c => .ok c
  | none => .error (.invalidChannel m.verb index value)

/-- Reads `value`, from the parameter at `index`, as a user. -/
def userFrom (m : Message) (index : Nat) (value : String) : Except CommandError User :=
  match User.ofChars? value.toList with
  | some u => .ok u
  | none => .error (.invalidUser m.verb index value)

/-- The texts between the commas of a parameter. -/
def commaList (param : String) : List String :=
  (Text.pieces ',' param.toList).map String.ofList

end Message

/-- The text and the mark of a PRIVMSG with this body. -/
def Content.ofBody (target : Target) (body : String) : Content :=
  match Action.unwrapText? body with
  | some text => .privmsg target text true
  | none => .privmsg target body false

/-- The user addressed and the text, of a message to one user. -/
def Message.userAndText (m : Message) : Except CommandError (User × String) := do
  let name ← m.paramAt 0
  let text ← m.textAt 1
  let user ← m.userFrom 0 name
  return (user, text)

/-- **What a message says**, by its verb. -/
def Content.ofMessage (m : Message) : Except CommandError Content :=
  match Verb.ofText m.verb with
  | .privmsg => do
    let target ← m.paramAt 0
    let body ← m.textAt 1
    return .ofBody (.ofText target) body
  | .notice => do
    let target ← m.paramAt 0
    let text ← m.textAt 1
    return .notice (.ofText target) text
  | .whisper => do
    let (user, text) ← m.userAndText
    return .whisper user text .twitch
  | .squery => do
    let (user, text) ← m.userAndText
    return .squery user text
  | .join => do
    let name ← m.textAt 0
    return .join (← m.channelFrom 0 name)
  | .part => do
    let name ← m.textAt 0
    return .part (← m.channelFrom 0 name)
  | .mode => do
    let name ← m.paramAt 0
    return .mode (← m.channelFrom 0 name) (m.params.drop 1 ++ m.trailing.toList)
  | .topic => do
    let name ← m.paramAt 0
    return .topic (← m.channelFrom 0 name) m.trailing
  | .nick => do
    return .nick (← m.textAt 0)
  | .invite => do
    let user ← m.userFrom 0 (← m.paramAt 0)
    let channel ← m.channelFrom 1 (← m.paramAt 1)
    return .invite user channel
  | .kick => do
    let channels ← (Message.commaList (← m.paramAt 0)).mapM (m.channelFrom 0)
    let users ← (Message.commaList (← m.paramAt 1)).mapM (m.userFrom 1)
    return .kick channels users m.trailing
  | .ping => do
    return .ping (← m.trailingText)
  | .pong => do
    return .pong (← m.trailingText)
  | .error => do
    return .error (← m.trailingText)
  | .quit => do
    return .quit (← m.trailingText)
  | .numeric code => .ok (.numeric code)
  | .other => .ok .other

/-- The command that a message is. -/
def Command.ofMessage (m : Message) : Except CommandError Command :=
  match Content.ofMessage m with
  | .ok content => .ok ⟨m, content⟩
  | .error e => .error e

end RelayChat
