import RelayChat.Channel.Basic
import RelayChat.Message.Line

/-!
# Commands

A command is a message together with what it says, its `Content`.  The content
is decided by the verb, which `Verb` sorts: fifteen verbs have fields of their
own, three digits make a numeric reply, and every other verb is kept as it is.

Content is read off a message in `Command.Classify` and written back in
`Command.Canonical`.
-/

namespace RelayChat

/-- Whom a PRIVMSG or a NOTICE addresses. -/
inductive Target where
  /-- A channel. -/
  | channel (c : Channel)
  /-- A user. -/
  | user (u : User)
deriving Repr, DecidableEq

namespace Target

/-- The target that a parameter names: a channel if it reads as one in full, and else a user of
that nickname. -/
def ofText (s : String) : Target :=
  match Channel.ofChars? s.toList with
  | some c => .channel c
  | none => .user (User.plain s)

/-- The text of a target; a user is addressed by nickname. -/
def text : Target → String
  | .channel c => c.text
  | .user u => u.nickname

instance : ToString Target := ⟨text⟩

end Target

/-- The network extension that a command belongs to. -/
inductive Origin where
  /-- The chat of Twitch. -/
  | twitch
deriving Repr, DecidableEq

/-- What the verb of a message is. -/
inductive Verb where
  | privmsg
  | notice
  | whisper
  | squery
  | join
  | part
  | mode
  | topic
  | nick
  | invite
  | kick
  | ping
  | pong
  | error
  | quit
  /-- A numeric reply. -/
  | numeric (code : Nat)
  /-- Any other verb. -/
  | other
deriving Repr, DecidableEq

namespace Verb

/-- The verbs that have fields of their own, with their texts. -/
def named : List (String × Verb) :=
  [("PRIVMSG", .privmsg), ("NOTICE", .notice), ("WHISPER", .whisper), ("SQUERY", .squery),
    ("JOIN", .join), ("PART", .part), ("MODE", .mode), ("TOPIC", .topic), ("NICK", .nick),
    ("INVITE", .invite), ("KICK", .kick), ("PING", .ping), ("PONG", .pong), ("ERROR", .error),
    ("QUIT", .quit)]

/-- The number that decimal digits write. -/
def number (digits : List Char) : Nat :=
  digits.foldl (fun n d => 10 * n + (d.toNat - '0'.toNat)) 0

/-- Sorts a verb.  Letter case matters. -/
def ofText (s : String) : Verb :=
  match named.lookup s with
  | some verb => verb
  | none => if Line.isNumeric s.toList then .numeric (number s.toList) else .other

end Verb

/-- What a message says. -/
inductive Content where
  /-- `PRIVMSG target :text`; `isAction` if the text was wrapped as an action. -/
  | privmsg (target : Target) (text : String) (isAction : Bool)
  /-- `NOTICE target :text`. -/
  | notice (target : Target) (text : String)
  /-- `WHISPER user :text`. -/
  | whisper (user : User) (text : String) (origin : Origin)
  /-- `SQUERY service :text`. -/
  | squery (user : User) (text : String)
  /-- `JOIN channel`. -/
  | join (channel : Channel)
  /-- `PART channel`. -/
  | part (channel : Channel)
  /-- `MODE channel modes`, the modes as they stand. -/
  | mode (channel : Channel) (modes : List String)
  /-- `TOPIC channel :topic`, or a question for the topic. -/
  | topic (channel : Channel) (topic : Option String)
  /-- `NICK nickname`. -/
  | nick (nickname : String)
  /-- `INVITE user channel`. -/
  | invite (user : User) (channel : Channel)
  /-- `KICK channels users :comment`. -/
  | kick (channels : List Channel) (users : List User) (comment : Option String)
  /-- `PING :host`. -/
  | ping (host : String)
  /-- `PONG :host`. -/
  | pong (host : String)
  /-- `ERROR :text`. -/
  | error (text : String)
  /-- `QUIT :text`. -/
  | quit (text : String)
  /-- A numeric reply. -/
  | numeric (code : Nat)
  /-- A message of any other verb. -/
  | other
deriving Repr, DecidableEq

/-- A message and what it says. -/
structure Command where
  /-- The message. -/
  message : Message
  /-- What it says. -/
  content : Content
deriving Repr, DecidableEq

/-- The kinds of things a line can be. -/
inductive Kind where
  | privmsg
  | notice
  | whisper
  | squery
  | join
  | part
  | mode
  | topic
  | nick
  | invite
  | kick
  | ping
  | pong
  | error
  | quit
  | numeric
  | other
  /-- A line that is no command. -/
  | invalid
deriving Repr, DecidableEq

/-- The kind of a command, by its content. -/
def Content.kind : Content → Kind
  | .privmsg .. => .privmsg
  | .notice .. => .notice
  | .whisper .. => .whisper
  | .squery .. => .squery
  | .join .. => .join
  | .part .. => .part
  | .mode .. => .mode
  | .topic .. => .topic
  | .nick .. => .nick
  | .invite .. => .invite
  | .kick .. => .kick
  | .ping .. => .ping
  | .pong .. => .pong
  | .error .. => .error
  | .quit .. => .quit
  | .numeric .. => .numeric
  | .other => .other

end RelayChat
