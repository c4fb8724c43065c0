import RelayChat.Command.Classify

/-!
# The canonical form of a command

A command is written from its fields: tags, source and verb as they were, then
the fields in their positions.  Texts that may hold anything go into the trailing
parameter; the last mode of a MODE and the name of a NICK go there only if no
other parameter can hold them.
-/

namespace RelayChat

/-- Whether only the trailing parameter can hold a text: it is empty, begins with a colon or
holds a space. -/
def Message.needsTrailing (s : String) : Bool :=
  s.toList == [] || s.toList.head? == some ':' || s.toList.contains ' '

/-- Adds a text in the next position: as a parameter, or as the trailing one if it must be. -/
def Message.withText (m : Message) (s : String) : Message :=
  if Message.needsTrailing s then m.withTrailing s else m.withParam s

/-- Adds texts in the next positions, of which only the last can be the trailing one. -/
def Message.withTexts (m : Message) : List String → Message
  | [] => m
  | [last] => m.withText last
  | text :: rest => (m.withParam text).withTexts rest

/-- Sets the trailing parameter if there is one to set. -/
def Message.withTrailing? (m : Message) : Option String → Message
  | some trailing => m.withTrailing trailing
  | none => m

/-- Texts with commas between them. -/
def Message.ofCommaList (texts : List String) : String :=
  String.ofList ([','].intercalate (texts.map String.toList))

/-- **The canonical message of a command.** -/
def Command.toMessage (c : Command) : Message :=
  let m := c.message.envelope
  match c.content with
  | .privmsg target text isAction =>
    (m.withParam target.text).withTrailing (if isAction then Action.wrapText text else text)
  | .notice target text => (m.withParam target.text).withTrailing text
  | .whisper user text _ => (m.withParam user.text).withTrailing text
  | .squery user text => (m.withParam user.text).withTrailing text
  | .join channel => m.withParam channel.text
  | .part channel => m.withParam channel.text
  | .mode channel modes => (m.withParam channel.text).withTexts modes
  | .topic channel topic => (m.withParam channel.text).withTrailing? topic
  | .nick nickname => m.withText nickname
  | .invite user channel => (m.withParam user.text).withParam channel.text
  | .kick channels users comment =>
    ((m.withParam (Message.ofCommaList (channels.map Channel.text))).withParam
      (Message.ofCommaList (users.map User.text))).withTrailing? comment
  | .ping host => m.withTrailing host
  | .pong host => m.withTrailing host
  | .error text => m.withTrailing text
  | .quit text => m.withTrailing text
  | .numeric _ => c.message
  | .other => c.message

/-- The line that a command is written as. -/
def Command.text (c : Command) : String :=
  c.toMessage.text

instance : ToString Command := ⟨Command.text⟩

end RelayChat
