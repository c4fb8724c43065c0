import RelayChat.Text.Quoted

/-!
# Text that is no value of its type

The values that a caller may give as text are capabilities, channels, tag keys,
users and message sources.  `ValueError` says which of them a text is not.
-/

namespace RelayChat

/-- A text that does not follow the grammar of the type it was given for. -/
inductive ValueError where
  /-- The text is no capability. -/
  | capability (text : String)
  /-- The text is no channel. -/
  | channel (text : String)
  /-- The text is no tag key. -/
  | tagKey (text : String)
  /-- The text is no user. -/
  | user (text : String)
  /-- The text is no message source. -/
  | source (text : String)
deriving Repr, DecidableEq

/-- What the error says. -/
def ValueError.message : ValueError → String
  | .capability text => "invalid capability: " ++ Text.quoted text
  | .channel text => "invalid channel: " ++ Text.quoted text
  | .tagKey text => "invalid tag key: " ++ Text.quoted text
  | .user text => "invalid user: " ++ Text.quoted text
  | .source text => "invalid prefix: " ++ Text.quoted text

end RelayChat
