import RelayChat.Channel.Basic
import RelayChat.Text.LowerCase

/-!
# The channel that a name means

A caller may name a channel in any letter case and without its marker.  The name
is lower-cased as a whole, and if that is no channel a `#` is put before it.
-/

namespace RelayChat

/-- The channel that the characters of a name mean. -/
def Channel.normalChars? (name : List Char) : Option Channel :=
  let lowered := Text.lowerCase name
  match ofChars? lowered with
  | some c => some c
  | none => ofChars? ('#' :: lowered)

/-- **The channel that a name means.**  The error has the name as it was given. -/
def Channel.normalize (name : String) : Except ValueError Channel :=
  match normalChars? name.toList with
  | some c => .ok c
  | none => .error (.channel name)

end RelayChat
