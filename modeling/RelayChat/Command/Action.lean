/-!
# Actions

A client says that its user does something, rather than says something, by
wrapping the text of a PRIVMSG: `\x01ACTION `, the text, `\x01`.
-/

namespace RelayChat.Action

/-- The character that marks a wrapped text. -/
def delimiter : Char := '\x01'

/-- What a wrapped text begins with. -/
def opening : List Char := delimiter :: "ACTION ".toList

/-- The text inside a wrapped one, or `none` for a text that is not wrapped. -/
def unwrap? (body : List Char) : Option (List Char) :=
  (opening.isPrefixOf? body).bind fun rest =>
    if rest.getLast? = some delimiter then some rest.dropLast else none

/-- A text wrapped as an action. -/
def wrap (text : List Char) : List Char :=
  opening ++ text ++ [delimiter]

/-- `wrap` on strings. -/
def wrapText (s : String) : String :=
  String.ofList (wrap s.toList)

/-- `unwrap?` on strings. -/
def unwrapText? (s : String) : Option String :=
  (unwrap? s.toList).map String.ofList

end RelayChat.Action
