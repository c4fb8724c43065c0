import RelayChat.Text.Reading
import RelayChat.ValueError

/-!
# Channels

A channel is a marker and a name.  The marker says how far the channel reaches:
`#` over the network, `+` over the network and without modes, `&` on one server,
and `!` followed by five capital letters or digits for a channel that keeps its
identity by that number.
-/

namespace RelayChat

/-- What a channel's text begins with. -/
inductive Marker where
  /-- A channel of the whole network, `#`. -/
  | network
  /-- A channel without modes, `+`. -/
  | modeless
  /-- A channel of one server, `&`. -/
  | onServer
  /-- A safe channel, `!` and its five-character number. -/
  | safe (id : String)
deriving Repr, DecidableEq

/-- The characters of a marker. -/
def Marker.chars : Marker → List Char
  | .network => ['#']
  | .modeless => ['+']
  | .onServer => ['&']
  | .safe id => '!' :: id.toList

/-- A channel. -/
structure Channel where
  /-- The kind of channel. -/
  marker : Marker
  /-- The name after the marker. -/
  name : String
deriving Repr, DecidableEq

namespace Channel

open Text

/-- The characters of a channel. -/
def chars (c : Channel) : List Char :=
  c.marker.chars ++ c.name.toList

/-- The text of a channel. -/
def text (c : Channel) : String :=
  String.ofList c.chars

instance : ToString Channel := ⟨text⟩

/-- The characters of a safe channel's number. -/
def isSafeChar (c : Char) : Bool :=
  c.isUpper || c.isDigit

/-- The characters of a name. -/
def isNameChar (c : Char) : Bool :=
  !(c == ' ' || c == '\x00' || c == '\r' || c == '\n' || c == ':' || c == ',' || c == '\x07')

/-- Reads a marker from the front of a text: the marker and what is left. -/
def readMarker : List Char → Option (Marker × List Char)
  | '#' :: rest => some (.network, rest)
  | '+' :: rest => some (.modeless, rest)
  | '&' :: rest => some (.onServer, rest)
  | '!' :: a :: b :: c :: d :: e :: rest =>
    if [a, b, c, d, e].all isSafeChar then
      some (.safe (String.ofList [a, b, c, d, e]), rest)
    else none
  | _ => none

/-- Reads a channel that is the whole of `cs`. -/
def ofChars? (cs : List Char) : Option Channel :=
  match readMarker cs with
  | some (marker, rest) =>
    match readRun isNameChar rest with
    | some (name, []) => some ⟨marker, String.ofList name⟩
    | _ => none
  | none => none

/-- Reads a channel. -/
def parse (s : String) : Except ValueError Channel :=
  match ofChars? s.toList with
  | some c => .ok c
  | none => .error (.channel s)

/-- Whether the whole text is a channel. -/
def isChannel (s : String) : Bool :=
  (ofChars? s.toList).isSome

end Channel

end RelayChat
