import RelayChat.Text.Reading

/-!
# Host names

A host is a dotted host name or an IPv6 address.  Dotted decimal addresses are
host names too.  Labels may hold underscores, which some servers put there when
they make host names out of nicknames.

The IPv6 form is loose: any run of hexadecimal digits, colons and dots with a
colon in it.  It is tried first, because a host name would take only the part
before the first colon.
-/

namespace RelayChat.Host

open Text

/-- The characters of a label after its first. -/
def isLabelChar (c : Char) : Bool :=
  c.isAlphanum || c == '-' || c == '_'

/-- Takes a dotted host name. -/
def readName : List Char → Taken :=
  readLabels isLabelChar (· == '.')

/-- Whether `c` is a hexadecimal digit. -/
def isHexDigit (c : Char) : Bool :=
  c.isDigit || ('a' ≤ c && c ≤ 'f') || ('A' ≤ c && c ≤ 'F')

/-- The characters of an IPv6 address. -/
def isAddressChar (c : Char) : Bool :=
  isHexDigit c || c == ':' || c == '.'

/-- Takes an IPv6 address. -/
def readAddress (cs : List Char) : Taken :=
  match readRun isAddressChar cs with
  | some (address, left) => if ':' ∈ address then some (address, left) else none
  | none => none

/-- Takes a host: an IPv6 address or else a host name. -/
def read (cs : List Char) : Taken :=
  match readAddress cs with
  | some taken => some taken
  | none => readName cs

/-- Whether the whole text is a dotted host name. -/
def isName : List Char → Bool :=
  takesAll readName

/-- Whether the whole text is an IPv6 address. -/
def isAddress : List Char → Bool :=
  takesAll readAddress

end RelayChat.Host
