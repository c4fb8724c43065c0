import RelayChat.Text.Reading
import RelayChat.ValueError

/-!
# Capabilities

A capability is a feature that a client asks a server for, written `name` or
`vendor/name`.  A vendor is a domain name: labels of letters and digits joined
by dots, with single hyphens inside.

Capabilities are ordered by vendor, none first, then by name.
-/

namespace RelayChat

/-- A capability. -/
structure Capability where
  /-- Whose extension it is, if it is nobody's standard. -/
  vendor : Option String
  /-- The name. -/
  name : String
deriving Repr, DecidableEq

namespace Capability

open Text

instance : Ord Capability where
  compare := compareLex (compareOn vendor) (compareOn name)

/-- The characters of a capability. -/
def chars (c : Capability) : List Char :=
  (match c.vendor with | some vendor => vendor.toList ++ ['/'] | none => []) ++ c.name.toList

/-- The text of a capability. -/
def text (c : Capability) : String :=
  String.ofList c.chars

instance : ToString Capability := ⟨text⟩

/-- The characters of a name. -/
def isNameChar (c : Char) : Bool :=
  c.isAlphanum || c == '-'

/-- Takes a vendor. -/
def readVendor : List Char → Taken :=
  readLabels Char.isAlphanum fun c => c == '-' || c == '.'

/-- Takes a vendor and the slash after it, if that is what the text begins with. -/
def splitVendor (cs : List Char) : Option (List Char) × List Char :=
  match readVendor cs with
  | some (vendor, '/' :: rest) => (some vendor, rest)
  | _ => (none, cs)

/-- Reads a capability that is the whole of `cs`. -/
def ofChars? (cs : List Char) : Option Capability :=
  let (vendor, rest) := splitVendor cs
  match readRun isNameChar rest with
  | some (name, []) => some ⟨vendor.map String.ofList, String.ofList name⟩
  | _ => none

/-- Reads a capability. -/
def parse (s : String) : Except ValueError Capability :=
  match ofChars? s.toList with
  | some c => .ok c
  | none => .error (.capability s)

end Capability

end RelayChat
