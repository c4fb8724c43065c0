/-!
# JSON values

The value type that commands and configurations are written to and read from.
It is the data model alone: how a value is laid out as text is left to whoever
prints it.

A record is an object with one member per field.  A choice among alternatives
with fields is an object with the alternative's name for its one member; an
alternative without fields is its name as a text.
-/

namespace RelayChat

/-- A JSON value. -/
inductive Json where
  /-- The value that stands for nothing. -/
  | null
  /-- A truth value. -/
  | bool (b : Bool)
  /-- The number `mantissa * 10 ^ -exponent`. -/
  | number (mantissa : Int) (exponent : Nat)
  /-- A text. -/
  | text (s : String)
  /-- A list of values. -/
  | array (items : List Json)
  /-- Values under names. -/
  | object (members : List (String × Json))
deriving Repr, Inhabited

/-- Why a value has no JSON form. -/
inductive JsonError where
  /-- A map has a key that is no text. -/
  | keyNotText
deriving Repr, DecidableEq

/-- What the error says. -/
def JsonError.message : JsonError → String
  | .keyNotText => "key must be a string"

namespace Json

/-! ### Writing -/

/-- A natural number. -/
def nat (n : Nat) : Json := .number n 0

/-- A text, or null. -/
def textOrNull : Option String → Json
  | some s => .text s
  | none => .null

/-- A list of texts. -/
def texts (ss : List String) : Json := .array (ss.map .text)

/-- An alternative with fields. -/
def choice (name : String) (fields : List (String × Json)) : Json :=
  .object [(name, .object fields)]

/-! ### Reading -/

/-- The members of an object. -/
def members? : Json → Option (List (String × Json))
  | .object members => some members
  | _ => none

/-- The items of an array. -/
def items? : Json → Option (List Json)
  | .array items => some items
  | _ => none

/-- A text. -/
def text? : Json → Option String
  | .text s => some s
  | _ => none

/-- A truth value. -/
def bool? : Json → Option Bool
  | .bool b => some b
  | _ => none

/-- A whole number from zero up to and including `max`, written without a fraction. -/
def natUpTo? (max : Nat) : Json → Option Nat
  | .number (.ofNat n) 0 => if n ≤ max then some n else none
  | _ => none

/-- Null as nothing, and anything else by `read`. -/
def orNull? {α : Type} (read : Json → Option α) : Json → Option (Option α)
  | .null => some none
  | j => (read j).map some

/-- A list, each item by `read`. -/
def list? {α : Type} (read : Json → Option α) (j : Json) : Option (List α) :=
  j.items?.bind (·.mapM read)

/-- The fields of a record by name: the members of an object, which may hold others as well, or
the items of a list with one for each of `names`, in that order. -/
def fields? (names : List String) : Json → Option (List (String × Json))
  | .object members => some members
  | .array items => if items.length = names.length then some (names.zip items) else none
  | _ => none

/-- An alternative with fields: its name, and its record. -/
def choice? : Json → Option (String × Json)
  | .object [(name, record)] => some (name, record)
  | _ => none

/-- An alternative without fields; an object of its name with null for a value reads as well. -/
def name? : Json → Option String
  | .text s => some s
  | .object [(name, .null)] => some name
  | _ => none

/-- The member of that name, which must be there, by `read`. -/
def field? {α : Type} (members : List (String × Json)) (name : String) (read : Json → Option α) :
    Option α :=
  (members.lookup name).bind read

/-- The member of that name by `read`, or `absent` without one. -/
def fieldOr? {α : Type} (members : List (String × Json)) (name : String)
    (read : Json → Option α) (absent : α) : Option α :=
  match members.lookup name with
  | some j => read j
  | none => some absent

end Json

end RelayChat
