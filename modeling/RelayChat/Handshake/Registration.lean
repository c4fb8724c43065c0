import RelayChat.Failure

/-!
# What to register with

The identity that a client presents and the capabilities it asks for.  A user
name or a real name that is not given is the nickname.
-/

namespace RelayChat

/-- Identity and capabilities. -/
structure Registration where
  /-- The nickname. -/
  nickname : String
  /-- The user name, if not the nickname. -/
  user : Option String := none
  /-- The real name, if not the nickname. -/
  realname : Option String := none
  /-- The server's password, if it wants one. -/
  password : Option String := none
  /-- The capabilities to ask for, one request each. -/
  capabilities : List Capability := []
  /-- Whether to ask to be invisible. -/
  invisible : Bool := false
  /-- Whether to ask for wallops. -/
  wallops : Bool := false
deriving Repr, DecidableEq

namespace Registration

/-- A nickname and nothing else. -/
def ofNickname (nickname : String) : Registration :=
  { nickname }

/-- The user name to present. -/
def userName (r : Registration) : String :=
  r.user.getD r.nickname

/-- The real name to present. -/
def realName (r : Registration) : String :=
  r.realname.getD r.nickname

/-- The mode bit that asks for wallops. -/
def wallopsBit : Nat := 4

/-- The mode bit that asks to be invisible. -/
def invisibleBit : Nat := 8

/-- The mode bits to present. -/
def modeBits (r : Registration) : Nat :=
  (if r.wallops then wallopsBit else 0) + (if r.invisible then invisibleBit else 0)

/-- Adds capabilities that are given as text; the first that is malformed is the error. -/
def withCapabilities (r : Registration) (names : List String) : Except ConfigError Registration :=
  match names.mapM Capability.parse with
  | .ok capabilities => .ok { r with capabilities := r.capabilities ++ capabilities }
  | .error e => .error (.invalidCapability e)

/-- Whether one can register with this: there must be a nickname. -/
def validate (r : Registration) : Except ConfigError Unit :=
  if r.nickname.isEmpty then .error .missingNickname else .ok ()

end Registration

end RelayChat
