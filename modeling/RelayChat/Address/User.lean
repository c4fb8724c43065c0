import RelayChat.ValueError

/-!
# Users

A user as a command names one: a nickname, and the user and host parts of a mask
where they are known.

**Two users are the same when their nicknames are**, letter case included; the
rest of a mask is information about them.  That is `User.same`.  Equality of
masks, part by part, stays the equality `=` of the type.

A mask `nick!user@host` is split at its first `@`, and what comes before at its
first `!`.  Whether the parts are well formed is not asked; they may only not be
empty or hold a space.
-/

namespace RelayChat

/-- A user with as much of the mask as is known. -/
structure User where
  /-- The nickname. -/
  nickname : String
  /-- The user name. -/
  user : Option String
  /-- The host. -/
  host : Option String
deriving Repr, DecidableEq

namespace User

/-- A user known by nickname only. -/
def plain (nickname : String) : User :=
  ⟨nickname, none, none⟩

/-- Whether two users are the same one: their nicknames agree. -/
def same (a b : User) : Bool :=
  a.nickname = b.nickname

/-- Splits a text at the first `sep`, which is dropped: what comes before it, and what comes
after it if it occurs. -/
def cut (sep : Char) (cs : List Char) : List Char × Option (List Char) :=
  match cs.dropWhile (· != sep) with
  | [] => (cs, none)
  | _ :: after => (cs.takeWhile (· != sep), some after)

/-- The characters of the mask `nick!user@host`, without the parts that are not known. -/
def chars (u : User) : List Char :=
  u.nickname.toList
    ++ (match u.user with | some user => '!' :: user.toList | none => [])
    ++ (match u.host with | some host => '@' :: host.toList | none => [])

/-- The text of the mask. -/
def text (u : User) : String :=
  String.ofList u.chars

instance : ToString User := ⟨text⟩

/-- Reads a mask, or `none` if a part is empty or there is a space. -/
def ofChars? (cs : List Char) : Option User :=
  let (before, host) := cut '@' cs
  let (nickname, user) := cut '!' before
  if nickname = [] ∨ user = some [] ∨ host = some [] ∨ ' ' ∈ cs then none
  else some ⟨String.ofList nickname, user.map String.ofList, host.map String.ofList⟩

/-- Reads a mask. -/
def parse (s : String) : Except ValueError User :=
  match ofChars? s.toList with
  | some u => .ok u
  | none => .error (.user s)

end User

end RelayChat
