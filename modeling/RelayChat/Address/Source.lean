import RelayChat.Address.Host
import RelayChat.Address.User

/-!
# The source of a message

A line may begin with the name of who sent it: a server, or a user by nickname,
to which a host or a user and a host may be added.

The two forms overlap, since `bob` is a host name as well as a nickname.  The
server form is tried first and holds only if it reaches the end of the source;
otherwise the text is read again from its start as a user.  Where a source ends
depends on where it stands: `read` is told by `ends`, which looks at what is
left.  In a line a source ends before a space, by itself at the end of the text.
-/

namespace RelayChat

/-- Who a message comes from. -/
inductive Source where
  /-- A server. -/
  | server (name : String)
  /-- A user; a user name means something only beside a host. -/
  | nickname (nick : String) (user host : Option String)
deriving Repr, DecidableEq

namespace Source

open Text

/-! ### Parts -/

/-- The nickname, of a user. -/
def nick? : Source → Option String
  | .server _ => none
  | .nickname nick _ _ => some nick

/-- The user name, of a user. -/
def user? : Source → Option String
  | .server _ => none
  | .nickname _ user _ => user

/-- The host; a server's is its name. -/
def host? : Source → Option String
  | .server name => some name
  | .nickname _ _ host => host

/-- The user that the source names, if it is no server. -/
def toUser? : Source → Option User
  | .server _ => none
  | .nickname nick user host => some ⟨nick, user, host⟩

/-! ### Printing -/

/-- The characters of a source.  A user name is written only together with a host. -/
def chars : Source → List Char
  | .server name => name.toList
  | .nickname nick _ none => nick.toList
  | .nickname nick none (some host) => nick.toList ++ '@' :: host.toList
  | .nickname nick (some user) (some host) =>
    nick.toList ++ '!' :: user.toList ++ '@' :: host.toList

/-- The text of a source. -/
def text (s : Source) : String :=
  String.ofList s.chars

instance : ToString Source := ⟨text⟩

/-! ### Reading -/

/-- The characters that may begin a nickname: letters, digits, and the brackets and signs that
surround the letters in ASCII. -/
def isNickStart (c : Char) : Bool :=
  c.isAlphanum || ('[' ≤ c && c ≤ '\x60') || ('\x7b' ≤ c && c ≤ '\x7d')

/-- The characters of a nickname after its first. -/
def isNickChar (c : Char) : Bool :=
  isNickStart c || c == '-'

/-- The characters of a user name. -/
def isUserChar (c : Char) : Bool :=
  !(c == ' ' || c == '\x00' || c == '\r' || c == '\n' || c == '@')

/-- Takes a nickname. -/
def readNick : List Char → Taken
  | [] => none
  | c :: rest =>
    if isNickStart c then some (c :: rest.takeWhile isNickChar, rest.dropWhile isNickChar)
    else none

/-- Takes `@host` or `!user@host`: the parts and what is left. -/
def readMask : List Char → Option (Option (List Char) × List Char × List Char)
  | '@' :: rest => (Host.read rest).map fun (host, left) => (none, host, left)
  | '!' :: rest =>
    match readRun isUserChar rest with
    | some (user, '@' :: rest) => (Host.read rest).map fun (host, left) => (some user, host, left)
    | _ => none
  | _ => none

/-- Reads a user from the front of `cs`.  On failure, the text where reading stopped. -/
def readUser (ends : List Char → Bool) (cs : List Char) :
    Except (List Char) (Source × List Char) :=
  match readNick cs with
  | none => .error cs
  | some (nick, rest) =>
    let (user, host, left) :=
      match readMask rest with
      | some (user, host, left) => (user, some host, left)
      | none => (none, none, rest)
    if ends left then
      .ok (.nickname (String.ofList nick) (user.map String.ofList) (host.map String.ofList), left)
    else .error left

/-- Reads a source from the front of `cs`, up to where `ends` holds of what is left.  On
failure, the text where reading it as a user stopped. -/
def read (ends : List Char → Bool) (cs : List Char) :
    Except (List Char) (Source × List Char) :=
  match Host.read cs with
  | some (name, left) =>
    if ends left then .ok (.server (String.ofList name), left) else readUser ends cs
  | none => readUser ends cs

/-- Reads a source that is the whole of `cs`. -/
def ofChars? (cs : List Char) : Option Source :=
  match read List.isEmpty cs with
  | .ok (source, _) => some source
  | .error _ => none

/-- Reads a source by itself. -/
def parse (s : String) : Except ValueError Source :=
  match ofChars? s.toList with
  | some source => .ok source
  | none => .error (.source s)

end Source

end RelayChat
