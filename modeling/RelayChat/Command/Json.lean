import RelayChat.Command.Received
import RelayChat.Json

/-!
# The JSON form of a command

A received line is written as a choice: the name of its kind over a record with
the message and the fields of that kind.  What is wrong with an invalid line is
not written; when such a line is read, `Received.unknownFault` takes its place.

The tags of a message form a map under keys of three parts.  JSON has only texts
for keys, so a message with any tag has no JSON form.
-/

namespace RelayChat

/-! ### Writing -/

/-- The JSON form of tags; only their absence has one. -/
def Tags.toJson (t : Tags) : Except JsonError Json :=
  if t.entries.isEmpty then .ok (.object []) else .error .keyNotText

/-- The JSON form of a source. -/
def Source.toJson : Source → Json
  | .server name => .choice "Server" [("name", .text name)]
  | .nickname nick user host =>
    .choice "Nickname"
      [("nick", .text nick), ("user", .textOrNull user), ("host", .textOrNull host)]

/-- The JSON form of a message. -/
def Message.toJson (m : Message) : Except JsonError Json := do
  let tags ← m.tags.toJson
  return .object
    [("tags", tags), ("prefix", (m.source.map Source.toJson).getD .null), ("verb", .text m.verb),
      ("params", .texts m.params), ("trailing", .textOrNull m.trailing)]

/-- The JSON form of a marker. -/
def Marker.toJson : Marker → Json
  | .network => .text "Network"
  | .modeless => .text "Modeless"
  | .onServer => .text "Local"
  | .safe id => .object [("Safe", .text id)]

/-- The JSON form of a channel. -/
def Channel.toJson (c : Channel) : Json :=
  .object [("prefix", c.marker.toJson), ("name", .text c.name)]

/-- The JSON form of a user. -/
def User.toJson (u : User) : Json :=
  .object
    [("nickname", .text u.nickname), ("user", .textOrNull u.user), ("host", .textOrNull u.host)]

/-- The JSON form of a target. -/
def Target.toJson : Target → Json
  | .channel c => .object [("Channel", c.toJson)]
  | .user u => .object [("User", u.toJson)]

/-- The JSON form of an origin. -/
def Origin.toJson : Origin → Json
  | .twitch => .text "Twitch"

/-- The name of a kind. -/
def Kind.name : Kind → String
  | .privmsg => "Privmsg"
  | .notice => "Notice"
  | .whisper => "Whisper"
  | .squery => "Squery"
  | .join => "Join"
  | .part => "Part"
  | .mode => "Mode"
  | .topic => "Topic"
  | .nick => "Nick"
  | .invite => "Invite"
  | .kick => "Kick"
  | .ping => "Ping"
  | .pong => "Pong"
  | .error => "Error"
  | .quit => "Quit"
  | .numeric => "NumericReply"
  | .other => "Generic"
  | .invalid => "Invalid"

/-- The fields of a command beside its message. -/
def Content.toFields : Content → List (String × Json)
  | .privmsg target text isAction =>
    [("target", target.toJson), ("text", .text text), ("is_action", .bool isAction)]
  | .notice target text => [("target", target.toJson), ("text", .text text)]
  | .whisper user text origin =>
    [("target", user.toJson), ("text", .text text), ("origin", origin.toJson)]
  | .squery user text => [("target", user.toJson), ("text", .text text)]
  | .join channel => [("channel", channel.toJson)]
  | .part channel => [("channel", channel.toJson)]
  | .mode channel modes => [("channel", channel.toJson), ("modes", .texts modes)]
  | .topic channel text => [("channel", channel.toJson), ("topic", .textOrNull text)]
  | .nick nickname => [("nickname", .text nickname)]
  | .invite user channel => [("user", user.toJson), ("channel", channel.toJson)]
  | .kick channels users comment =>
    [("channels", .array (channels.map Channel.toJson)), ("users", .array (users.map User.toJson)),
      ("comment", .textOrNull comment)]
  | .ping host => [("host", .text host)]
  | .pong host => [("host", .text host)]
  | .error text => [("text", .text text)]
  | .quit text => [("text", .text text)]
  | .numeric code => [("code", .nat code)]
  | .other => []

/-- **The JSON form of a received line**, which one with tags has not. -/
def Received.toJson : Received → Except JsonError Json
  | .command c => do
    let m ← c.message.toJson
    return .choice c.content.kind.name (("message", m) :: c.content.toFields)
  | .invalid line message _ => do
    let m ← match message with
      | some m => m.toJson
      | none => pure .null
    return .choice Kind.invalid.name [("raw_line", .text line), ("message", m)]

/-! ### Reading -/

/-- Reads tags; there can be none. -/
def Tags.ofJson? : Json → Option Tags
  | .object [] => some ∅
  | _ => none

/-- Reads a text that may be null or absent. -/
def Json.optText? (members : List (String × Json)) (name : String) : Option (Option String) :=
  Json.fieldOr? members name (Json.orNull? Json.text?) none

/-- Reads a source. -/
def Source.ofJson? (j : Json) : Option Source := do
  match ← j.choice? with
  | ("Server", record) => return .server (← Json.field? (← record.members?) "name" Json.text?)
  | ("Nickname", record) =>
    let fields ← record.members?
    return .nickname (← Json.field? fields "nick" Json.text?) (← Json.optText? fields "user")
      (← Json.optText? fields "host")
  | _ => none

/-- Reads a message. -/
def Message.ofJson? (j : Json) : Option Message := do
  let fields ← j.members?
  return {
    tags := ← Json.field? fields "tags" Tags.ofJson?
    source := ← Json.fieldOr? fields "prefix" (Json.orNull? Source.ofJson?) none
    verb := ← Json.field? fields "verb" Json.text?
    params := ← Json.field? fields "params" (Json.list? Json.text?)
    trailing := ← Json.optText? fields "trailing" }

/-- Reads a marker. -/
def Marker.ofJson? : Json → Option Marker
  | .object [("Safe", .text id)] => some (.safe id)
  | j =>
    match j.name? with
    | some "Network" => some .network
    | some "Modeless" => some .modeless
    | some "Local" => some .onServer
    | _ => none

/-- Reads a channel; its parts are taken as they are. -/
def Channel.ofJson? (j : Json) : Option Channel := do
  let fields ← j.members?
  return ⟨← Json.field? fields "prefix" Marker.ofJson?, ← Json.field? fields "name" Json.text?⟩

/-- Reads a user; its parts are taken as they are. -/
def User.ofJson? (j : Json) : Option User := do
  let fields ← j.members?
  return ⟨← Json.field? fields "nickname" Json.text?, ← Json.optText? fields "user",
    ← Json.optText? fields "host"⟩

/-- Reads a target. -/
def Target.ofJson? : Json → Option Target
  | .object [("Channel", j)] => (Channel.ofJson? j).map .channel
  | .object [("User", j)] => (User.ofJson? j).map .user
  | _ => none

/-- Reads an origin. -/
def Origin.ofJson? (j : Json) : Option Origin :=
  match j.name? with
  | some "Twitch" => some .twitch
  | _ => none

/-- Reads the fields that belong to a kind. -/
def Content.ofFields? (kind : String) (fields : List (String × Json)) : Option Content :=
  let text (name : String) := Json.field? fields name Json.text?
  let target := Json.field? fields "target" Target.ofJson?
  let recipient := Json.field? fields "target" User.ofJson?
  let channel := Json.field? fields "channel" Channel.ofJson?
  match kind with
  | "Privmsg" => do
    return .privmsg (← target) (← text "text") (← Json.field? fields "is_action" Json.bool?)
  | "Notice" => do return .notice (← target) (← text "text")
  | "Whisper" => do
    return .whisper (← recipient) (← text "text") (← Json.field? fields "origin" Origin.ofJson?)
  | "Squery" => do return .squery (← recipient) (← text "text")
  | "Join" => do return .join (← channel)
  | "Part" => do return .part (← channel)
  | "Mode" => do
    return .mode (← channel) (← Json.field? fields "modes" (Json.list? Json.text?))
  | "Topic" => do return .topic (← channel) (← Json.optText? fields "topic")
  | "Nick" => do return .nick (← text "nickname")
  | "Invite" => do return .invite (← Json.field? fields "user" User.ofJson?) (← channel)
  | "Kick" => do
    return .kick (← Json.field? fields "channels" (Json.list? Channel.ofJson?))
      (← Json.field? fields "users" (Json.list? User.ofJson?)) (← Json.optText? fields "comment")
  | "Ping" => do return .ping (← text "host")
  | "Pong" => do return .pong (← text "host")
  | "Error" => do return .error (← text "text")
  | "Quit" => do return .quit (← text "text")
  | "NumericReply" => do return .numeric (← Json.field? fields "code" (Json.natUpTo? 65535))
  | "Generic" => some .other
  | _ => none

/-- What is said to be wrong with an invalid line that was read from JSON. -/
def Received.unknownFault : LineFault :=
  .line ⟨"", 0, none⟩

/-- Reads a received line. -/
def Received.ofJson? (j : Json) : Option Received := do
  let (kind, record) ← j.choice?
  let fields ← record.members?
  if kind = Kind.invalid.name then
    return .invalid (← Json.field? fields "raw_line" Json.text?)
      (← Json.fieldOr? fields "message" (Json.orNull? Message.ofJson?) none) unknownFault
  else
    return .command ⟨← Json.field? fields "message" Message.ofJson?,
      ← Content.ofFields? kind fields⟩

end RelayChat
