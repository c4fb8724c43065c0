import RelayChat.Client.Config
import RelayChat.Json

/-!
# The JSON form of a configuration

One object holds all ten fields, those of the registration beside the others.
Every field may be left out and then has its default; unknown members are
ignored.  Only where a field may be missing in the configuration itself may it be
null.  Capabilities are texts, and each must read as one.  The fields of an
endpoint are all required; they are written under their names, and a list of them
in order reads as well.
-/

namespace RelayChat

/-- The JSON form of an endpoint. -/
def Endpoint.toJson : Endpoint → Json
  | .tcp host port tls =>
    .choice "tcp" [("host", .text host), ("port", .nat port.toNat), ("tls", .bool tls)]
  | .webSocket url => .choice "websocket" [("url", .text url)]

/-- Reads a port. -/
def Endpoint.portOfJson? (j : Json) : Option UInt16 :=
  (j.natUpTo? (UInt16.size - 1)).map UInt16.ofNat

/-- Reads an endpoint. -/
def Endpoint.ofJson? (j : Json) : Option Endpoint := do
  match ← j.choice? with
  | ("tcp", record) =>
    let fields ← record.fields? ["host", "port", "tls"]
    return .tcp (← Json.field? fields "host" Json.text?)
      (← Json.field? fields "port" portOfJson?) (← Json.field? fields "tls" Json.bool?)
  | ("websocket", record) =>
    let fields ← record.fields? ["url"]
    return .webSocket (← Json.field? fields "url" Json.text?)
  | _ => none

/-- The name of a policy. -/
def ErrorPolicy.name : ErrorPolicy → String
  | .emit => "emit"
  | .suppress => "suppress"
  | .propagate => "propagate"

/-- The policy of a name. -/
def ErrorPolicy.ofName? (name : String) : Option ErrorPolicy :=
  [ErrorPolicy.emit, .suppress, .propagate].find? (·.name = name)

/-- Reads a policy. -/
def ErrorPolicy.ofJson? (j : Json) : Option ErrorPolicy :=
  j.name?.bind ofName?

/-- Reads a capability, which must be well formed. -/
def Capability.ofJson? (j : Json) : Option Capability :=
  j.text?.bind fun s => ofChars? s.toList

namespace ClientConfig

/-- Reads a capacity. -/
def capacityOfJson? (j : Json) : Option UInt64 :=
  (j.natUpTo? (UInt64.size - 1)).map UInt64.ofNat

/-- **The JSON form of a configuration.** -/
def toJson (c : ClientConfig) : Json :=
  let r := c.registration
  .object
    [("nickname", .text r.nickname), ("user", .textOrNull r.user),
      ("realname", .textOrNull r.realname), ("password", .textOrNull r.password),
      ("capabilities", .texts (r.capabilities.map Capability.text)),
      ("invisible", .bool r.invisible), ("receive_wallops", .bool r.wallops),
      ("endpoint", (c.endpoint.map Endpoint.toJson).getD .null),
      ("parse_errors", .text c.errors.name), ("inbound_capacity", .nat c.capacity.toNat)]

/-- **Reads a configuration.** -/
def ofJson? (j : Json) : Option ClientConfig := do
  let fields ← j.members?
  let optText (name : String) := Json.fieldOr? fields name (Json.orNull? Json.text?) none
  return {
    registration := {
      nickname := ← Json.fieldOr? fields "nickname" Json.text? ""
      user := ← optText "user"
      realname := ← optText "realname"
      password := ← optText "password"
      capabilities := ← Json.fieldOr? fields "capabilities" (Json.list? Capability.ofJson?) []
      invisible := ← Json.fieldOr? fields "invisible" Json.bool? false
      wallops := ← Json.fieldOr? fields "receive_wallops" Json.bool? false }
    endpoint := ← Json.fieldOr? fields "endpoint" (Json.orNull? Endpoint.ofJson?) none
    errors := ← Json.fieldOr? fields "parse_errors" ErrorPolicy.ofJson? .emit
    capacity := ← Json.fieldOr? fields "inbound_capacity" capacityOfJson? defaultCapacity }

end ClientConfig

end RelayChat
