import RelayChat.Capability
import RelayChat.Command.Classify

/-!
# Failures

Each stage of the library fails in its own way: a line that cannot be read, a
message that is no command, a configuration that cannot be used, a value that is
malformed, a transport that does not transport.  `Failure` is any of them, as a
caller of the client sees it.
-/

namespace RelayChat

/-- A configuration that cannot be used. -/
inductive ConfigError where
  /-- There is no nickname. -/
  | missingNickname
  /-- There is no transport to connect over. -/
  | missingTransport
  /-- A capability is malformed. -/
  | invalidCapability (e : ValueError)
deriving Repr, DecidableEq

/-- What the error says. -/
def ConfigError.message : ConfigError → String
  | .missingNickname => "a nickname must be provided"
  | .missingTransport => "a transport must be provided"
  | .invalidCapability e => "invalid capability: " ++ e.message

/-- What a transport reports. -/
inductive TransportError where
  /-- The connection failed, with the reason given. -/
  | io (reason : String)
  /-- A line came in that is longer than the limit, in bytes. -/
  | lineTooLong (actual limit : Nat)
  /-- The transport has been disposed of. -/
  | disposed
deriving Repr, DecidableEq

/-- What the error says. -/
def TransportError.message : TransportError → String
  | .io reason => "i/o error: " ++ reason
  | .lineTooLong actual limit =>
    "line too long: " ++ toString actual ++ " bytes (limit " ++ toString limit ++ ")"
  | .disposed => "transport disposed"

/-- Any failure that a client can meet. -/
inductive Failure where
  /-- A line could not be read. -/
  | line (e : LineError)
  /-- A line was read and its message is no command; the line is without its end. -/
  | command (line : String) (cause : CommandError)
  /-- The configuration cannot be used. -/
  | config (e : ConfigError)
  /-- A value that was given is malformed. -/
  | value (e : ValueError)
  /-- The transport failed. -/
  | transport (e : TransportError)
deriving Repr, DecidableEq

namespace Failure

/-- What the failure says. -/
def message : Failure → String
  | .line e => e.message
  | .command text cause => "invalid command in " ++ Text.quoted text ++ ": " ++ cause.message
  | .config e => e.message
  | .value e => e.message
  | .transport e => e.message

/-- What the failure says lies under it, if it names a reason of its own. -/
def cause? : Failure → Option String
  | .command _ cause => some cause.message
  | .config (.invalidCapability e) => some e.message
  | .transport (.io reason) => some reason
  | _ => none

end Failure

end RelayChat
