import RelayChat.Chunk
import RelayChat.Handshake.Machine

/-!
# Client configurations

What a client needs to know before it starts: what to register with, where to
connect, what to do with lines that are no commands, and how many received lines
may wait to be read.
-/

namespace RelayChat

/-- Where to connect. -/
inductive Endpoint where
  /-- A host and port, with or without TLS. -/
  | tcp (host : String) (port : UInt16) (tls : Bool)
  /-- A WebSocket address. -/
  | webSocket (url : String)
deriving Repr, DecidableEq

/-- How many received lines may wait to be read in a client that is not told another number. -/
def ClientConfig.defaultCapacity : UInt64 := 256

/-- A client configuration. -/
structure ClientConfig where
  /-- What to register with. -/
  registration : Registration
  /-- Where to connect, if the client is to open the connection itself. -/
  endpoint : Option Endpoint := none
  /-- What to do with lines that are no commands. -/
  errors : ErrorPolicy := .emit
  /-- How many received lines may wait to be read; zero counts as one. -/
  capacity : UInt64 := ClientConfig.defaultCapacity
deriving Repr, DecidableEq

namespace ClientConfig

/-- The port for lines over TLS. -/
def tlsPort : UInt16 := 6697

/-- The port for lines in the clear. -/
def plainPort : UInt16 := 6667

/-- A nickname and nothing else. -/
def ofNickname (nickname : String) : ClientConfig :=
  { registration := .ofNickname nickname }

/-- Sets the endpoint. -/
def withEndpoint (c : ClientConfig) (endpoint : Endpoint) : ClientConfig :=
  { c with endpoint := some endpoint }

/-- Where to connect, once the configuration has been checked: what to register with first. -/
def endpointToOpen (c : ClientConfig) : Except ConfigError Endpoint := do
  c.registration.validate
  match c.endpoint with
  | some endpoint => return endpoint
  | none => throw .missingTransport

/-- The capabilities that a Twitch chat client asks for. -/
def twitchCapabilities : List Capability :=
  ["twitch.tv/tags", "twitch.tv/membership", "twitch.tv/commands"].filterMap fun name =>
    Capability.ofChars? name.toList

/-- Reading Twitch chat without an account. -/
def twitch : ClientConfig where
  registration :=
    { nickname := "justinfan12345"
      password := some "SCHMOOPIE"
      capabilities := twitchCapabilities }
  endpoint := some (.webSocket "wss://irc-ws.chat.twitch.tv:443")

end ClientConfig

end RelayChat
