import RelayChat.Channel.Roster
import RelayChat.Client.Config
import RelayChat.Client.Registrar

/-!
# Clients

A client is a connection, the registrar that opens the session over it, and the
roster of the channels that it has joined.

`Client.settle` lets the connection and the registrar move on until nothing is
left to do.  An operation that a caller waits for puts something into the queue,
settles, and looks at how it ended; calls made one after another are such
operations in a row.
-/

namespace RelayChat

open Connection (Transport)

/-- A client. -/
structure Client where
  /-- The connection. -/
  connection : Connection
  /-- The registrar. -/
  registrar : Registrar
  /-- The channels that the client has joined. -/
  roster : Roster := ∅

namespace Client

/-- A client that has just been given a transport. -/
def start (config : ClientConfig) : Client where
  connection := { policy := config.errors, capacity := config.capacity.toNat }
  registrar := .start config.registration

/-- Lets the connection and the registrar move on until nothing is left that they can do, with a
consumer who reads or without one. -/
def settle (transport : Transport) (reading : Bool) (c : Client) : Client :=
  let connection := c.connection.settle transport reading
  match _move : c.registrar.step connection with
  | some (registrar, connection) => settle transport reading { c with connection, registrar }
  | none => { c with connection }
termination_by c.registrar.weight
decreasing_by exact Registrar.weight_step _move

/-- Sends lines in one batch. -/
def sendLines (transport : Transport) (lines : List String) (c : Client) : Outcome × Client :=
  let (ticket, connection) := c.connection.submit lines
  let c := { c with connection }.settle transport true
  ((c.connection.outcome? ticket).getD (.error .disposed), c)

/-- Disposes of the transport, after the sends that are queued already. -/
def dispose (transport : Transport) (c : Client) : Client :=
  { c with connection := c.connection.askDispose }.settle transport true

/-- The joined channels, in the order of their texts. -/
def channels (c : Client) : List Channel :=
  c.roster.snapshot

end Client

end RelayChat
