import RelayChat.Channel.Normal
import RelayChat.Client.Basic

/-!
# Joining and leaving channels

Joining a channel, and leaving one, changes the roster first, then queues the
line, learns how sending it ended, and takes the change back if it failed.  A
change that makes no difference to the roster sends nothing.

A `Change` is one such call and `Change.step` one of its moves, so calls that run
at the same time are moves of several changes in some order.  `Client.join` and
`Client.part` are a call by itself, with the client settled where it waits.
-/

namespace RelayChat

open Connection (Transport)

/-- Whether a channel is joined or left. -/
inductive Change.Kind where
  /-- The channel is joined. -/
  | join
  /-- The channel is left. -/
  | part
deriving Repr, DecidableEq

/-- The verb of the line to send. -/
def Change.Kind.verb : Change.Kind → String
  | .join => "JOIN"
  | .part => "PART"

/-- Makes the change in a roster. -/
def Change.Kind.apply (k : Change.Kind) (r : Roster) (c : Channel) : Membership × Roster :=
  match k with
  | .join => r.join c
  | .part => r.part c

/-- Takes the change back. -/
def Change.Kind.undo (k : Change.Kind) (r : Roster) (c : Channel) : Roster :=
  match k with
  | .join => r.erase c
  | .part => r.insert c

/-- How far a call to join or to leave is. -/
inductive Change.State where
  /-- Nothing has been done. -/
  | ready
  /-- The roster has been changed. -/
  | recorded
  /-- The line has been queued. -/
  | queued (ticket : Ticket)
  /-- The line was not sent. -/
  | failed (e : TransportError)
  /-- The call has come to its end. -/
  | finished (answer : Except TransportError Membership)

/-- A call to join or to leave a channel. -/
structure Change where
  /-- Whether the channel is joined or left. -/
  kind : Change.Kind
  /-- The channel, by the name that goes into the line. -/
  channel : Channel
  /-- How far the call is. -/
  state : Change.State := .ready

/-- The line to send. -/
def Change.line (ch : Change) : String :=
  ch.kind.verb ++ " " ++ ch.channel.text

/-- **One move** of a call; none while the line has not been sent. -/
def Change.step (ch : Change) (c : Client) : Change × Client :=
  match ch.state with
  | .ready =>
    match ch.kind.apply c.roster ch.channel with
    | (.unchanged, _) => ({ ch with state := .finished (.ok .unchanged) }, c)
    | (.changed, roster) => ({ ch with state := .recorded }, { c with roster })
  | .recorded =>
    let (ticket, connection) := c.connection.submit [ch.line]
    ({ ch with state := .queued ticket }, { c with connection })
  | .queued ticket =>
    match c.connection.outcome? ticket with
    | some (.ok ()) => ({ ch with state := .finished (.ok .changed) }, c)
    | some (.error e) => ({ ch with state := .failed e }, c)
    | none => (ch, c)
  | .failed e =>
    ({ ch with state := .finished (.error e) },
      { c with roster := ch.kind.undo c.roster ch.channel })
  | .finished _ => (ch, c)

namespace Client

/-- Carries a call to join or to leave out, from its first move to its last. -/
def carryOut (transport : Transport) (ch : Change) (c : Client) : Change × Client :=
  let (ch, c) := ch.step c
  let (ch, c) := ch.step c
  let (ch, c) := ch.step (c.settle transport true)
  ch.step c

/-- Joins or leaves the channel that a name means. -/
def change (transport : Transport) (kind : Change.Kind) (name : String) (c : Client) :
    Except Failure Membership × Client :=
  match Channel.normalize name with
  | .error e => (.error (.value e), c)
  | .ok channel =>
    let (ch, c) := carryOut transport { kind, channel } c
    match ch.state with
    | .finished (.ok m) => (.ok m, c)
    | .finished (.error e) => (.error (.transport e), c)
    | _ => (.error (.transport .disposed), c)

/-- Joins the channel that a name means. -/
def join (transport : Transport) (name : String) (c : Client) :
    Except Failure Membership × Client :=
  c.change transport .join name

/-- Leaves the channel that a name means. -/
def part (transport : Transport) (name : String) (c : Client) :
    Except Failure Membership × Client :=
  c.change transport .part name

/-- Whether the channel that a name means is joined. -/
def isJoined (name : String) (c : Client) : Bool :=
  match Channel.normalize name with
  | .ok channel => c.roster.contains channel
  | .error _ => false

end Client

end RelayChat
