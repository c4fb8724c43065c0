import RelayChat.Chunk
import RelayChat.Ping

/-!
# Connections

A connection owns a transport.  It takes requests off a queue, one at a time and
in order, and hands their lines to the transport; it takes what the transport
receives, answers the pings in it, and delivers the lines to a stream that a
consumer reads.  It stops when it is asked to dispose of the transport, when the
server closes, and when receiving fails.

### The machine

`Connection.step` is one indivisible move.  What the outside contributes to a
move, above all the outcome of handing lines to the transport, is part of the
`Event`, so every order of moves and every pattern of outcomes is a list of
events, and a history is `run` on such a list.  A move that is not possible in a
state changes nothing.

Serving a request takes time, but while it lasts requests can only come in, behind
the one that is served, and items can only be read; so nothing is lost by counting
it as one move.

* While `waiting`, a connection may serve the next request or take in what was
  received.
* Having taken in a chunk it is `delivering`: its pongs go out in one batch and
  its items go into the stream, in either order.  It does nothing else until both
  are done.  The stream holds up to `capacity` items, so a consumer that does not
  read holds the connection up.  Once the consumer has left, items go nowhere and
  hold nothing up.
* Once `stopped` it does nothing more.  Requests that were not served, and those
  that come later, are settled with `disposed`.

The fields `calls`, `delivered` and `settled` only record: what the transport was
asked to do and with what outcome, what the consumer has read, and how each
request to send ended.
-/

namespace RelayChat

/-- How handing lines to the transport ended. -/
abbrev Outcome := Except TransportError Unit

/-- What tells requests to send apart: they are numbered as they come in. -/
abbrev Ticket := Nat

/-- What a connection can be asked to do. -/
inductive Request where
  /-- Hand a batch of lines to the transport. -/
  | send (ticket : Ticket) (lines : List String)
  /-- Dispose of the transport. -/
  | dispose
deriving Repr, DecidableEq

/-- What a transport was asked to do. -/
inductive Call where
  /-- Send the lines of a request. -/
  | send (ticket : Ticket) (lines : List String) (outcome : Outcome)
  /-- Send the pongs of a chunk. -/
  | pong (lines : List String) (outcome : Outcome)
  /-- Close. -/
  | dispose

/-- What a connection is doing. -/
inductive Phase where
  /-- Waiting for a request or for something to be received. -/
  | waiting
  /-- Handling what was received: pongs to send, items to deliver, and whether it stops then. -/
  | delivering (pongs : List String) (items : List Item) (last : Bool)
  /-- Nothing any more. -/
  | stopped

/-- A connection. -/
structure Connection where
  /-- What to do with lines that are no commands. -/
  policy : ErrorPolicy
  /-- How many items the stream holds; zero counts as one. -/
  capacity : Nat
  /-- What the connection is doing. -/
  phase : Phase := .waiting
  /-- How many requests to send have come in. -/
  issued : Nat := 0
  /-- The requests that have not been served, oldest first. -/
  queue : List Request := []
  /-- Whether there still is a consumer who holds the stream. -/
  held : Bool := true
  /-- The items in the stream, oldest first. -/
  stream : List Item := []
  /-- What the transport was asked to do so far. -/
  calls : List Call := []
  /-- The items that the consumer has read. -/
  delivered : List Item := []
  /-- How the requests to send ended that have ended. -/
  settled : List (Ticket × Outcome) := []

namespace Connection

/-- What can happen to a connection. -/
inductive Event where
  /-- A request to send comes in. -/
  | send (lines : List String)
  /-- A request to dispose of the transport comes in. -/
  | dispose
  /-- The next request is served; if it is one to send, with this outcome. -/
  | serve (outcome : Outcome)
  /-- The transport receives a chunk. -/
  | chunk (text : String)
  /-- Receiving fails. -/
  | fail (e : TransportError)
  /-- The server closes. -/
  | close
  /-- The pongs are sent, with this outcome. -/
  | pong (outcome : Outcome)
  /-- An item goes into the stream. -/
  | deliver
  /-- The consumer reads an item. -/
  | read
  /-- The consumer lets go of the stream. -/
  | leave

/-! ### The moves -/

/-- The tickets of some requests. -/
def tickets (rs : List Request) : List Ticket :=
  rs.filterMap fun
    | .send ticket _ => some ticket
    | .dispose => none

/-- Stops: nothing that is queued will be served. -/
def stop (c : Connection) : Connection :=
  { c with
    phase := .stopped
    queue := []
    settled := c.settled ++ (tickets c.queue).map (·, .error .disposed) }

/-- Goes on handling what was received, or on to what comes after that. -/
def handle (c : Connection) (pongs : List String) (items : List Item) (last : Bool) : Connection :=
  if pongs.isEmpty && items.isEmpty then
    if last then c.stop else { c with phase := .waiting }
  else { c with phase := .delivering pongs items last }

/-- Takes in a request to send, and gives it a ticket. -/
def submit (c : Connection) (lines : List String) : Ticket × Connection :=
  let ticket := c.issued
  let c := { c with issued := c.issued + 1 }
  match c.phase with
  | .stopped => (ticket, { c with settled := c.settled ++ [(ticket, .error .disposed)] })
  | _ => (ticket, { c with queue := c.queue ++ [.send ticket lines] })

/-- Takes in a request to dispose of the transport. -/
def askDispose (c : Connection) : Connection :=
  match c.phase with
  | .stopped => c
  | _ => { c with queue := c.queue ++ [.dispose] }

/-- Serves the next request. -/
def serve (c : Connection) (outcome : Outcome) : Connection :=
  match c.phase, c.queue with
  | .waiting, .send ticket lines :: rest =>
    { c with
      queue := rest
      calls := c.calls ++ [Call.send ticket lines outcome]
      settled := c.settled ++ [(ticket, outcome)] }
  | .waiting, .dispose :: rest =>
    { c with queue := rest, calls := c.calls ++ [Call.dispose] }.stop
  | _, _ => c

/-- The pongs that some items call for. -/
def pongsFor (items : List Item) : List String :=
  items.filterMap fun
    | .ok line => line.answer?
    | .error _ => none

/-- Takes a chunk in. -/
def takeChunk (c : Connection) (text : String) : Connection :=
  match c.phase with
  | .waiting =>
    let items := Chunk.items c.policy text
    c.handle (pongsFor items) items false
  | _ => c

/-- Takes in that receiving failed: the error is delivered, and that is all. -/
def takeFailure (c : Connection) (e : TransportError) : Connection :=
  match c.phase with
  | .waiting => c.handle [] [.error (.transport e)] true
  | _ => c

/-- Takes in that the server closed. -/
def takeClose (c : Connection) : Connection :=
  match c.phase with
  | .waiting => c.stop
  | _ => c

/-- Sends the pongs; whatever comes of it, the connection goes on. -/
def sendPongs (c : Connection) (outcome : Outcome) : Connection :=
  match c.phase with
  | .delivering (pong :: pongs) items last =>
    { c with calls := c.calls ++ [Call.pong (pong :: pongs) outcome] }.handle [] items last
  | _ => c

/-- How many items the stream can hold. -/
def room (c : Connection) : Nat :=
  max c.capacity 1

/-- Whether the next item can go: there is room for it, or nobody who waits for it. -/
def canDeliver (c : Connection) : Bool :=
  !c.held || c.stream.length < c.room

/-- Puts an item into the stream, if there is room; without a consumer it goes nowhere. -/
def deliver (c : Connection) : Connection :=
  match c.phase with
  | .delivering pongs (item :: items) last =>
    if c.canDeliver then
      { c with stream := if c.held then c.stream ++ [item] else c.stream }.handle pongs items last
    else c
  | _ => c

/-- The consumer reads an item, if there is one. -/
def read (c : Connection) : Connection :=
  match c.stream with
  | item :: rest => { c with stream := rest, delivered := c.delivered ++ [item] }
  | [] => c

/-- The consumer lets go of the stream, and of what is in it. -/
def leave (c : Connection) : Connection :=
  { c with held := false, stream := [] }

/-- **One move.** -/
def step (c : Connection) : Event → Connection
  | .send lines => (c.submit lines).2
  | .dispose => c.askDispose
  | .serve outcome => c.serve outcome
  | .chunk text => c.takeChunk text
  | .fail e => c.takeFailure e
  | .close => c.takeClose
  | .pong outcome => c.sendPongs outcome
  | .deliver => c.deliver
  | .read => c.read
  | .leave => c.leave

/-- A history of moves. -/
def run (c : Connection) (events : List Event) : Connection :=
  events.foldl step c

/-! ### What can be seen -/

/-- Whether the connection has stopped. -/
def isStopped (c : Connection) : Bool :=
  match c.phase with
  | .stopped => true
  | _ => false

/-- Whether the stream has come to its end: nothing is in it and nothing will come. -/
def streamEnded (c : Connection) : Bool :=
  c.isStopped && c.stream.isEmpty

/-- How the request with a ticket ended, if it has. -/
def outcome? (c : Connection) (ticket : Ticket) : Option Outcome :=
  c.settled.lookup ticket

/-! ### Running until nothing is left to do -/

/-- How the transport treats a batch of lines. -/
abbrev Transport := List String → Outcome

/-- The move of a consumer, if there is one who is `reading` and something to read. -/
def readNext? (reading : Bool) (c : Connection) : Option Event :=
  if reading && !c.stream.isEmpty then some .read else none

/-- The next move by itself: sending pongs, delivering, serving a request, in this order.  A
consumer reads when there is nothing else to do or no more room. -/
def next? (transport : Transport) (reading : Bool) (c : Connection) : Option Event :=
  match c.phase, c.queue with
  | .delivering (pong :: pongs) _ _, _ => some (.pong (transport (pong :: pongs)))
  | .delivering [] (_ :: _) _, _ =>
    if c.canDeliver then some .deliver else c.readNext? reading
  | .waiting, .send _ lines :: _ => some (.serve (transport lines))
  | .waiting, .dispose :: _ => some (.serve (.ok ()))
  | _, _ => c.readNext? reading

/-- How much is left to do: the requests, two moves for each item to deliver, one for each item
in the stream, and the pongs. -/
def weight (c : Connection) : Nat :=
  c.queue.length + c.stream.length
    + match c.phase with
      | .delivering pongs items _ => 2 * items.length + pongs.length
      | _ => 0

/-- To stop leaves only what is in the stream. -/
theorem weight_stop (c : Connection) : c.stop.weight = c.stream.length := by
  simp [stop, weight]

theorem weight_handle_le (c : Connection) (pongs : List String) (items : List Item) (last : Bool) :
    (c.handle pongs items last).weight
      ≤ c.queue.length + c.stream.length + 2 * items.length + pongs.length := by
  unfold handle
  split
  · split
    · rw [weight_stop]
      omega
    · simp only [weight]
      omega
  · simp only [weight]
    omega

/-- To read an item takes it off the stream. -/
theorem weight_step_readNext {reading : Bool} {c : Connection} {e : Event}
    (h : c.readNext? reading = some e) : (c.step e).weight < c.weight := by
  unfold readNext? at h
  split at h
  · cases h
    cases hstream : c.stream with
    | nil => simp_all
    | cons item rest =>
      simp only [step, read, hstream, weight, List.length_cons]
      omega
  · cases h

/-- Each move by itself leaves less to do. -/
theorem weight_step_next {transport : Transport} {reading : Bool} {c : Connection} {e : Event}
    (h : c.next? transport reading = some e) : (c.step e).weight < c.weight := by
  unfold next? at h
  split at h
  · next hphase =>
    cases h
    simp only [step, sendPongs, hphase]
    refine Nat.lt_of_le_of_lt (weight_handle_le _ _ _ _) ?_
    simp only [weight, hphase, List.length_cons, List.length_nil]
    omega
  · next item _ _ hphase =>
    split at h
    · next hroom =>
      cases h
      simp only [step, deliver, hphase, hroom, if_true]
      refine Nat.lt_of_le_of_lt (weight_handle_le _ _ _ _) ?_
      have hstream : (if c.held then c.stream ++ [item] else c.stream).length
          ≤ c.stream.length + 1 := by
        split <;> simp
      simp only [weight, hphase, List.length_cons]
      omega
    · exact weight_step_readNext h
  · next hphase hqueue =>
    cases h
    simp only [step, serve, hphase, hqueue, weight, List.length_cons]
    omega
  · next hphase hqueue =>
    cases h
    simp only [step, serve, hphase, hqueue, stop, weight, List.length_cons, List.length_nil]
    omega
  · exact weight_step_readNext h

/-- Moves on by itself until nothing is left that it can do. -/
def settle (transport : Transport) (reading : Bool) (c : Connection) : Connection :=
  match _move : c.next? transport reading with
  | some e => (c.step e).settle transport reading
  | none => c
termination_by c.weight
decreasing_by exact weight_step_next _move

end Connection

end RelayChat
