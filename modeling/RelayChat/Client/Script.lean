import RelayChat.Client.Change

/-!
# Scripted sessions

A script runs a client over a transport held in memory, step by step: things that
the server does, and calls that the caller makes one after another.  Before and
after every step the client moves on until nothing is left to do, and whatever is
in its stream is read, except after a step that holds the reading back.

The transport sends every batch of lines, unless it has been told to refuse those
with a line that begins in a certain way.
-/

namespace RelayChat.Script

/-- A step of a script. -/
inductive Step where
  /-- The server sends a chunk; with `hold`, what it delivers is not read in this step. -/
  | chunk (text : String) (hold : Bool)
  /-- Receiving fails for a reason. -/
  | receiveError (reason : String)
  /-- The server closes. -/
  | close
  /-- From now on the transport refuses batches with a line that begins so, if anything. -/
  | refuse (opening : Option String)
  /-- Nothing happens. -/
  | idle
  /-- The caller lets go of the client, which disposes of the transport. -/
  | drop
  /-- The caller asks how registering went. -/
  | registered
  /-- The caller sends lines. -/
  | sendLines (lines : List String)
  /-- The caller joins a channel. -/
  | join (name : String)
  /-- The caller leaves a channel. -/
  | part (name : String)
  /-- The caller asks whether a channel is joined. -/
  | isJoined (name : String)
  /-- The caller disposes of the transport. -/
  | dispose
deriving Repr, DecidableEq

/-- The step that sends the canonical form of a line. -/
def Step.sendCommand (line : String) : Step :=
  .sendLines [(Received.ofLine line).text]

/-- Whether what a step delivers is read in that step. -/
def Step.reads : Step → Bool
  | .chunk _ hold => !hold
  | _ => true

/-- What a step answers. -/
inductive Reply where
  /-- The session has been started. -/
  | started
  /-- The step answers nothing. -/
  | nothing
  /-- The call went well. -/
  | done
  /-- The call failed. -/
  | failed (e : Failure)
  /-- The call may have changed which channels are joined. -/
  | membership (m : Membership)
  /-- The call answers a question. -/
  | answer (b : Bool)
  /-- There is no client to call. -/
  | noClient
deriving Repr, DecidableEq

/-- The answer of a call to join or to leave. -/
def Reply.ofChange : Except Failure Membership → Reply
  | .ok m => .membership m
  | .error e => .failed e

/-- The answer of a call that sends. -/
def Reply.ofOutcome : Outcome → Reply
  | .ok () => .done
  | .error e => .failed (.transport e)

/-- What can be seen after a step. -/
structure Entry where
  /-- What the step answered. -/
  reply : Reply
  /-- The lines that were sent since the last entry. -/
  sent : List String
  /-- The items that were read since the last entry. -/
  received : List Item
  /-- The joined channels, if there is a client to ask. -/
  channels : Option (List Channel)
  /-- Whether the stream has been read to its end. -/
  ended : Bool
  /-- How often the transport has been disposed of. -/
  disposed : Nat

/-- A session under way. -/
structure Run where
  /-- The client. -/
  client : Client
  /-- Whether the caller still has the client. -/
  held : Bool := true
  /-- Whether the caller has asked how registering went. -/
  asked : Bool := false
  /-- How a line begins that makes the transport refuse its batch. -/
  refused : Option String
  /-- Whether the stream has been read to its end. -/
  ended : Bool := false
  /-- How often the transport has been disposed of, up to the last entry. -/
  disposed : Nat := 0

namespace Run

/-- How the transport treats a batch of lines. -/
def transport (r : Run) : Connection.Transport := fun lines =>
  match r.refused with
  | some opening =>
    if lines.any fun line => opening.toList.isPrefixOf line.toList then .error (.io "refused")
    else .ok ()
  | none => .ok ()

/-- The lines that some calls sent. -/
def sentLines (calls : List Call) : List String :=
  calls.flatMap fun
    | .send _ lines (.ok ()) => lines
    | .pong lines (.ok ()) => lines
    | _ => []

/-- How many of some calls disposed of the transport. -/
def disposals (calls : List Call) : Nat :=
  calls.countP fun
    | .dispose => true
    | _ => false

/-- Lets the client move on. -/
def settle (r : Run) (reading : Bool) : Run :=
  { r with client := r.client.settle r.transport reading }

/-- Makes an entry, after which only what comes later is seen. -/
def entry (r : Run) (reply : Reply) (reading : Bool) : Entry × Run :=
  let c := r.client.connection
  let disposed := r.disposed + disposals c.calls
  let ended := r.ended || (reading && c.streamEnded)
  ({ reply
     sent := sentLines c.calls
     received := c.delivered
     channels := if r.held then some r.client.channels else none
     ended
     disposed },
    { r with
      client := { r.client with connection := { c with calls := [], delivered := [] } }
      ended
      disposed })

/-- Something that the connection meets. -/
def meet (r : Run) (e : Connection.Event) : Run :=
  { r with client := { r.client with connection := r.client.connection.step e } }

/-- A call of the caller's, which needs the client. -/
def call (r : Run) (f : Client → Reply × Client) : Reply × Run :=
  if r.held then
    let (reply, client) := f r.client
    (reply, { r with client })
  else (.noClient, r)

/-- What a step does. -/
def act (r : Run) : Step → Reply × Run
  | .chunk text _ => (.nothing, r.meet (.chunk text))
  | .receiveError reason => (.nothing, r.meet (.fail (.io reason)))
  | .close => (.nothing, r.meet .close)
  | .refuse opening => (.nothing, { r with refused := opening })
  | .idle => (.nothing, r)
  | .drop => (.nothing, { r.meet .dispose with held := false })
  | .registered =>
    if r.held && !r.asked then
      (((r.client.registrar.result?.map Reply.ofOutcome).getD .nothing), { r with asked := true })
    else r.call fun c => (.done, c)
  | .sendLines lines => r.call fun c =>
    let (outcome, c) := c.sendLines r.transport lines
    (Reply.ofOutcome outcome, c)
  | .join name => r.call fun c =>
    let (answer, c) := c.join r.transport name
    (Reply.ofChange answer, c)
  | .part name => r.call fun c =>
    let (answer, c) := c.part r.transport name
    (Reply.ofChange answer, c)
  | .isJoined name => r.call fun c => (.answer (c.isJoined name), c)
  | .dispose => r.call fun c => (.done, c.dispose r.transport)

/-- One step, with what can be seen after it. -/
def step (r : Run) (s : Step) : Entry × Run :=
  let (reply, r) := (r.settle true).act s
  (r.settle s.reads).entry reply s.reads

/-- The steps in order, with what can be seen after each. -/
def steps (r : Run) : List Step → List Entry
  | [] => []
  | s :: rest =>
    let (entry, r) := r.step s
    entry :: r.steps rest

end Run

/-- **A scripted session**: what can be seen after the start and after each step. -/
def play (config : ClientConfig) (refused : Option String) (steps : List Step) :
    Except ConfigError (List Entry) := do
  config.registration.validate
  let run : Run := { client := .start config, refused }
  let (entry, run) := (run.settle true).entry .started true
  return entry :: run.steps steps

end RelayChat.Script
