import RelayChat.Handshake.Registration
import RelayChat.Message.Basic

/-!
# The registration handshake

A session opens with requests for capabilities, the password, and the identity,
each a batch of lines.  The machine says what to send next; it sends nothing
itself and waits for no answer of the server.  A step says whether its batch must
have been sent before the next one may follow.

The stages come in one order.  A stage for which nothing is configured has no
step and is passed over, so `advance` goes to the next stage that has one.
-/

namespace RelayChat.Handshake

/-- How far the handshake is. -/
inductive Stage where
  /-- Nothing has been sent. -/
  | idle
  /-- Capabilities have been requested. -/
  | capabilitiesRequested
  /-- The password has been sent. -/
  | passwordSent
  /-- The identity has been sent, and that is all. -/
  | identitySent
deriving Repr, DecidableEq

/-- The stages that come after one. -/
def Stage.later : Stage → List Stage
  | .idle => [.capabilitiesRequested, .passwordSent, .identitySent]
  | .capabilitiesRequested => [.passwordSent, .identitySent]
  | .passwordSent => [.identitySent]
  | .identitySent => []

/-- A batch of lines to send. -/
structure Step where
  /-- The lines, without their ends. -/
  lines : List String
  /-- Whether the batch must have been sent before the next step. -/
  awaited : Bool
deriving Repr, DecidableEq

/-- The line that requests a capability. -/
def capabilityLine (c : Capability) : String :=
  (((Message.ofVerb "CAP").withParam "REQ").withTrailing c.text).text

/-- The line that gives the password. -/
def passwordLine (password : String) : String :=
  ((Message.ofVerb "PASS").withParam password).text

/-- The line that gives the nickname. -/
def nickLine (r : Registration) : String :=
  ((Message.ofVerb "NICK").withParam r.nickname).text

/-- The line that gives the user name, the mode bits and the real name. -/
def userLine (r : Registration) : String :=
  ((((Message.ofVerb "USER").withParam r.userName).withParam (toString r.modeBits)).withParam
    "*").withTrailing r.realName |>.text

/-- The step that leads to a stage, if anything is configured for it.  Only before a password do
the requests for capabilities have to be sent first. -/
def stepTo (r : Registration) : Stage → Option Step
  | .idle => none
  | .capabilitiesRequested =>
    if r.capabilities.isEmpty then none
    else some ⟨r.capabilities.map capabilityLine, r.password.isSome⟩
  | .passwordSent => r.password.map fun password => ⟨[passwordLine password], true⟩
  | .identitySent => some ⟨[nickLine r, userLine r], false⟩

/-- A handshake under way. -/
structure Machine where
  /-- What to register with. -/
  config : Registration
  /-- The stage that has been reached. -/
  stage : Stage := .idle
deriving Repr, DecidableEq

namespace Machine

/-- Whether there is nothing more to send. -/
def isComplete (m : Machine) : Bool :=
  m.stage == .identitySent

/-- **The next step**, and the machine at the stage that it leads to. -/
def advance (m : Machine) : Option Step × Machine :=
  match m.stage.later.findSome? fun s => (stepTo m.config s).map (·, s) with
  | some (step, stage) => (some step, { m with stage })
  | none => (none, m)

/-- All steps that are left, in order. -/
def steps (m : Machine) : List Step :=
  m.stage.later.filterMap (stepTo m.config)

end Machine

/-- All lines of a handshake. -/
def allLines (r : Registration) : List String :=
  (Machine.steps ⟨r, .idle⟩).flatMap (·.lines)

end RelayChat.Handshake
