import Mathlib.Data.List.Basic
import RelayChat.Client.Connection

/-!
# What a move of a connection does

`Connection.Moves c e d` says once and for all what may come of an event: one rule for
each kind of event and each state in which it makes a difference, with the condition
under which it does, and the connection after it.  `Connection.moves_step` says that
these are all the moves there are.  Whatever is kept along a history is shown rule by
rule, and no proof looks into the functions of the machine again.

A connection that handles what was received goes on by `Connection.handle`, which
leaves the requests alone unless it stops.  Once a connection has taken in what ends it,
it `IsClosing`: it delivers what is left to deliver, and hands nothing more over.
-/

namespace RelayChat

/-! ### Phases -/

namespace Phase

/-- The items that are still to be delivered. -/
def items : Phase → List Item
  | .delivering _ items _ => items
  | _ => []

/-- The pongs that are still to be sent. -/
def pongs : Phase → List String
  | .delivering pongs _ _ => pongs
  | _ => []

/-- Whether what ends the connection has been taken in. -/
def isLast : Phase → Bool
  | .waiting => false
  | .delivering _ _ last => last
  | .stopped => true

/-- A connection that waits has nothing left to do, and may take more in. -/
@[simp] theorem waiting_fields :
    waiting.items = [] ∧ waiting.pongs = [] ∧ waiting.isLast = false := ⟨rfl, rfl, rfl⟩

/-- A connection that delivers has left to do what it was given. -/
@[simp] theorem delivering_fields (ps : List String) (is : List Item) (last : Bool) :
    (delivering ps is last).items = is ∧ (delivering ps is last).pongs = ps ∧
      (delivering ps is last).isLast = last := ⟨rfl, rfl, rfl⟩

/-- A connection that has stopped has nothing left to do, and takes nothing more in. -/
@[simp] theorem stopped_fields :
    stopped.items = [] ∧ stopped.pongs = [] ∧ stopped.isLast = true := ⟨rfl, rfl, rfl⟩

end Phase

namespace Connection

variable {c d : Connection} {e : Event}

/-- A connection over a transport that has not been used. -/
def opened (policy : ErrorPolicy) (capacity : Nat) : Connection where
  policy := policy
  capacity := capacity

/-- What ends the connection has been taken in, and there are no pongs to send. -/
def IsClosing (c : Connection) : Prop :=
  c.phase.isLast = true ∧ c.phase.pongs = []

/-! ### Going on with what was received -/

section Handle

variable (c : Connection) (pongs : List String) (items : List Item) (last : Bool)

/-- A connection that goes on stops, or changes nothing but its phase. -/
theorem handle_cases :
    c.handle pongs items last = c.stop ∨
      ∃ phase, phase ≠ .stopped ∧ c.handle pongs items last = { c with phase } := by
  unfold handle
  split
  · split
    · exact .inl rfl
    · exact .inr ⟨.waiting, by simp, rfl⟩
  · exact .inr ⟨_, by simp, rfl⟩

/-- Going on keeps the policy. -/
@[simp] theorem policy_handle : (c.handle pongs items last).policy = c.policy := by
  obtain h | ⟨_, -, h⟩ := c.handle_cases pongs items last <;> simp only [h, stop]

/-- Going on issues no ticket. -/
@[simp] theorem issued_handle : (c.handle pongs items last).issued = c.issued := by
  obtain h | ⟨_, -, h⟩ := c.handle_cases pongs items last <;> simp only [h, stop]

/-- Going on does not let go of the stream. -/
@[simp] theorem held_handle : (c.handle pongs items last).held = c.held := by
  obtain h | ⟨_, -, h⟩ := c.handle_cases pongs items last <;> simp only [h, stop]

/-- Going on puts nothing into the stream: that is a move of its own. -/
@[simp] theorem stream_handle : (c.handle pongs items last).stream = c.stream := by
  obtain h | ⟨_, -, h⟩ := c.handle_cases pongs items last <;> simp only [h, stop]

/-- Going on hands nothing to the transport. -/
@[simp] theorem calls_handle : (c.handle pongs items last).calls = c.calls := by
  obtain h | ⟨_, -, h⟩ := c.handle_cases pongs items last <;> simp only [h, stop]

/-- Going on reads nothing for the consumer. -/
@[simp] theorem delivered_handle : (c.handle pongs items last).delivered = c.delivered := by
  obtain h | ⟨_, -, h⟩ := c.handle_cases pongs items last <;> simp only [h, stop]

/-- What is still to be done is what there was to go on with. -/
theorem phase_handle :
    (c.handle pongs items last).phase.pongs = pongs ∧
      (c.handle pongs items last).phase.items = items ∧
        (c.handle pongs items last).phase.isLast = last := by
  unfold handle
  split
  · next h =>
    obtain ⟨hpongs, hitems⟩ := by simpa using h
    split
    · next hlast => simp [stop, hpongs, hitems, hlast]
    · next hlast => simp [hpongs, hitems, hlast]
  · exact ⟨rfl, rfl, rfl⟩

@[simp] theorem pongs_handle : (c.handle pongs items last).phase.pongs = pongs :=
  (c.phase_handle pongs items last).1

@[simp] theorem items_handle : (c.handle pongs items last).phase.items = items :=
  (c.phase_handle pongs items last).2.1

@[simp] theorem isLast_handle : (c.handle pongs items last).phase.isLast = last :=
  (c.phase_handle pongs items last).2.2

/-- A connection does not wait for what there is not. -/
theorem handle_phase_ne (l : Bool) :
    (c.handle pongs items last).phase ≠ .delivering [] [] l := by
  unfold handle stop
  split
  · split <;> simp
  · next h =>
    rintro ⟨⟩
    simp at h

end Handle

/-! ### The moves -/

/-- When an event makes no difference. -/
def Idle (c : Connection) : Event → Prop
  | .send _ | .leave => False
  | .dispose => c.phase = .stopped
  | .serve _ => c.phase ≠ .waiting ∨ c.queue = []
  | .chunk _ | .fail _ | .close => c.phase ≠ .waiting
  | .pong _ => c.phase.pongs = []
  | .deliver => c.phase.items = [] ∨ c.canDeliver = false
  | .read => c.stream = []

/-- **The moves**: what an event makes of a connection. -/
inductive Moves (c : Connection) : Event → Connection → Prop
  /-- The event makes no difference. -/
  | idle {e : Event} (h : c.Idle e) : Moves c e c
  /-- A request to send comes in. -/
  | ask {lines : List String} (h : c.phase ≠ .stopped) :
      Moves c (.send lines)
        { c with issued := c.issued + 1, queue := c.queue ++ [.send c.issued lines] }
  /-- A request to send comes too late. -/
  | refuse {lines : List String} (h : c.phase = .stopped) :
      Moves c (.send lines)
        { c with
          issued := c.issued + 1
          settled := c.settled ++ [(c.issued, .error .disposed)] }
  /-- A request to dispose of the transport comes in. -/
  | askDispose (h : c.phase ≠ .stopped) :
      Moves c .dispose { c with queue := c.queue ++ [.dispose] }
  /-- A request to send is served. -/
  | serveSend {ticket : Ticket} {lines : List String} {rest : List Request} {outcome : Outcome}
      (h : c.phase = .waiting) (hqueue : c.queue = .send ticket lines :: rest) :
      Moves c (.serve outcome)
        { c with
          queue := rest
          calls := c.calls ++ [.send ticket lines outcome]
          settled := c.settled ++ [(ticket, outcome)] }
  /-- A request to dispose of the transport is served. -/
  | serveDispose {rest : List Request} {outcome : Outcome}
      (h : c.phase = .waiting) (hqueue : c.queue = .dispose :: rest) :
      Moves c (.serve outcome) { c with queue := rest, calls := c.calls ++ [Call.dispose] }.stop
  /-- A chunk is taken in. -/
  | takeChunk {text : String} (h : c.phase = .waiting) :
      Moves c (.chunk text)
        (c.handle (pongsFor (Chunk.items c.policy text)) (Chunk.items c.policy text) false)
  /-- A failure is taken in. -/
  | takeFailure {e : TransportError} (h : c.phase = .waiting) :
      Moves c (.fail e) (c.handle [] [.error (.transport e)] true)
  /-- It is taken in that the server closed. -/
  | takeClose (h : c.phase = .waiting) : Moves c .close c.stop
  /-- Pongs are sent. -/
  | sendPongs {pongs : List String} {items : List Item} {last : Bool} {outcome : Outcome}
      (h : c.phase = .delivering pongs items last) (hpongs : pongs ≠ []) :
      Moves c (.pong outcome)
        ({ c with calls := c.calls ++ [Call.pong pongs outcome] }.handle [] items last)
  /-- An item goes into the stream. -/
  | deliver {pongs : List String} {item : Item} {items : List Item} {last : Bool}
      (h : c.phase = .delivering pongs (item :: items) last) (hheld : c.held = true)
      (hroom : c.stream.length < c.room) :
      Moves c .deliver ({ c with stream := c.stream ++ [item] }.handle pongs items last)
  /-- An item goes nowhere. -/
  | drop {pongs : List String} {item : Item} {items : List Item} {last : Bool}
      (h : c.phase = .delivering pongs (item :: items) last) (hheld : c.held = false) :
      Moves c .deliver (c.handle pongs items last)
  /-- The consumer reads an item. -/
  | read {item : Item} {rest : List Item} (h : c.stream = item :: rest) :
      Moves c .read { c with stream := rest, delivered := c.delivered ++ [item] }
  /-- The consumer lets go of the stream. -/
  | leave : Moves c .leave { c with held := false, stream := [] }

/-- Pongs go out if there are any, whatever the transport answers. -/
theorem moves_pong (c : Connection) (outcome : Outcome) :
    Moves c (.pong outcome) (c.sendPongs outcome) := by
  rcases hphase : c.phase with _ | ⟨pongs, items, last⟩ | _
  · rw [sendPongs, hphase]
    exact .idle (by rw [Idle, hphase]; rfl)
  · cases pongs with
    | nil =>
        rw [sendPongs, hphase]
        exact .idle (by rw [Idle, hphase]; rfl)
    | cons pong pongs =>
        simp only [sendPongs, hphase]
        exact hphase ▸ .sendPongs hphase (by simp)
  · rw [sendPongs, hphase]
    exact .idle (by rw [Idle, hphase]; rfl)

/-- An item goes into the stream if there is room, or nowhere if nobody holds the stream. -/
theorem moves_deliver (c : Connection) : Moves c .deliver c.deliver := by
  unfold Connection.deliver
  split
  · next pongs item items last hphase =>
    by_cases hheld : c.held = true
    · rw [if_pos hheld]
      by_cases hroom : c.stream.length < c.room
      · rw [if_pos (by simp [canDeliver, hroom])]
        exact .deliver hphase hheld hroom
      · rw [if_neg (by simp [canDeliver, hheld, hroom])]
        exact .idle (.inr (by simp [canDeliver, hheld, hroom]))
    · rw [if_neg hheld, if_pos (by simp [canDeliver, hheld])]
      exact .drop hphase (by simpa using hheld)
  · next hphase =>
    refine .idle (.inl ?_)
    rcases heq : c.phase with _ | ⟨pongs, items, last⟩ | _
    · rfl
    · cases items with
      | nil => rfl
      | cons item items => exact absurd heq (hphase _ _ _ _)
    · rfl

/-- The first request in the queue is served while the connection waits. -/
theorem moves_serve (c : Connection) (outcome : Outcome) :
    Moves c (.serve outcome) (c.serve outcome) := by
  unfold serve
  split
  · next hphase hqueue => exact .serveSend hphase hqueue
  · next hphase hqueue => exact .serveDispose hphase hqueue
  · next hsend hdispose =>
    refine .idle ?_
    by_cases hphase : c.phase = .waiting
    · refine .inr ?_
      match hqueue : c.queue with
      | [] => rfl
      | .send _ _ :: _ => exact (hsend _ _ _ hphase hqueue).elim
      | .dispose :: _ => exact (hdispose _ hphase hqueue).elim
    · exact .inl hphase

/-- **Every event is one of the moves.** -/
theorem moves_step (c : Connection) (e : Event) : Moves c e (c.step e) := by
  cases e with
  | send lines =>
      simp only [step, submit]
      split
      · next h => exact .refuse h
      · next h => exact .ask h
  | dispose =>
      simp only [step, Connection.askDispose]
      split
      · next h => exact .idle h
      · next h => exact .askDispose h
  | serve outcome => exact c.moves_serve outcome
  | chunk text =>
      simp only [step, Connection.takeChunk]
      split
      · next h => exact .takeChunk h
      · next h => exact .idle h
  | fail e =>
      simp only [step, Connection.takeFailure]
      split
      · next h => exact .takeFailure h
      · next h => exact .idle h
  | close =>
      simp only [step, Connection.takeClose]
      split
      · next h => exact .takeClose h
      · next h => exact .idle h
  | pong outcome => exact c.moves_pong outcome
  | deliver => exact c.moves_deliver
  | read =>
      simp only [step, Connection.read]
      split
      · next h => exact .read h
      · next h => exact .idle h
  | leave => exact .leave

/-! ### Histories -/

@[simp] theorem run_nil (c : Connection) : c.run [] = c := rfl

@[simp] theorem run_cons (c : Connection) (e : Event) (events : List Event) :
    c.run (e :: events) = (c.step e).run events := rfl

theorem run_append (c : Connection) (a b : List Event) : c.run (a ++ b) = (c.run a).run b :=
  List.foldl_append

/-- Only the consumer can let go of the stream. -/
theorem held_moves (hmoves : Moves c e d) (h : e ≠ .leave) : d.held = c.held := by
  cases hmoves with
  | leave => exact absurd rfl h
  | _ => simp [stop]

/-- The stream is held until the consumer lets go of it. -/
theorem held_run {events : List Event} (h : ∀ e ∈ events, e ≠ .leave) :
    (c.run events).held = c.held := by
  induction events generalizing c with
  | nil => rfl
  | cons e events ih =>
      obtain ⟨he, hevents⟩ := List.forall_mem_cons.mp h
      rw [run_cons, ih hevents, held_moves (c.moves_step e) he]

/-- A connection that waits has not taken in what ends it. -/
theorem not_isClosing_of_waiting (h : c.phase = .waiting) : ¬ c.IsClosing := by
  rintro ⟨hlast, -⟩
  rw [h] at hlast
  cases hlast

theorem isClosing_stop (c : Connection) : c.stop.IsClosing := ⟨rfl, rfl⟩

/-- A closing connection stays so, and hands nothing over. -/
theorem closing_moves (h : c.IsClosing) (hmoves : Moves c e d) :
    d.IsClosing ∧ d.calls = c.calls := by
  cases hmoves with
  | serveSend hphase => exact absurd h (not_isClosing_of_waiting hphase)
  | serveDispose hphase => exact absurd h (not_isClosing_of_waiting hphase)
  | takeChunk hphase => exact absurd h (not_isClosing_of_waiting hphase)
  | takeFailure hphase => exact absurd h (not_isClosing_of_waiting hphase)
  | takeClose hphase => exact absurd h (not_isClosing_of_waiting hphase)
  | sendPongs hphase hpongs =>
      have hnone := h.2
      rw [hphase] at hnone
      exact absurd hnone hpongs
  | deliver hphase =>
      rw [IsClosing, hphase] at h
      exact ⟨by simpa [IsClosing] using h, by simp⟩
  | drop hphase =>
      rw [IsClosing, hphase] at h
      exact ⟨by simpa [IsClosing] using h, by simp⟩
  | _ => exact ⟨h, rfl⟩

/-- A closing connection stays so along a whole history, and hands nothing over. -/
theorem closing_run (h : c.IsClosing) (events : List Event) :
    (c.run events).IsClosing ∧ (c.run events).calls = c.calls := by
  induction events generalizing c with
  | nil => exact ⟨h, rfl⟩
  | cons e events ih =>
      obtain ⟨hstep, hcalls⟩ := closing_moves h (c.moves_step e)
      obtain ⟨hrun, hcalls'⟩ := ih hstep
      exact ⟨hrun, hcalls'.trans hcalls⟩

end Connection
end RelayChat
