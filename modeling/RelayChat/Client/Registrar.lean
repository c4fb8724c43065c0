import RelayChat.Client.Connection
import RelayChat.Handshake.Machine

/-!
# Registering

A registrar carries a handshake out over a connection.  It goes from step to
step, puts the lines of each into the queue, and waits where a step has to be
waited for; if such a step fails, that is the end.  The other steps it remembers,
and when there is no step left it looks at them in order: the first that failed
is the result.

The registrar shares the queue with whoever else sends, and its moves may fall
between any moves of the connection.
-/

namespace RelayChat

/-- What a registrar is doing. -/
inductive Registrar.State where
  /-- Going to the next step. -/
  | advancing
  /-- Waiting for the lines of a step to be sent. -/
  | awaiting (ticket : Ticket)
  /-- Looking at the steps that were not waited for. -/
  | collecting
  /-- Nothing any more; this is the result. -/
  | finished (outcome : Outcome)

/-- A handshake being carried out. -/
structure Registrar where
  /-- The handshake. -/
  machine : Handshake.Machine
  /-- The steps that were not waited for and have not been looked at, oldest first. -/
  detached : List Ticket := []
  /-- What the registrar is doing. -/
  state : Registrar.State := .advancing

namespace Registrar

/-- A registrar that has done nothing. -/
def start (r : Registration) : Registrar :=
  { machine := { config := r } }

/-- **One move**, if one is possible. -/
def step (r : Registrar) (c : Connection) : Option (Registrar × Connection) :=
  match r.state with
  | .advancing =>
    match r.machine.advance with
    | (some step, machine) =>
      let (ticket, c) := c.submit step.lines
      if step.awaited then some ({ r with machine, state := .awaiting ticket }, c)
      else some ({ r with machine, detached := r.detached ++ [ticket] }, c)
    | (none, _) => some ({ r with state := .collecting }, c)
  | .awaiting ticket =>
    match c.outcome? ticket with
    | some (.ok ()) => some ({ r with state := .advancing }, c)
    | some (.error e) => some ({ r with state := .finished (.error e) }, c)
    | none => none
  | .collecting =>
    match r.detached with
    | [] => some ({ r with state := .finished (.ok ()) }, c)
    | ticket :: rest =>
      match c.outcome? ticket with
      | some (.ok ()) => some ({ r with detached := rest }, c)
      | some (.error e) => some ({ r with state := .finished (.error e) }, c)
      | none => none
  | .finished _ => none

/-- The result, once there is one. -/
def result? (r : Registrar) : Option Outcome :=
  match r.state with
  | .finished outcome => some outcome
  | _ => none

/-! ### Registering comes to an end -/

/-- How much is left to do. -/
def weight (r : Registrar) : Nat :=
  4 * r.machine.stage.later.length + r.detached.length
    + match r.state with
      | .advancing => 2
      | .awaiting _ => 3
      | .collecting => 1
      | .finished _ => 0

theorem length_later_advance {m after : Handshake.Machine} {step : Handshake.Step}
    (h : m.advance = (some step, after)) :
    after.stage.later.length < m.stage.later.length := by
  unfold Handshake.Machine.advance at h
  split at h
  · next stage heq =>
    obtain ⟨-, rfl⟩ := by simpa using h
    obtain ⟨s, hs, hmap⟩ := List.exists_of_findSome?_eq_some heq
    obtain ⟨_, -, -, rfl⟩ := by simpa using hmap
    cases hm : m.stage <;> simp only [hm, Handshake.Stage.later, List.mem_cons] at hs ⊢ <;>
      rcases hs with rfl | rfl | rfl | h <;> simp_all
  · simp at h

/-- Each move leaves less to do. -/
theorem weight_step {r after : Registrar} {c c' : Connection}
    (h : r.step c = some (after, c')) : after.weight < r.weight := by
  unfold step at h
  split at h
  · next hstate =>
    split at h
    · next heq =>
      have := length_later_advance heq
      simp only at h
      split at h <;>
      · obtain ⟨rfl, -⟩ := by simpa using h
        simp only [weight, hstate, List.length_append, List.length_singleton]
        omega
    · obtain ⟨rfl, -⟩ := by simpa using h
      simp only [weight, hstate]
      omega
  · next hstate =>
    split at h
    · obtain ⟨rfl, -⟩ := by simpa using h
      simp only [weight, hstate]
      omega
    · obtain ⟨rfl, -⟩ := by simpa using h
      simp only [weight, hstate]
      omega
    · cases h
  · next hstate =>
    split at h
    · obtain ⟨rfl, -⟩ := by simpa using h
      simp only [weight, hstate]
      omega
    · next hdetached =>
      split at h
      · obtain ⟨rfl, -⟩ := by simpa using h
        simp only [weight, hstate, hdetached, List.length_cons]
        omega
      · obtain ⟨rfl, -⟩ := by simpa using h
        simp only [weight, hstate]
        omega
      · cases h
  · cases h

end Registrar

end RelayChat
