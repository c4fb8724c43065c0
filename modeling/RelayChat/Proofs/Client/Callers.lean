import Mathlib.Data.List.Sort
import RelayChat.Client.Change
import RelayChat.Proofs.Channel.Roster
import RelayChat.Proofs.Client.Opening

/-!
# Calls that run at the same time

Any number of callers may join and leave channels of one client.  `Callers` is the client
with the attempts that were made so far, one for each call; an attempt with a name that
means no channel has come to its end at once.  What happens is a list of events: something
happens to the client, somebody calls, or it is the turn of one caller, whose call then
makes its next move.  Every order in which the moves can fall, and every pattern of
outcomes, is such a list, as the outcomes are among the events of the client.

`Change.Moves` says once what each move of a call is.  A line that a call puts into the
queue is its `Announcement`; which of them the transport has `accepted`, and in which order,
is read off from what it was asked to do.  `Callers.Kept` is what every event keeps: the
announcements are requests of which the connection keeps account, in the order of their
tickets, and each call stands where its own announcement has come to.
-/

namespace RelayChat

/-! ### The moves of a call -/

namespace Change

variable {ch ch' : Change} {c c' : Client} {k : List Char}

/-- The membership that a change makes. -/
def Kind.joins : Kind → Bool
  | .join => true
  | .part => false

/-- The roster with a change made in it. -/
def Kind.record (kind : Kind) (r : Roster) (channel : Channel) : Roster :=
  match kind with
  | .join => r.insert channel
  | .part => r.erase channel

theorem Kind.apply_eq (kind : Kind) (r : Roster) (channel : Channel) :
    kind.apply r channel =
      if r.contains channel = kind.joins then (.unchanged, r)
      else (.changed, kind.record r channel) := by
  cases kind <;> cases h : r.contains channel <;>
    simp [apply, Roster.join, Roster.part, joins, record, h]

theorem Kind.has_record (kind : Kind) (r : Roster) (channel : Channel) (k : List Char) :
    (kind.record r channel).has k = if channel.fold = k then kind.joins else r.has k := by
  cases kind with
  | join => exact r.has_insert channel k
  | part => exact r.has_erase channel k

theorem Kind.has_undo (kind : Kind) (r : Roster) (channel : Channel) (k : List Char) :
    (kind.undo r channel).has k = if channel.fold = k then !kind.joins else r.has k := by
  cases kind with
  | join => exact r.has_erase channel k
  | part => exact r.has_insert channel k

/-- **The moves** of a call: what comes of it, and of the client. -/
inductive Moves (ch : Change) (c : Client) : Change → Client → Prop
  /-- The roster is already as it is asked for. -/
  | keep (h : ch.state = .ready) (hroster : c.roster.contains ch.channel = ch.kind.joins) :
      Moves ch c { ch with state := .finished (.ok .unchanged) } c
  /-- The change is made in the roster. -/
  | record (h : ch.state = .ready) (hroster : c.roster.contains ch.channel = !ch.kind.joins) :
      Moves ch c { ch with state := .recorded }
        { c with roster := ch.kind.record c.roster ch.channel }
  /-- The line is put into the queue. -/
  | post (h : ch.state = .recorded) :
      Moves ch c { ch with state := .queued c.connection.issued }
        { c with connection := c.connection.step (.send [ch.line]) }
  /-- The line has not been sent yet. -/
  | wait {ticket : Ticket} (h : ch.state = .queued ticket)
      (hnone : c.connection.outcome? ticket = none) : Moves ch c ch c
  /-- The line has been sent. -/
  | succeed {ticket : Ticket} (h : ch.state = .queued ticket)
      (hsent : c.connection.outcome? ticket = some (.ok ())) :
      Moves ch c { ch with state := .finished (.ok .changed) } c
  /-- The line could not be sent. -/
  | fail {ticket : Ticket} {e : TransportError} (h : ch.state = .queued ticket)
      (hfailed : c.connection.outcome? ticket = some (.error e)) :
      Moves ch c { ch with state := .failed e } c
  /-- The change is taken back. -/
  | undo {e : TransportError} (h : ch.state = .failed e) :
      Moves ch c { ch with state := .finished (.error e) }
        { c with roster := ch.kind.undo c.roster ch.channel }
  /-- The call has come to its end. -/
  | rest {answer : Except TransportError Membership} (h : ch.state = .finished answer) :
      Moves ch c ch c

/-- **Every move of a call is one of these.** -/
theorem moves_step (ch : Change) (c : Client) : Moves ch c (ch.step c).1 (ch.step c).2 := by
  unfold step
  split
  · next hstate =>
    rw [Kind.apply_eq]
    by_cases hroster : c.roster.contains ch.channel = ch.kind.joins
    · rw [if_pos hroster]
      exact .keep hstate hroster
    · rw [if_neg hroster]
      exact .record hstate (Bool.eq_not.mpr hroster)
  · next hstate =>
    rw [Registrar.submit_eq]
    exact .post hstate
  · next ticket hstate =>
    split
    · next hsent => exact .succeed hstate hsent
    · next hfailed => exact .fail hstate hfailed
    · next hnone => exact .wait hstate hnone
  · next hstate => exact .undo hstate
  · next hstate => exact .rest hstate

/-- What a call is about stays. -/
theorem Moves.about (hmoves : Moves ch c ch' c') :
    ch'.kind = ch.kind ∧ ch'.channel = ch.channel := by
  cases hmoves <;> exact ⟨rfl, rfl⟩

/-- Of other channels the roster says what it said before. -/
theorem Moves.has_eq (hmoves : Moves ch c ch' c') (hk : ch.channel.fold ≠ k) :
    c'.roster.has k = c.roster.has k := by
  cases hmoves with
  | record => exact (Kind.has_record _ _ _ _).trans (if_neg hk)
  | undo => exact (Kind.has_undo _ _ _ _).trans (if_neg hk)
  | _ => rfl

/-- To the connection a move is a request to send, or nothing. -/
theorem Moves.exists_connection_run (hmoves : Moves ch c ch' c') :
    ∃ events, c'.connection = c.connection.run events := by
  cases hmoves with
  | post => exact ⟨[.send [ch.line]], rfl⟩
  | _ => exact ⟨[], rfl⟩

/-- A call's first two moves end it, or put its line into the queue. -/
theorem state_step_step_of_ready (h : ch.state = .ready) (c : Client) :
    let next := ch.step c
    (next.1.step next.2).1.state = .finished (.ok .unchanged) ∨
      ∃ ticket, (next.1.step next.2).1.state = .queued ticket := by
  intro next
  have hmoves : Moves ch c next.1 next.2 := ch.moves_step c
  generalize next = next at hmoves
  obtain ⟨ch', c'⟩ := next
  cases hmoves with
  | keep => exact .inl rfl
  | record => exact .inr ⟨_, rfl⟩
  | post hstate | wait hstate | succeed hstate | fail hstate | undo hstate | rest hstate =>
      rw [h] at hstate
      cases hstate

/-- Two moves end a call whose line has been sent or has failed. -/
theorem state_step_step_of_queued {ticket : Ticket} (h : ch.state = .queued ticket)
    {outcome : Outcome} (houtcome : c.connection.outcome? ticket = some outcome) :
    let next := ch.step c
    ∃ answer, (next.1.step next.2).1.state = .finished answer := by
  intro next
  have hmoves : Moves ch c next.1 next.2 := ch.moves_step c
  generalize next = next at hmoves
  obtain ⟨ch', c'⟩ := next
  cases hmoves with
  | succeed | fail => exact ⟨_, rfl⟩
  | wait hstate hnone =>
      rw [h] at hstate
      cases hstate
      rw [houtcome] at hnone
      cases hnone
  | keep hstate | record hstate | post hstate | undo hstate | rest hstate =>
      rw [h] at hstate
      cases hstate

theorem step_of_finished {answer : Except TransportError Membership}
    (h : ch.state = .finished answer) (c : Client) : ch.step c = (ch, c) := by
  rw [step, h]

/-- A call that is made with a name. -/
def attempt (kind : Kind) (name : String) : Except ValueError Change :=
  (Channel.normalize name).map fun channel => { kind, channel }

/-- What a caller is told, once the call has come to its end. -/
def answer? : Except ValueError Change → Option (Except Failure Membership)
  | .error e => some (.error (.value e))
  | .ok ch =>
    match ch.state with
    | .finished (.ok m) => some (.ok m)
    | .finished (.error e) => some (.error (.transport e))
    | _ => none

theorem answer?_of_finished {answer : Except TransportError Membership}
    (h : ch.state = .finished answer) : answer? (.ok ch) = some (answer.mapError .transport) := by
  cases answer <;> simp [answer?, h, Except.mapError]

end Change

/-- A line that was put into the queue for a caller. -/
structure Announcement where
  /-- The caller, by the number of the call. -/
  caller : Nat
  /-- Whether the channel is joined or left. -/
  kind : Change.Kind
  /-- The channel, by the name that goes into the line. -/
  channel : Channel
  /-- The ticket of the request to send the line. -/
  ticket : Ticket
deriving DecidableEq

namespace Announcement

/-- The line. -/
def line (a : Announcement) : String :=
  a.kind.verb ++ " " ++ a.channel.text

/-- That the line has been sent. -/
def isSent (c : Connection) (a : Announcement) : Bool :=
  c.outcome? a.ticket == some (.ok ())

theorem isSent_iff {c : Connection} {a : Announcement} :
    a.isSent c = true ↔ c.outcome? a.ticket = some (.ok ()) := by
  rw [isSent, beq_iff_eq]

end Announcement

/-- What a call puts into the queue by its next move, if that is what the move does. -/
def Change.announcement? (ch : Change) (caller : Nat) (c : Client) : Option Announcement :=
  match ch.state with
  | .recorded => some ⟨caller, ch.kind, ch.channel, c.connection.issued⟩
  | _ => none

theorem Change.announcement?_of_recorded {ch : Change} (h : ch.state = .recorded) (caller : Nat)
    (c : Client) :
    (ch.announcement? caller c).toList =
      [⟨caller, ch.kind, ch.channel, c.connection.issued⟩] := by
  rw [announcement?, h]
  rfl

theorem Change.announcement?_of_not_recorded {ch : Change} (h : ch.state ≠ .recorded)
    (caller : Nat) (c : Client) : (ch.announcement? caller c).toList = [] := by
  unfold announcement?
  split
  · next hstate => exact absurd hstate h
  · rfl

/-! ### Callers -/

/-- A client and those who join and leave channels. -/
structure Callers where
  /-- The client. -/
  client : Client
  /-- The calls, in the order in which they were made. -/
  attempts : List (Except ValueError Change) := []
  /-- The lines that were put into the queue for them, in order.  This only records. -/
  announced : List Announcement := []

namespace Callers

variable {s : Callers} {asked late : List Request}

/-- A client over a transport that has not been used, with some channels joined, and nobody has
called. -/
def start (config : ClientConfig) (roster : Roster) : Callers where
  client := { Client.start config with roster }

/-- What can happen. -/
inductive Event where
  /-- Something happens to the client, by whoever else uses it, the transport, or itself. -/
  | client (e : Client.Event)
  /-- Somebody calls to join or to leave the channel that a name means. -/
  | call (kind : Change.Kind) (name : String)
  /-- It is a caller's turn. -/
  | turn (caller : Nat)

/-- Whether somebody calls. -/
def Event.isCall : Event → Bool
  | .call _ _ => true
  | _ => false

/-- **One move.** -/
def step (s : Callers) : Event → Callers
  | .client e => { s with client := s.client.step e }
  | .call kind name => { s with attempts := s.attempts ++ [Change.attempt kind name] }
  | .turn i =>
    match s.attempts[i]? with
    | some (.ok ch) =>
      { client := (ch.step s.client).2
        attempts := s.attempts.set i (.ok (ch.step s.client).1)
        announced := s.announced ++ (ch.announcement? i s.client).toList }
    | _ => s

/-- A history. -/
def run (s : Callers) (events : List Event) : Callers :=
  events.foldl step s

@[simp] theorem run_nil (s : Callers) : s.run [] = s := rfl

@[simp] theorem run_cons (s : Callers) (e : Event) (events : List Event) :
    s.run (e :: events) = (s.step e).run events := rfl

theorem run_append (s : Callers) (a b : List Event) : s.run (a ++ b) = (s.run a).run b :=
  List.foldl_append

/-- What happens to the client does not change the roster. -/
theorem roster_step (c : Client) (e : Client.Event) : (c.step e).roster = c.roster := by
  cases e with
  | connection e => rfl
  | registrar =>
      simp only [Client.step]
      split <;> rfl

/-- A connection over which channels are joined and left is a connection like any other. -/
theorem exists_connection_step (s : Callers) (e : Event) :
    ∃ events, (s.step e).client.connection = s.client.connection.run events := by
  cases e with
  | client e => exact ⟨_, Client.connection_step s.client e⟩
  | call kind name => exact ⟨[], rfl⟩
  | turn i =>
      simp only [step]
      split
      · next ch hi => exact (ch.moves_step s.client).exists_connection_run
      · exact ⟨[], rfl⟩

theorem exists_connection_run (s : Callers) (events : List Event) :
    ∃ moves, (s.run events).client.connection = s.client.connection.run moves := by
  induction events generalizing s with
  | nil => exact ⟨[], rfl⟩
  | cons e events ih =>
      obtain ⟨first, hfirst⟩ := s.exists_connection_step e
      obtain ⟨rest, hrest⟩ := ih (s.step e)
      exact ⟨first ++ rest, by rw [run_cons, hrest, hfirst, Connection.run_append]⟩

/-- How requests have ended does not change along a history. -/
theorem outlives_run (s : Callers) (events : List Event) :
    Registrar.Outlives s.client.connection (s.run events).client.connection := by
  obtain ⟨moves, hmoves⟩ := s.exists_connection_run events
  rw [hmoves]
  exact Registrar.outlives_run _ moves

/-- What a caller is told, once the call has come to its end. -/
def answer? (s : Callers) (caller : Nat) : Option (Except Failure Membership) :=
  s.attempts[caller]?.bind Change.answer?

/-- Whether all calls have come to their end. -/
def isIdle (s : Callers) : Bool :=
  s.attempts.all fun attempt => (Change.answer? attempt).isSome

/-- The announcements of a caller. -/
def announcedBy (s : Callers) (caller : Nat) : List Announcement :=
  s.announced.filter (·.caller = caller)

/-- The announcements that the transport has accepted, in the order in which it was handed
them. -/
def accepted (s : Callers) : List Announcement :=
  s.client.connection.calls.filterMap fun
    | .send ticket _ (.ok ()) => s.announced.find? (·.ticket = ticket)
    | _ => none

/-! ### What is kept -/

/-- What the announcements of a caller have come to, by how far the call is. -/
def Stands (own : List Announcement) (c : Connection) (caller : Nat) (ch : Change) : Prop :=
  match ch.state with
  | .ready | .recorded | .finished (.ok .unchanged) => own = []
  | .queued ticket => own = [⟨caller, ch.kind, ch.channel, ticket⟩]
  | .finished (.ok .changed) =>
    ∃ ticket, own = [⟨caller, ch.kind, ch.channel, ticket⟩] ∧
      c.outcome? ticket = some (.ok ())
  | .failed e | .finished (.error e) =>
    ∃ ticket, own = [⟨caller, ch.kind, ch.channel, ticket⟩] ∧
      c.outcome? ticket = some (.error e)

/-- **What is kept** while callers and the client move. -/
structure Kept (asked late : List Request) (s : Callers) : Prop where
  /-- The connection keeps account of all requests. -/
  ledger : Connection.Ledger asked late s.client.connection
  /-- The announcements are among the requests, each with its line. -/
  among : ∀ a ∈ s.announced, Request.send a.ticket [a.line] ∈ asked
  /-- They stand in the order of their tickets. -/
  ordered : s.announced.Pairwise fun earlier later => earlier.ticket < later.ticket
  /-- Each is that of a caller who asked for a channel. -/
  made : ∀ a ∈ s.announced, ∃ ch, s.attempts[a.caller]? = some (.ok ch)
  /-- Each call stands where its announcement has come to. -/
  stands : ∀ i ch, s.attempts[i]? = some (.ok ch) →
    Stands (s.announcedBy i) s.client.connection i ch

theorem kept_start (config : ClientConfig) (roster : Roster) :
    Kept [] [] (start config roster) where
  ledger := Connection.ledger_opened _ _
  among a ha := absurd ha List.not_mem_nil
  ordered := List.Pairwise.nil
  made a ha := absurd ha List.not_mem_nil
  stands i ch h := by simp [start] at h

/-- How requests end is never undone, so what an announcement has come to it has come to for
good. -/
theorem Stands.of_outlives {own : List Announcement} {c d : Connection} {i : Nat} {ch : Change}
    (h : Registrar.Outlives c d) (hstands : Stands own c i ch) : Stands own d i ch := by
  unfold Stands at hstands ⊢
  split at hstands
  · exact hstands
  · exact hstands
  · exact hstands
  · exact hstands
  · obtain ⟨ticket, hown, hsent⟩ := hstands
    exact ⟨ticket, hown, h _ _ hsent⟩
  · obtain ⟨ticket, hown, hfailed⟩ := hstands
    exact ⟨ticket, hown, h _ _ hfailed⟩
  · obtain ⟨ticket, hown, hfailed⟩ := hstands
    exact ⟨ticket, hown, h _ _ hfailed⟩

/-- An announcement has the ticket of a request that has come in. -/
theorem Kept.ticket_lt (h : Kept asked late s) {a : Announcement} (ha : a ∈ s.announced) :
    a.ticket < s.client.connection.issued := by
  have hticket : a.ticket ∈ Connection.tickets asked :=
    Connection.mem_tickets.mpr ⟨_, h.among a ha⟩
  rw [h.ledger.numbered] at hticket
  exact List.mem_range.mp hticket

/-- What happens to the connection keeps it all. -/
theorem Kept.connection (h : Kept asked late s) (client : Client)
    (events : List Connection.Event)
    (hconnection : client.connection = s.client.connection.run events) :
    ∃ late', Kept (asked ++ Connection.requests s.client.connection.issued events) late'
      { s with client } := by
  obtain ⟨late', hledger⟩ := h.ledger.run events
  refine ⟨late', by rwa [hconnection], fun a ha => ?_, h.ordered, h.made, fun i ch hi => ?_⟩
  · exact List.mem_append_left _ (h.among a ha)
  · refine (h.stands i ch hi).of_outlives ?_
    rw [hconnection]
    exact Registrar.outlives_run _ events

/-- A caller who asked for no channel has announced nothing. -/
theorem Kept.announcedBy_eq_nil (h : Kept asked late s) {i : Nat}
    (hi : ∀ ch, s.attempts[i]? ≠ some (.ok ch)) : s.announcedBy i = [] := by
  rw [announcedBy, List.filter_eq_nil_iff]
  intro a ha hcaller
  obtain ⟨ch, hch⟩ := h.made a ha
  rw [of_decide_eq_true hcaller] at hch
  exact hi ch hch

theorem getElem?_concat_eq_some {α : Type} {l : List α} {x y : α} {i : Nat}
    (h : (l ++ [x])[i]? = some y) : l[i]? = some y ∨ i = l.length ∧ x = y := by
  rcases Nat.lt_trichotomy i l.length with hlt | rfl | hgt
  · rw [List.getElem?_append_left hlt] at h
    exact .inl h
  · rw [List.getElem?_concat_length] at h
    exact .inr ⟨rfl, Option.some.inj h⟩
  · rw [List.getElem?_eq_none (by rw [List.length_append, List.length_singleton]; exact hgt)] at h
    cases h

theorem state_of_attempt {kind : Change.Kind} {name : String} {ch : Change}
    (h : Change.attempt kind name = .ok ch) : ch.state = .ready := by
  unfold Change.attempt at h
  cases hname : Channel.normalize name with
  | error e =>
      rw [hname] at h
      cases h
  | ok channel =>
      rw [hname] at h
      cases h
      rfl

/-- A further call keeps it all: it has announced nothing. -/
theorem Kept.call (h : Kept asked late s) (kind : Change.Kind) (name : String) :
    Kept asked late (s.step (.call kind name)) where
  ledger := h.ledger
  among := h.among
  ordered := h.ordered
  made a ha := by
    obtain ⟨ch, hch⟩ := h.made a ha
    obtain ⟨hlt, -⟩ := List.getElem?_eq_some_iff.mp hch
    exact ⟨ch, (List.getElem?_append_left hlt).trans hch⟩
  stands i ch hi := by
    rcases getElem?_concat_eq_some hi with hi | ⟨rfl, hch⟩
    · exact h.stands i ch hi
    · have hnone : s.announcedBy s.attempts.length = [] :=
        h.announcedBy_eq_nil fun ch => by simp
      rw [Stands, state_of_attempt hch]
      exact hnone

theorem getElem?_set_eq_some {α : Type} {l : List α} {x y : α} {i j : Nat}
    (h : (l.set i x)[j]? = some y) : j = i ∧ x = y ∨ j ≠ i ∧ l[j]? = some y := by
  by_cases hij : i = j
  · subst hij
    rw [List.getElem?_set_self'] at h
    cases hl : l[i]? with
    | none => simp [hl] at h
    | some z => simpa [hl] using h
  · rw [List.getElem?_set_ne hij] at h
    exact .inr ⟨Ne.symm hij, h⟩

/-- A move of one call leaves it that announcements are of callers who asked for a channel. -/
theorem Kept.made_set (h : Kept asked late s) {i : Nat} {ch : Change}
    (hi : s.attempts[i]? = some (.ok ch)) (ch' : Change) {a : Announcement}
    (ha : a ∈ s.announced ∨ a.caller = i) :
    ∃ other, (s.attempts.set i (.ok ch'))[a.caller]? = some (.ok other) := by
  by_cases hcaller : i = a.caller
  · subst hcaller
    exact ⟨ch', by rw [List.getElem?_set_self', hi]; rfl⟩
  · obtain ⟨other, hother⟩ := h.made a (ha.resolve_right (Ne.symm hcaller))
    exact ⟨other, by rw [List.getElem?_set_ne hcaller, hother]⟩

/-- A move that announces nothing keeps it all, if the call stands where its announcement has come
to. -/
theorem Kept.stay (h : Kept asked late s) {i : Nat} {ch ch' : Change} {client : Client}
    (hi : s.attempts[i]? = some (.ok ch)) (hstate : ch.state ≠ .recorded)
    (hconnection : client.connection = s.client.connection)
    (hstands : Stands (s.announcedBy i) s.client.connection i ch') :
    ∃ asked' late', Kept asked' late'
      { client
        attempts := s.attempts.set i (.ok ch')
        announced := s.announced ++ (ch.announcement? i s.client).toList } := by
  rw [Change.announcement?_of_not_recorded hstate, List.append_nil]
  refine ⟨asked, late, by rw [hconnection]; exact h.ledger, h.among, h.ordered, ?_, ?_⟩
  · intro a ha
    exact h.made_set hi ch' (.inl ha)
  · intro j other hj
    rw [hconnection]
    rcases getElem?_set_eq_some hj with ⟨rfl, hother⟩ | ⟨-, hj⟩
    · cases hother
      exact hstands
    · exact h.stands j other hj

/-- Putting the line into the queue keeps it all: it is announced with the next ticket. -/
theorem Kept.post (h : Kept asked late s) {i : Nat} {ch : Change}
    (hi : s.attempts[i]? = some (.ok ch)) (hstate : ch.state = .recorded) :
    ∃ asked' late', Kept asked' late'
      { client :=
          { s.client with connection := s.client.connection.step (.send [ch.line]) }
        attempts :=
          s.attempts.set i (.ok { ch with state := .queued s.client.connection.issued })
        announced := s.announced ++ (ch.announcement? i s.client).toList } := by
  have hstood := h.stands i ch hi
  simp only [Stands, hstate] at hstood
  obtain ⟨late', hledger⟩ :=
    h.ledger.moves (s.client.connection.moves_step (.send [ch.line]))
  rw [Change.announcement?_of_recorded hstate]
  refine ⟨_, late', hledger, ?_, ?_, ?_, ?_⟩
  · intro a ha
    rcases List.mem_append.mp ha with ha | ha
    · exact List.mem_append_left _ (h.among a ha)
    · rw [List.mem_singleton.mp ha]
      exact List.mem_append_right _ (List.mem_singleton_self _)
  · rw [List.pairwise_append]
    refine ⟨h.ordered, List.pairwise_singleton _ _, ?_⟩
    intro earlier hearlier later hlater
    rw [List.mem_singleton.mp hlater]
    exact h.ticket_lt hearlier
  · intro a ha
    refine h.made_set hi _ ?_
    rcases List.mem_append.mp ha with ha | ha
    · exact .inl ha
    · rw [List.mem_singleton.mp ha]
      exact .inr rfl
  · intro j other hj
    have hown : ∀ own : List Announcement, s.announcedBy j ++ own.filter (·.caller = j) =
        (s.announced ++ own).filter (·.caller = j) := fun own => (List.filter_append _ _).symm
    rw [announcedBy, ← hown]
    rcases getElem?_set_eq_some hj with ⟨rfl, hother⟩ | ⟨hne, hj⟩
    · cases hother
      rw [hstood]
      simp [Stands]
    · rw [List.filter_cons_of_neg (by simpa using Ne.symm hne), List.filter_nil, List.append_nil]
      exact (h.stands j other hj).of_outlives (Registrar.outlives_step _ _)

/-- **A move of a call keeps it all.** -/
theorem Kept.moves (h : Kept asked late s) {i : Nat} {ch ch' : Change} {client : Client}
    (hi : s.attempts[i]? = some (.ok ch)) (hmoves : Change.Moves ch s.client ch' client) :
    ∃ asked' late', Kept asked' late'
      { client
        attempts := s.attempts.set i (.ok ch')
        announced := s.announced ++ (ch.announcement? i s.client).toList } := by
  have hstood := h.stands i ch hi
  cases hmoves with
  | keep hstate | record hstate | undo hstate =>
      refine h.stay hi (by simp [hstate]) rfl ?_
      simpa only [Stands, hstate] using hstood
  | post hstate => exact h.post hi hstate
  | wait hstate | rest hstate => exact h.stay hi (by simp [hstate]) rfl hstood
  | succeed hstate hsent | fail hstate hsent =>
      refine h.stay hi (by simp [hstate]) rfl ?_
      simp only [Stands, hstate] at hstood
      exact ⟨_, hstood, hsent⟩

/-- **Every event keeps it all.** -/
theorem Kept.step (h : Kept asked late s) (e : Event) :
    ∃ asked' late', Kept asked' late' (s.step e) := by
  cases e with
  | client e =>
      exact ⟨_, h.connection (s.client.step e) _ (Client.connection_step s.client e)⟩
  | call kind name => exact ⟨asked, late, h.call kind name⟩
  | turn i =>
      simp only [Callers.step]
      split
      · next ch hi => exact h.moves hi (ch.moves_step s.client)
      · exact ⟨asked, late, h⟩

theorem Kept.run (h : Kept asked late s) (events : List Event) :
    ∃ asked' late', Kept asked' late' (s.run events) := by
  induction events generalizing s asked late with
  | nil => exact ⟨asked, late, h⟩
  | cons e events ih =>
      obtain ⟨asked', late', hstep⟩ := h.step e
      exact ih hstep

/-! ### What the transport has accepted -/

/-- The lines that are sent for callers are sent in the order of their tickets. -/
theorem Kept.calls_ordered (h : Kept asked late s) :
    (Connection.completions s.client.connection.calls).Pairwise fun earlier later =>
      earlier.1 < later.1 := by
  have hrange : (Connection.tickets asked).Pairwise (· < ·) := by
    rw [h.ledger.numbered]
    exact List.pairwise_lt_range
  rw [h.ledger.order, Connection.tickets_append, Connection.tickets_append, List.append_assoc,
    ← Connection.map_completions] at hrange
  exact List.pairwise_map.mp (List.pairwise_append.mp hrange).1

/-- An announcement is found by its ticket. -/
theorem Kept.find?_ticket (h : Kept asked late s) {a : Announcement} {ticket : Ticket} :
    s.announced.find? (·.ticket = ticket) = some a ↔ a ∈ s.announced ∧ a.ticket = ticket := by
  constructor
  · intro hfind
    exact ⟨List.mem_of_find?_eq_some hfind, of_decide_eq_true (List.find?_some hfind :)⟩
  · rintro ⟨ha, rfl⟩
    cases hfind : s.announced.find? (·.ticket = a.ticket) with
    | none => exact absurd (by simp) (List.find?_eq_none.mp hfind a ha)
    | some b =>
        have hb := List.mem_of_find?_eq_some hfind
        have hticket : b.ticket = a.ticket := of_decide_eq_true (List.find?_some hfind :)
        by_contra hne
        have hsymm : Std.Symm fun a b : Announcement => a.ticket ≠ b.ticket :=
          ⟨fun _ _ hne => hne.symm⟩
        have hdistinct : s.announced.Pairwise fun a b => a.ticket ≠ b.ticket :=
          h.ordered.imp Nat.ne_of_lt
        exact hdistinct.forall hb ha (fun heq => hne (congrArg some heq)) hticket

theorem Kept.mem_accepted (h : Kept asked late s) {a : Announcement} :
    a ∈ s.accepted ↔ a ∈ s.announced ∧ a.isSent s.client.connection = true := by
  rw [accepted, List.mem_filterMap, Announcement.isSent_iff]
  constructor
  · rintro ⟨call, hcall, hfound⟩
    split at hfound
    · obtain ⟨ha, rfl⟩ := h.find?_ticket.mp hfound
      exact ⟨ha, h.ledger.outcome?_eq_some_iff.mpr (.inl ⟨_, hcall⟩)⟩
    · cases hfound
  · rintro ⟨ha, hsent⟩
    rcases h.ledger.outcome?_eq_some_iff.mp hsent with ⟨lines, hcall⟩ | ⟨-, hdisposed⟩
    · exact ⟨_, hcall, h.find?_ticket.mpr ⟨ha, rfl⟩⟩
    · cases hdisposed

/-- **What the transport has accepted** are the announcements that were sent, in the order in
which they were put into the queue. -/
theorem Kept.accepted_eq (h : Kept asked late s) :
    s.accepted = s.announced.filter (·.isSent s.client.connection) := by
  have hirrefl : Std.Irrefl fun a b : Announcement => a.ticket < b.ticket :=
    ⟨fun a => Nat.lt_irrefl a.ticket⟩
  have hantisymm : Std.Antisymm fun a b : Announcement => a.ticket < b.ticket :=
    ⟨fun a b hab hba => absurd hab (Nat.lt_asymm hba)⟩
  refine List.Pairwise.eq_of_mem_iff ?_ (h.ordered.filter _) fun a => ?_
  · rw [accepted, List.pairwise_filterMap]
    refine (List.pairwise_filterMap.mp h.calls_ordered).imp ?_
    intro first second hlt a ha b hb
    split at ha
    · split at hb
      · rw [(h.find?_ticket.mp ha).2, (h.find?_ticket.mp hb).2]
        exact hlt _ rfl _ rfl
      · cases hb
    · cases ha
  · rw [h.mem_accepted, List.mem_filter]

/-- An announcement that was accepted was handed over as its line, by itself. -/
theorem Kept.send_mem_calls (h : Kept asked late s) {a : Announcement} (ha : a ∈ s.accepted) :
    Call.send a.ticket [a.line] (.ok ()) ∈ s.client.connection.calls := by
  obtain ⟨ha, hsent⟩ := h.mem_accepted.mp ha
  rw [Announcement.isSent_iff] at hsent
  rcases h.ledger.send_cases (h.among a ha) with ⟨outcome, hcall, hsome⟩ | ⟨-, -, hnone⟩ |
    ⟨-, -, hdisposed⟩
  · rw [hsent] at hsome
    cases hsome
    exact hcall
  · rw [hsent] at hnone
    cases hnone
  · rw [hsent] at hdisposed
    cases hdisposed

/-! ### What a call comes to -/

/-- How a call that has come to its end stands. -/
theorem state_of_answer? {attempt : Except ValueError Change}
    {answer : Except Failure Membership} (h : Change.answer? attempt = some answer) :
    (∃ e, attempt = .error e ∧ answer = .error (.value e)) ∨
      ∃ ch outcome, attempt = .ok ch ∧ ch.state = .finished outcome ∧
        answer = outcome.mapError .transport := by
  unfold Change.answer? at h
  split at h
  · next e => exact .inl ⟨e, rfl, (Option.some.inj h).symm⟩
  · next ch =>
    split at h
    · next hstate => exact .inr ⟨ch, _, rfl, hstate, (Option.some.inj h).symm⟩
    · next hstate => exact .inr ⟨ch, _, rfl, hstate, (Option.some.inj h).symm⟩
    · cases h

/-! ### Calls one after another -/

/-- Once the connection rests with a consumer, nobody waits for a line to be sent. -/
theorem exists_outcome?_of_queued (config : ClientConfig) (roster : Roster) (events : List Event)
    {transport : Connection.Transport} {i : Nat} {ch : Change} {ticket : Ticket} :
    let s := (start config roster).run events
    s.client.connection.next? transport true = none → s.attempts[i]? = some (.ok ch) →
      ch.state = .queued ticket →
        ∃ outcome, s.client.connection.outcome? ticket = some outcome := by
  intro s hnext hi hstate
  obtain ⟨asked, late, h⟩ := (kept_start config roster).run events
  obtain ⟨moves, hmoves⟩ := (start config roster).exists_connection_run events
  have hbusy : ∀ last, s.client.connection.phase ≠ .delivering [] [] last := by
    rw [hmoves]
    exact ((Connection.delivery_opened _ _).run moves).busy
  have hstood := h.stands i ch hi
  simp only [Stands, hstate] at hstood
  have ha : (⟨i, ch.kind, ch.channel, ticket⟩ : Announcement) ∈ s.announced :=
    List.mem_of_mem_filter (hstood ▸ List.mem_singleton_self _)
  rcases h.ledger.send_cases (h.among _ ha) with ⟨outcome, -, hsome⟩ | ⟨hwaits, -⟩ |
    ⟨-, -, hdisposed⟩
  · exact ⟨outcome, hsome⟩
  · rw [h.ledger.queue_of_next?_eq_none hbusy hnext] at hwaits
    cases hwaits
  · exact ⟨_, hdisposed⟩

theorem run_map_client (s : Callers) (events : List Client.Event) :
    s.run (events.map .client) = { s with client := s.client.run events } := by
  induction events generalizing s with
  | nil => rfl
  | cons e events ih => exact ih (s.step (.client e))

/-- The turn of the last caller. -/
theorem step_turn_last {before : List (Except ValueError Change)} {ch : Change}
    (hattempts : s.attempts = before ++ [.ok ch]) :
    s.step (.turn before.length) =
      { client := (ch.step s.client).2
        attempts := before ++ [.ok (ch.step s.client).1]
        announced := s.announced ++ (ch.announcement? before.length s.client).toList } := by
  simp [step, hattempts]

/-- Two turns of the last caller. -/
theorem run_turns_last {before : List (Except ValueError Change)} {ch : Change}
    (hattempts : s.attempts = before ++ [.ok ch]) :
    let next := ch.step s.client
    let after := s.run [.turn before.length, .turn before.length]
    after.client = (next.1.step next.2).2 ∧
      after.attempts = before ++ [.ok (next.1.step next.2).1] := by
  intro next after
  have hafter : after = (s.step (.turn before.length)).step (.turn before.length) := rfl
  rw [hafter, step_turn_last hattempts, step_turn_last rfl]
  exact ⟨rfl, rfl⟩

/-- **Carrying a call out is a history**, in which nobody else calls, and after which the call has
come to its end. -/
theorem exists_run_carryOut (config : ClientConfig) (roster : Roster) (events : List Event)
    {before : List (Except ValueError Change)} {ch : Change}
    (hattempts : ((start config roster).run events).attempts = before ++ [.ok ch])
    (hready : ch.state = .ready) (transport : Connection.Transport) :
    let s := (start config roster).run events
    let ended := s.client.carryOut transport ch
    ∃ more, (∀ e ∈ more, e.isCall = false) ∧ (s.run more).client = ended.2 ∧
      (s.run more).attempts = before ++ [.ok ended.1] ∧
        ∃ answer, ended.1.state = .finished answer := by
  intro s ended
  let turns : List Event := [.turn before.length, .turn before.length]
  let asked := (ch.step s.client).1.step (ch.step s.client).2
  obtain ⟨hclient, hasked⟩ := run_turns_last hattempts
  -- Coming to rest in between is a history of the client.
  obtain ⟨moves, hrest, hnext, -⟩ := Client.exists_run_settle transport true asked.2
  let rested := s.run (turns ++ moves.map .client)
  have hrested : rested = { s.run turns with client := asked.2.settle transport true } := by
    rw [hrest, ← hclient, ← run_map_client, ← run_append]
  have hattempts' : rested.attempts = before ++ [.ok asked.1] := by rw [hrested, ← hasked]
  have hclient' : rested.client = asked.2.settle transport true := by rw [hrested]
  obtain ⟨hlast, hended⟩ := run_turns_last hattempts'
  rw [hclient'] at hlast hended
  refine ⟨turns ++ moves.map .client ++ turns, ?_, ?_, ?_, ?_⟩
  · have hturns : ∀ e ∈ turns, e.isCall = false := by simp [turns, Event.isCall]
    have hmoves : ∀ e ∈ moves.map Event.client, e.isCall = false :=
      List.forall_mem_map.mpr fun _ _ => rfl
    exact List.forall_mem_append.mpr ⟨List.forall_mem_append.mpr ⟨hturns, hmoves⟩, hturns⟩
  · rw [run_append]
    exact hlast
  · rw [run_append]
    exact hended
  · change ∃ answer, ((asked.1.step (asked.2.settle transport true)).1.step
      (asked.1.step (asked.2.settle transport true)).2).1.state = .finished answer
    rcases ch.state_step_step_of_ready hready s.client with hstate | ⟨ticket, hstate⟩
    · refine ⟨.ok .unchanged, ?_⟩
      rw [Change.step_of_finished hstate, Change.step_of_finished hstate, hstate]
    · have hrun : rested = (start config roster).run (events ++ (turns ++ moves.map .client)) :=
        (run_append _ _ _).symm
      have hlast' : rested.attempts[before.length]? = some (.ok asked.1) := by
        rw [hattempts', List.getElem?_concat_length]
      rw [← hclient'] at hnext ⊢
      rw [hrun] at hnext hlast' ⊢
      obtain ⟨outcome, houtcome⟩ := exists_outcome?_of_queued config roster _ hnext hlast' hstate
      exact Change.state_step_step_of_queued hstate houtcome

/-- **A call by itself is a history**: joining or leaving a channel by itself comes to what the
moves of one more call come to, in which nobody else calls. -/
theorem exists_run_change (config : ClientConfig) (roster : Roster) (events : List Event)
    (transport : Connection.Transport) (kind : Change.Kind) (name : String) :
    let s := (start config roster).run events
    let ended := s.client.change transport kind name
    ∃ more, (∀ e ∈ more, e.isCall = false) ∧
      (s.run (.call kind name :: more)).client = ended.2 ∧
        (s.run (.call kind name :: more)).answer? s.attempts.length = some ended.1 ∧
          (s.isIdle = true → (s.run (.call kind name :: more)).isIdle = true) := by
  intro s ended
  -- It is enough to say what the last attempt is in the end.
  suffices ∃ more last, (∀ e ∈ more, e.isCall = false) ∧
      (s.run (.call kind name :: more)).client = ended.2 ∧
        (s.run (.call kind name :: more)).attempts = s.attempts ++ [last] ∧
          Change.answer? last = some ended.1 by
    obtain ⟨more, last, hmore, hclient, hattempts, hlast⟩ := this
    refine ⟨more, hmore, hclient, ?_, fun hidle => ?_⟩
    · rw [answer?, hattempts, List.getElem?_concat_length, Option.bind_some, hlast]
    · rw [isIdle] at hidle ⊢
      rw [hattempts, List.all_append, hidle]
      simp [hlast]
  cases hname : Channel.normalize name with
  | error e =>
      have hended : ended = (.error (.value e), s.client) := by
        simp only [ended, Client.change, hname]
      refine ⟨[], Change.attempt kind name, by simp, ?_, rfl, ?_⟩
      · rw [hended]
        rfl
      · rw [hended, Change.attempt, hname]
        rfl
  | ok channel =>
      have hattempts : ((start config roster).run (events ++ [.call kind name])).attempts =
          s.attempts ++ [.ok { kind, channel }] := by
        rw [run_append]
        simp [s, step, Change.attempt, hname, Except.map]
      obtain ⟨more, hmore, hclient, hlast, answer, hanswer⟩ :=
        exists_run_carryOut config roster _ hattempts rfl transport
      rw [run_append] at hclient hlast hanswer
      have hanswer : (s.client.carryOut transport { kind, channel }).1.state =
          .finished answer := hanswer
      have hended : ended = (answer.mapError .transport,
          (s.client.carryOut transport { kind, channel }).2) := by
        cases answer <;> simp [ended, Client.change, hname, hanswer, Except.mapError]
      refine ⟨more, _, hmore, ?_, hlast, ?_⟩
      · rw [hended]
        exact hclient
      · rw [hended]
        exact Change.answer?_of_finished hanswer

end Callers
end RelayChat
