import RelayChat.Proofs.Client.Delivery

/-!
# What becomes of requests

The requests of a history are numbered as they come in: `Connection.requests` lists them
without a machine.  `Connection.Ledger` is the account that every move keeps.  The
requests are, in order, those that were served, those in the queue, and those that came
too `late`, which are none while the connection runs; and the ones that are settled are
those that were served, with the outcome of the transport, and those too late.  As each
has a number of its own, all that is to be said of a single request follows.

Beside the account two facts are kept.  From the event that `Ends` a connection on,
nothing is handed to the transport.  And the outcomes of the transport have no part in
what happens: `Connection.plain` leaves them out, and what a move does to the rest does
not depend on them.
-/

namespace RelayChat

/-- The request that a call to the transport serves. -/
def Call.request? : Call → Option Request
  | .send ticket lines _ => some (.send ticket lines)
  | .pong .. => none
  | .dispose => some .dispose

/-- The request to send that a call completes, and with what outcome. -/
def Call.completion? : Call → Option (Ticket × Outcome)
  | .send ticket _ outcome => some (ticket, outcome)
  | _ => none

/-- The call with the outcome left out. -/
def Call.plain : Call → Call
  | .send ticket lines _ => .send ticket lines (.ok ())
  | .pong lines _ => .pong lines (.ok ())
  | .dispose => .dispose

@[simp] theorem Call.plain_send (ticket : Ticket) (lines : List String) (outcome : Outcome) :
    (Call.send ticket lines outcome).plain = .send ticket lines (.ok ()) := rfl

@[simp] theorem Call.plain_pong (lines : List String) (outcome : Outcome) :
    (Call.pong lines outcome).plain = .pong lines (.ok ()) := rfl

@[simp] theorem Call.plain_plain (call : Call) : call.plain.plain = call.plain := by
  cases call <;> rfl

/-- The lines that a call hands to the transport. -/
def Call.batch? : Call → Option (List String)
  | .send _ lines _ => some lines
  | .pong lines _ => some lines
  | .dispose => none

namespace Connection

variable {c d : Connection} {e : Event}

/-! ### Requests and calls -/

/-- The requests of a history; those to send are numbered from `next` on. -/
def requests (next : Ticket) : List Event → List Request
  | [] => []
  | .send lines :: rest => .send next lines :: requests (next + 1) rest
  | .dispose :: rest => .dispose :: requests next rest
  | _ :: rest => requests next rest

/-- The requests that some calls serve. -/
def served (calls : List Call) : List Request :=
  calls.filterMap (·.request?)

/-- The requests to send that some calls complete, with their outcomes. -/
def completions (calls : List Call) : List (Ticket × Outcome) :=
  calls.filterMap (·.completion?)

/-- The batches of lines that some calls hand to the transport. -/
def handed (calls : List Call) : List (List String) :=
  calls.filterMap (·.batch?)

@[simp] theorem tickets_append (a b : List Request) : tickets (a ++ b) = tickets a ++ tickets b :=
  List.filterMap_append

@[simp] theorem tickets_nil : tickets [] = [] := rfl

@[simp] theorem tickets_send (ticket : Ticket) (lines : List String) (rs : List Request) :
    tickets (.send ticket lines :: rs) = ticket :: tickets rs := rfl

@[simp] theorem tickets_dispose (rs : List Request) : tickets (.dispose :: rs) = tickets rs := rfl

/-- The requests that are completed are the ones to send that are served. -/
theorem map_completions (calls : List Call) :
    (completions calls).map Prod.fst = tickets (served calls) := by
  rw [completions, served, tickets, List.map_filterMap, List.filterMap_filterMap]
  refine congrArg (List.filterMap · calls) (funext fun call => ?_)
  cases call <;> rfl

/-- Requests are numbered in the order in which they come in. -/
theorem requests_cons (next : Ticket) (e : Event) (events : List Event) :
    requests next (e :: events) =
      requests next [e] ++ requests (next + (tickets (requests next [e])).length) events := by
  cases e <;> rfl

/-! ### The account -/

/-- **The account of the requests** that have come in: `late` are those of them that a stopped
connection did not serve. -/
structure Ledger (asked late : List Request) (c : Connection) : Prop where
  /-- Requests to send are numbered as they come in. -/
  numbered : tickets asked = List.range c.issued
  /-- They are served in the order in which they come in. -/
  order : asked = served c.calls ++ c.queue ++ late
  /-- Those that are served are settled as the transport has it, those too late as disposed. -/
  settled_eq : c.settled = completions c.calls ++ (tickets late).map fun t => (t, .error .disposed)
  /-- While a connection runs, nothing is too late. -/
  running : c.phase ≠ .stopped → late = []
  /-- Once it has stopped, nothing waits. -/
  stopped : c.phase = .stopped → c.queue = []

variable {asked late : List Request}

/-- At the beginning nothing has been asked for. -/
theorem ledger_opened (policy : ErrorPolicy) (capacity : Nat) :
    Ledger [] [] (opened policy capacity) where
  numbered := rfl
  order := rfl
  settled_eq := rfl
  running _ := rfl
  stopped _ := rfl

/-- When a connection stops, what is in the queue is too late. -/
theorem Ledger.stop (h : Ledger asked [] c) : Ledger asked c.queue c.stop where
  numbered := h.numbered
  order := by simpa [Connection.stop] using h.order
  settled_eq := by
    have hsettled : c.settled = completions c.calls := by simpa using h.settled_eq
    rw [Connection.stop, hsettled]
  running hphase := absurd rfl hphase
  stopped _ := rfl

/-- Going on keeps the account. -/
theorem Ledger.handle (h : Ledger asked late c) (hphase : c.phase ≠ .stopped)
    (pongs : List String) (items : List Item) (last : Bool) :
    ∃ late', Ledger asked late' (c.handle pongs items last) := by
  obtain rfl := h.running hphase
  obtain heq | ⟨phase, hne, heq⟩ := c.handle_cases pongs items last
  · exact ⟨c.queue, heq ▸ h.stop⟩
  · rw [heq]
    exact ⟨[], h.numbered, h.order, h.settled_eq, fun _ => rfl, fun hstopped => absurd hstopped hne⟩

/-- An event by which no request comes in is to keep the account as it is. -/
theorem Ledger.of_quiet {late' : List Request} (h : Ledger asked late' d)
    (hnone : requests c.issued [e] = []) :
    ∃ late', Ledger (asked ++ requests c.issued [e]) late' d := by
  rw [hnone, List.append_nil]
  exact ⟨late', h⟩

/-- An event that makes no difference is a late request, or none. -/
theorem Ledger.idle (h : Ledger asked late c) (hidle : c.Idle e) :
    ∃ late', Ledger (asked ++ requests c.issued [e]) late' c := by
  cases e with
  | send => exact hidle.elim
  | dispose =>
      refine ⟨late ++ [.dispose], ?_, ?_, ?_, fun hrunning => absurd hidle hrunning, h.stopped⟩
      · simpa [requests] using h.numbered
      · simp [requests, h.order]
      · simpa using h.settled_eq
  | _ => exact h.of_quiet rfl

/-- **Every move keeps the account**, with the request that comes in by it. -/
theorem Ledger.moves (h : Ledger asked late c) (hmoves : Moves c e d) :
    ∃ late', Ledger (asked ++ requests c.issued [e]) late' d := by
  cases hmoves with
  | idle hidle => exact h.idle hidle
  | ask hphase =>
      obtain rfl := h.running hphase
      refine ⟨[], ?_, ?_, h.settled_eq, fun _ => rfl, fun hstopped => absurd hstopped hphase⟩
      · simp [requests, h.numbered, List.range_succ]
      · simp [requests, h.order]
  | @refuse lines hphase =>
      refine ⟨late ++ [.send c.issued lines], ?_, ?_, ?_, fun hrunning => absurd hphase hrunning,
        h.stopped⟩
      · simp [requests, h.numbered, List.range_succ]
      · simp [requests, h.order]
      · simp [h.settled_eq]
  | askDispose hphase =>
      obtain rfl := h.running hphase
      refine ⟨[], ?_, ?_, h.settled_eq, fun _ => rfl, fun hstopped => absurd hstopped hphase⟩
      · simpa [requests] using h.numbered
      · simp [requests, h.order]
  | serveSend hphase hqueue =>
      obtain rfl := h.running (by simp [hphase])
      refine Ledger.of_quiet ⟨h.numbered, ?_, ?_, fun _ => rfl, by simp [hphase]⟩ rfl
      · simp [h.order, hqueue, served, Call.request?]
      · simp [h.settled_eq, completions, Call.completion?]
  | @serveDispose rest outcome hphase hqueue =>
      obtain rfl := h.running (by simp [hphase])
      have hserved : Ledger asked []
          { c with queue := rest, calls := c.calls ++ [Call.dispose] } := by
        refine ⟨h.numbered, ?_, ?_, fun _ => rfl, by simp [hphase]⟩
        · simp [h.order, hqueue, served, Call.request?]
        · simp [h.settled_eq, completions, Call.completion?]
      exact Ledger.of_quiet hserved.stop rfl
  | takeChunk hphase =>
      obtain ⟨late', hhandled⟩ := h.handle (by simp [hphase]) _ _ _
      exact hhandled.of_quiet rfl
  | takeFailure hphase =>
      obtain ⟨late', hhandled⟩ := h.handle (by simp [hphase]) _ _ _
      exact hhandled.of_quiet rfl
  | takeClose hphase =>
      obtain rfl := h.running (by simp [hphase])
      exact Ledger.of_quiet h.stop rfl
  | @sendPongs pongs items last outcome hphase hpongs =>
      have hsent : Ledger asked late { c with calls := c.calls ++ [Call.pong pongs outcome] } := by
        refine ⟨h.numbered, ?_, ?_, h.running, h.stopped⟩
        · simpa [served, Call.request?] using h.order
        · simpa [completions, Call.completion?] using h.settled_eq
      obtain ⟨late', hhandled⟩ := hsent.handle (by simp [hphase]) _ _ _
      exact hhandled.of_quiet rfl
  | @deliver pongs item items last hphase =>
      have hput : Ledger asked late { c with stream := c.stream ++ [item] } :=
        ⟨h.numbered, h.order, h.settled_eq, h.running, h.stopped⟩
      obtain ⟨late', hhandled⟩ := hput.handle (by simp [hphase]) _ _ _
      exact hhandled.of_quiet rfl
  | drop hphase =>
      obtain ⟨late', hhandled⟩ := h.handle (by simp [hphase]) _ _ _
      exact hhandled.of_quiet rfl
  | read | leave =>
      exact Ledger.of_quiet ⟨h.numbered, h.order, h.settled_eq, h.running, h.stopped⟩ rfl

/-- A move issues as many tickets as it brings in requests to send. -/
theorem issued_moves (hmoves : Moves c e d) :
    d.issued = c.issued + (tickets (requests c.issued [e])).length := by
  cases hmoves with
  | @idle e hidle =>
      cases e with
      | send => exact hidle.elim
      | _ => rfl
  | _ => simp [stop, requests]

/-- A history keeps the account. -/
theorem Ledger.run (h : Ledger asked late c) (events : List Event) :
    ∃ late', Ledger (asked ++ requests c.issued events) late' (c.run events) := by
  induction events generalizing c asked late with
  | nil => exact ⟨late, by simpa [requests] using h⟩
  | cons e events ih =>
      obtain ⟨late', hstep⟩ := h.moves (c.moves_step e)
      rw [requests_cons, ← issued_moves (c.moves_step e), ← List.append_assoc]
      exact ih hstep

/-! ### A single request -/

/-- The tickets are those of the requests to send. -/
theorem mem_tickets {ticket : Ticket} {rs : List Request} :
    ticket ∈ tickets rs ↔ ∃ lines, Request.send ticket lines ∈ rs := by
  rw [tickets, List.mem_filterMap]
  constructor
  · rintro ⟨_ | _, hmem, heq⟩
    · cases heq
      exact ⟨_, hmem⟩
    · cases heq
  · rintro ⟨lines, hmem⟩
    exact ⟨_, hmem, rfl⟩

/-- The completions are those of the calls to send. -/
theorem mem_completions {ticket : Ticket} {outcome : Outcome} {calls : List Call} :
    (ticket, outcome) ∈ completions calls ↔ ∃ lines, Call.send ticket lines outcome ∈ calls := by
  rw [completions, List.mem_filterMap]
  constructor
  · rintro ⟨_ | _ | _, hmem, heq⟩ <;> cases heq
    exact ⟨_, hmem⟩
  · rintro ⟨lines, hmem⟩
    exact ⟨_, hmem, rfl⟩

/-- What was served is what the transport was called for. -/
theorem send_mem_served {ticket : Ticket} {lines : List String} {calls : List Call} :
    Request.send ticket lines ∈ served calls ↔
      ∃ outcome, Call.send ticket lines outcome ∈ calls := by
  rw [served, List.mem_filterMap]
  constructor
  · rintro ⟨_ | _ | _, hmem, heq⟩ <;> cases heq
    exact ⟨_, hmem⟩
  · rintro ⟨outcome, hmem⟩
    exact ⟨_, hmem, rfl⟩

/-- No two requests to send have the same ticket, whatever has become of them. -/
theorem Ledger.tickets_nodup (h : Ledger asked late c) :
    (tickets (served c.calls) ++ tickets c.queue ++ tickets late).Nodup := by
  rw [← tickets_append, ← tickets_append, ← h.order, h.numbered]
  exact List.nodup_range

/-- The tickets that are settled are those that were served, and those that came too late. -/
theorem Ledger.map_settled (h : Ledger asked late c) :
    c.settled.map Prod.fst = tickets (served c.calls) ++ tickets late := by
  rw [h.settled_eq, List.map_append, map_completions, List.map_map]
  exact congrArg _ (List.map_id _)

/-- No request to send is settled twice. -/
theorem Ledger.settled_nodup (h : Ledger asked late c) : (c.settled.map Prod.fst).Nodup := by
  rw [h.map_settled]
  exact h.tickets_nodup.sublist (List.sublist_append_left _ _ |>.append (List.Sublist.refl _))

/-- With no ticket twice, to look an outcome up is to find the entry. -/
theorem lookup_eq_some_iff_mem {settled : List (Ticket × Outcome)} {ticket : Ticket}
    {outcome : Outcome} (h : (settled.map Prod.fst).Nodup) :
    settled.lookup ticket = some outcome ↔ (ticket, outcome) ∈ settled := by
  rw [List.lookup_eq_some_iff]
  constructor
  · rintro ⟨front, rest, rfl, -⟩
    simp
  · intro hmem
    obtain ⟨front, rest, rfl⟩ := List.append_of_mem hmem
    refine ⟨front, rest, rfl, fun p hp => ?_⟩
    rw [List.map_append, List.map_cons] at h
    rw [bne_iff_ne]
    exact (List.nodup_append.mp h).2.2 _ (List.mem_map_of_mem hp) _ List.mem_cons_self |>.symm

/-- How a request ended: as the transport had it, or too late. -/
theorem Ledger.outcome?_eq_some_iff (h : Ledger asked late c) {ticket : Ticket}
    {outcome : Outcome} :
    c.outcome? ticket = some outcome ↔
      (∃ lines, Call.send ticket lines outcome ∈ c.calls) ∨
        ticket ∈ tickets late ∧ outcome = .error .disposed := by
  rw [outcome?, lookup_eq_some_iff_mem h.settled_nodup, h.settled_eq, List.mem_append,
    mem_completions, List.mem_map]
  refine or_congr_right ⟨?_, ?_⟩
  · rintro ⟨t, ht, heq⟩
    cases heq
    exact ⟨ht, rfl⟩
  · rintro ⟨ht, rfl⟩
    exact ⟨ticket, ht, rfl⟩

theorem mem_tickets_served {ticket : Ticket} {lines : List String} {outcome : Outcome}
    {calls : List Call} (h : Call.send ticket lines outcome ∈ calls) :
    ticket ∈ tickets (served calls) :=
  mem_tickets.mpr ⟨lines, send_mem_served.mpr ⟨outcome, h⟩⟩

/-- **What has become of a request to send**: it was handed over, it waits, or it came too late. -/
theorem Ledger.send_cases (h : Ledger asked late c) {ticket : Ticket} {lines : List String}
    (hmem : Request.send ticket lines ∈ asked) :
    (∃ outcome, Call.send ticket lines outcome ∈ c.calls ∧ c.outcome? ticket = some outcome) ∨
      (Request.send ticket lines ∈ c.queue ∧ c.phase ≠ .stopped ∧ c.outcome? ticket = none) ∨
        (c.phase = .stopped ∧ (∀ lines outcome, Call.send ticket lines outcome ∉ c.calls) ∧
          c.outcome? ticket = some (.error .disposed)) := by
  obtain ⟨hbefore, -, hafter⟩ := List.nodup_append.mp h.tickets_nodup
  have hwaits := (List.nodup_append.mp hbefore).2.2
  rw [h.order, List.mem_append, List.mem_append, send_mem_served] at hmem
  rcases hmem with (⟨outcome, hcall⟩ | hqueue) | hlate
  · exact .inl ⟨outcome, hcall, h.outcome?_eq_some_iff.mpr (.inl ⟨lines, hcall⟩)⟩
  · have hticket : ticket ∈ tickets c.queue := mem_tickets.mpr ⟨lines, hqueue⟩
    refine .inr (.inl ⟨hqueue, fun hstopped => ?_, ?_⟩)
    · rw [h.stopped hstopped] at hqueue
      cases hqueue
    · refine Option.eq_none_iff_forall_ne_some.mpr fun outcome hsome => ?_
      rcases h.outcome?_eq_some_iff.mp hsome with ⟨lines, hcall⟩ | ⟨hlate, -⟩
      · exact hwaits _ (mem_tickets_served hcall) _ hticket rfl
      · exact hafter _ (List.mem_append_right _ hticket) _ hlate rfl
  · have hticket : ticket ∈ tickets late := mem_tickets.mpr ⟨lines, hlate⟩
    refine .inr (.inr ⟨?_, fun lines outcome hcall => ?_,
      h.outcome?_eq_some_iff.mpr (.inr ⟨hticket, rfl⟩)⟩)
    · by_contra hrunning
      rw [h.running hrunning] at hlate
      cases hlate
    · exact hafter _ (List.mem_append_left _ (mem_tickets_served hcall)) _ hticket rfl

/-- What a connection settles when it goes on, it settles after what it had settled. -/
theorem settled_handle (c : Connection) (pongs : List String) (items : List Item) (last : Bool) :
    c.settled <+: (c.handle pongs items last).settled := by
  obtain h | ⟨_, -, h⟩ := c.handle_cases pongs items last
  · exact h ▸ List.prefix_append _ _
  · exact h ▸ List.prefix_refl _

/-- Nothing that is settled comes undone. -/
theorem settled_moves (hmoves : Moves c e d) : c.settled <+: d.settled := by
  cases hmoves with
  | refuse => exact List.prefix_append _ _
  | serveSend => exact List.prefix_append _ _
  | serveDispose => exact List.prefix_append _ _
  | takeClose => exact List.prefix_append _ _
  | takeChunk => exact c.settled_handle _ _ _
  | takeFailure => exact c.settled_handle _ _ _
  | @sendPongs pongs items last outcome =>
      exact settled_handle { c with calls := c.calls ++ [Call.pong pongs outcome] } _ _ _
  | @deliver pongs item items last =>
      exact settled_handle { c with stream := c.stream ++ [item] } _ _ _
  | drop => exact c.settled_handle _ _ _
  | _ => exact List.prefix_refl _

/-- How a request ended does not change. -/
theorem outcome?_moves {ticket : Ticket} {outcome : Outcome} (h : c.outcome? ticket = some outcome)
    (hmoves : Moves c e d) : d.outcome? ticket = some outcome := by
  obtain ⟨more, hmore⟩ := settled_moves hmoves
  rw [outcome?, ← hmore, List.lookup_append, ← outcome?, h, Option.some_or]

/-- Where a connection rests with a consumer, nothing is left in its queue. -/
theorem Ledger.queue_of_next?_eq_none (h : Ledger asked late c)
    (hbusy : ∀ last, c.phase ≠ .delivering [] [] last) {transport : Transport}
    (hnext : c.next? transport true = none) : c.queue = [] := by
  rcases phase_of_next?_eq_none hbusy hnext with hphase | hphase
  · match hqueue : c.queue with
    | [] => rfl
    | .send _ _ :: _ => simp [next?, hphase, hqueue] at hnext
    | .dispose :: _ => simp [next?, hphase, hqueue] at hnext
  · exact h.stopped hphase

/-- **No request waits for ever**, if everything goes on and what is received is read. -/
theorem exists_queue_settle (policy : ErrorPolicy) (capacity : Nat) (events : List Event)
    (transport : Transport) :
    ∃ more, ((opened policy capacity).run events).settle transport true =
        (opened policy capacity).run (events ++ more) ∧
      ((opened policy capacity).run (events ++ more)).queue = [] := by
  obtain ⟨more, -, hrun, hnext⟩ :=
    exists_run_settle transport true ((opened policy capacity).run events)
  rw [hrun, ← run_append] at hnext
  obtain ⟨late, h⟩ := (ledger_opened policy capacity).run (events ++ more)
  have hdelivery := (delivery_opened policy capacity).run (events ++ more)
  exact ⟨more, by rw [hrun, run_append], h.queue_of_next?_eq_none hdelivery.busy hnext⟩

/-! ### What ends a connection -/

/-- The events that end a connection, where it takes them in: that the server closed, that
receiving failed, and the request to dispose of the transport. -/
def Ends (c : Connection) (e : Event) : Prop :=
  c.phase = .waiting ∧
    match e with
    | .close | .fail _ => True
    | .serve _ => c.queue.head? = some .dispose
    | _ => False

/-- With the event that ends it a connection is closing; no lines are handed over. -/
theorem isClosing_of_ends (h : c.Ends e) (hmoves : Moves c e d) :
    d.IsClosing ∧ handed d.calls = handed c.calls := by
  obtain ⟨hphase, hevent⟩ := h
  cases hmoves with
  | idle hidle =>
      cases e with
      | serve outcome =>
          rcases hidle with hne | hempty
          · exact absurd hphase hne
          · simp [hempty] at hevent
      | close | fail => exact absurd hphase hidle
      | _ => exact hevent.elim
  | serveSend _ hqueue => simp [hqueue] at hevent
  | serveDispose => exact ⟨isClosing_stop _, by simp [stop, handed, Call.batch?]⟩
  | takeFailure => exact ⟨by simp [IsClosing], by simp⟩
  | takeClose => exact ⟨isClosing_stop _, rfl⟩
  | sendPongs hdelivering => simp [hphase] at hdelivering
  | deliver hdelivering => simp [hphase] at hdelivering
  | drop hdelivering => simp [hphase] at hdelivering
  | _ => exact hevent.elim

/-- Without such an event a connection goes on. -/
theorem isLast_of_not_ends (hlast : c.phase.isLast = false) (h : ¬ c.Ends e)
    (hmoves : Moves c e d) : d.phase.isLast = false := by
  cases hmoves with
  | serveDispose hphase hqueue => exact absurd ⟨hphase, by simp [hqueue]⟩ h
  | takeFailure hphase => exact absurd ⟨hphase, trivial⟩ h
  | takeClose hphase => exact absurd ⟨hphase, trivial⟩ h
  | takeChunk => simp
  | sendPongs hphase => simpa [hphase] using hlast
  | deliver hphase => simpa [hphase] using hlast
  | drop hphase => simpa [hphase] using hlast
  | _ => exact hlast

/-- A connection is at its end exactly if such an event has been taken in. -/
theorem isLast_run_iff (hlast : c.phase.isLast = false) (events : List Event) :
    (c.run events).phase.isLast = true ↔
      ∃ before e after, events = before ++ e :: after ∧ (c.run before).Ends e := by
  induction events generalizing c with
  | nil => simp [hlast]
  | cons e events ih =>
      by_cases hends : c.Ends e
      · have hclosing := (isClosing_of_ends hends (c.moves_step e)).1
        exact iff_of_true (closing_run hclosing events).1.1 ⟨[], e, events, rfl, hends⟩
      · rw [run_cons, ih (isLast_of_not_ends hlast hends (c.moves_step e))]
        constructor
        · rintro ⟨before, e', after, rfl, h⟩
          exact ⟨e :: before, e', after, rfl, h⟩
        · rintro ⟨before, e', after, heq, h⟩
          cases before with
          | nil =>
              cases heq
              exact absurd h hends
          | cons first before =>
              obtain ⟨rfl, rfl⟩ := List.cons.inj heq
              exact ⟨before, e', after, rfl, h⟩

/-- After the event that ends a connection nothing is handed over. -/
theorem handed_run_of_ends {before after : List Event} (h : (c.run before).Ends e) :
    handed (c.run (before ++ e :: after)).calls = handed (c.run before).calls := by
  obtain ⟨hclosing, hhanded⟩ := isClosing_of_ends h ((c.run before).moves_step e)
  rw [run_append, run_cons, (closing_run hclosing after).2, hhanded]

/-! ### What outcomes do not change -/

/-- The event with a send that succeeds, if it sends. -/
def Event.plain : Event → Event
  | .serve _ => .serve (.ok ())
  | .pong _ => .pong (.ok ())
  | e => e

/-- The connection without what the transport answered. -/
def plain (c : Connection) : Connection :=
  { c with calls := c.calls.map Call.plain, settled := [] }

section Fields

variable (c : Connection)

@[simp] theorem phase_plain : c.plain.phase = c.phase := rfl

@[simp] theorem policy_plain : c.plain.policy = c.policy := rfl

@[simp] theorem canDeliver_plain : c.plain.canDeliver = c.canDeliver := rfl

end Fields

/-- To go on, it does not matter what the transport has answered. -/
theorem plain_handle (c : Connection) (pongs : List String) (items : List Item) (last : Bool) :
    (c.handle pongs items last).plain = (c.plain.handle pongs items last).plain := by
  unfold handle
  split
  · split <;> simp [plain, stop]
  · simp [plain]

theorem plain_handle_congr (h : c.plain = d.plain) (pongs : List String) (items : List Item)
    (last : Bool) : (c.handle pongs items last).plain = (d.handle pongs items last).plain := by
  rw [plain_handle c, plain_handle d, h]

/-- To hand pongs over, it does not matter what the transport answers. -/
theorem plain_sendPongs (c : Connection) (outcome : Outcome) :
    (c.sendPongs outcome).plain = (c.plain.sendPongs (.ok ())).plain := by
  rcases hphase : c.phase with _ | ⟨_ | ⟨pong, pongs⟩, items, last⟩ | _
  · simp [sendPongs, hphase, plain]
  · simp [sendPongs, hphase, plain]
  · simp only [sendPongs, hphase, phase_plain]
    exact plain_handle_congr (by simp [plain]) _ _ _
  · simp [sendPongs, hphase, plain]

/-- To deliver an item, it does not matter what the transport has answered. -/
theorem plain_deliver (c : Connection) : c.deliver.plain = c.plain.deliver.plain := by
  rcases hphase : c.phase with _ | ⟨pongs, _ | ⟨item, items⟩, last⟩ | _
  · simp [deliver, hphase, plain]
  · simp [deliver, hphase, plain]
  · simp only [deliver, hphase, phase_plain, canDeliver_plain]
    split
    · refine plain_handle_congr ?_ _ _ _
      cases hheld : c.held <;> simp [plain, Function.comp_def, hheld]
    · simp [plain]
  · simp [deliver, hphase, plain]

/-- To serve a request, it does not matter what the transport answers. -/
theorem plain_serve (c : Connection) (outcome : Outcome) :
    (c.serve outcome).plain = (c.plain.serve (.ok ())).plain := by
  rcases hphase : c.phase with _ | _ | _
  · rcases hqueue : c.queue with _ | ⟨_ | _, rest⟩ <;>
      simp [serve, plain, hphase, hqueue, stop]
  · simp [serve, plain, hphase]
  · simp [serve, plain, hphase]

/-- What a move does apart from the outcomes does not depend on the outcomes. -/
theorem plain_step (c : Connection) (e : Event) :
    (c.step e).plain = (c.plain.step e.plain).plain := by
  cases e with
  | send lines => cases hphase : c.phase <;> simp [step, submit, plain, hphase, Event.plain]
  | dispose => cases hphase : c.phase <;> simp [step, askDispose, plain, hphase, Event.plain]
  | serve outcome => exact plain_serve c outcome
  | chunk text =>
      simp only [step, takeChunk, Event.plain, phase_plain, policy_plain]
      split
      · exact plain_handle _ _ _ _
      · simp [plain]
  | fail e =>
      simp only [step, takeFailure, Event.plain, phase_plain]
      split
      · exact plain_handle _ _ _ _
      · simp [plain]
  | close => cases hphase : c.phase <;> simp [step, takeClose, plain, hphase, Event.plain, stop]
  | pong outcome => exact plain_sendPongs c outcome
  | deliver => exact plain_deliver c
  | read => cases hstream : c.stream <;> simp [step, read, plain, hstream, Event.plain]
  | leave => simp [step, leave, plain, Event.plain]

/-- So a whole history goes the same way whatever the transport answers. -/
theorem plain_run_congr (h : c.plain = d.plain) (events : List Event) :
    (c.run events).plain = (d.run (events.map Event.plain)).plain := by
  induction events generalizing c d with
  | nil => exact h
  | cons e events ih =>
      have hplain : e.plain.plain = e.plain := by cases e <;> rfl
      refine ih ?_
      rw [plain_step c, plain_step d, h, hplain]

/-- **Whether sends succeed does not change what is handed over.** -/
theorem handed_run_plain (c : Connection) (events : List Event) :
    handed (c.run (events.map Event.plain)).calls = handed (c.run events).calls := by
  have hplain : ∀ d : Connection, handed d.calls = handed d.plain.calls := by
    intro d
    rw [handed, handed, plain, List.filterMap_map]
    refine congrArg (List.filterMap · d.calls) (funext fun call => ?_)
    cases call <;> rfl
  rw [hplain (c.run events), plain_run_congr rfl events, ← hplain]

/-! ### The whole of it -/

/-- What becomes of the requests in a history of a connection. -/
structure ServesExactly (policy : ErrorPolicy) (capacity : Nat) (events : List Event) : Prop where
  /-- Nothing is lost, doubled, split or reordered: the requests are, in order, those served, each
  with all its lines, then those that wait, then those too late.  While the connection runs
  there are none too late, and once it has stopped none wait. -/
  in_order :
    let c := (opened policy capacity).run events
    ∃ late, requests 0 events = served c.calls ++ c.queue ++ late ∧
      (c.phase ≠ .stopped → late = []) ∧ (c.phase = .stopped → c.queue = [])
  /-- All else that is handed over are pongs: the whole batches of the chunks that were taken in,
  in order. -/
  pongs :
    let c := (opened policy capacity).run events
    pongBatches c.calls <+: dueBatches policy ((opened policy capacity).chunks events)
  /-- The connection comes to its end with the first request to dispose of the transport, closing
  by the server or failure to receive that it takes in, and with nothing else. -/
  ends :
    ((opened policy capacity).run events).phase.isLast = true ↔
      ∃ before e after, events = before ++ e :: after ∧
        ((opened policy capacity).run before).Ends e
  /-- From then on nothing is handed over. -/
  silent : ∀ before e after, events = before ++ e :: after →
    ((opened policy capacity).run before).Ends e →
      handed ((opened policy capacity).run events).calls =
        handed ((opened policy capacity).run before).calls
  /-- No request to send is completed twice. -/
  once : (((opened policy capacity).run events).settled.map Prod.fst).Nodup
  /-- A request to send has been handed over and completed with the outcome that the transport
  gave, or it waits and is not completed, or it was not handed over, the connection has stopped,
  and it was completed with `disposed`. -/
  completed : ∀ ticket lines, Request.send ticket lines ∈ requests 0 events →
    let c := (opened policy capacity).run events
    (∃ outcome, Call.send ticket lines outcome ∈ c.calls ∧ c.outcome? ticket = some outcome) ∨
      (Request.send ticket lines ∈ c.queue ∧ c.phase ≠ .stopped ∧ c.outcome? ticket = none) ∨
        (c.phase = .stopped ∧ (∀ lines outcome, Call.send ticket lines outcome ∉ c.calls) ∧
          c.outcome? ticket = some (.error .disposed))
  /-- If everything goes on and what is received is read, none waits for ever. -/
  answered : ∀ transport, ∃ more,
    ((opened policy capacity).run events).settle transport true =
        (opened policy capacity).run (events ++ more) ∧
      ((opened policy capacity).run (events ++ more)).queue = []
  /-- A send that fails stands in the way of nothing: what is handed over is the same as if every
  send had succeeded. -/
  undeterred :
    handed ((opened policy capacity).run (events.map Event.plain)).calls =
      handed ((opened policy capacity).run events).calls
  /-- Before the transport is disposed of, all requests have been served that came in before the
  request to do so. -/
  flushed : ∀ before after,
    ((opened policy capacity).run events).calls = before ++ Call.dispose :: after →
      ∃ later, requests 0 events = served before ++ Request.dispose :: later

/-- **Requests are served in order, whole, and once.** -/
theorem requests_served_exactly (policy : ErrorPolicy) (capacity : Nat) (events : List Event) :
    ServesExactly policy capacity events := by
  obtain ⟨late, h⟩ := (ledger_opened policy capacity).run events
  have hdelivery := (delivery_opened policy capacity).run events
  refine ⟨⟨late, h.order, h.running, h.stopped⟩, ⟨_, hdelivery.batches⟩,
    isLast_run_iff rfl events, ?_, h.settled_nodup, fun ticket lines => h.send_cases,
    exists_queue_settle policy capacity events, handed_run_plain _ _, ?_⟩
  · rintro before e after rfl hends
    exact handed_run_of_ends hends
  · intro before after hcalls
    refine ⟨served after ++ ((opened policy capacity).run events).queue ++ late, ?_⟩
    have horder : requests 0 events = _ := h.order
    rw [hcalls] at horder
    simpa [served, Call.request?] using horder

end Connection
end RelayChat
