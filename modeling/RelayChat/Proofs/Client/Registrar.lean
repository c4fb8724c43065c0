import RelayChat.Client.Registrar
import RelayChat.Proofs.Client.Requests
import RelayChat.Proofs.Handshake

/-!
# What a registrar does with a connection

A registrar shares the queue of a connection with whoever else sends.  `Registrar.Moves`
says once what each of its moves is; to the connection a move is a request to send, or
nothing.

A step that the registrar puts into the queue is a `Posting`.  What is kept while both move
(`Registrar.Kept`) is that the postings and the steps that the machine still has to say are
together the plan of the handshake, and that the postings are among the requests of which
the connection keeps account.  What the registrar is doing says how the postings have ended
(`Registrar.Stands`): while it goes on, all that it waited for have been sent.

As requests are served in order, what reaches the transport of the handshake is a first
part of the plan (`Registrar.Kept.posted_eq`), and the result is success exactly if it is
all of it, and all was sent (`Registrar.Kept.result?_eq_some`).
-/

namespace RelayChat

/-- A step of the handshake that was put into the queue, and the ticket that it got. -/
structure Posting where
  /-- The step. -/
  step : Handshake.Step
  /-- The ticket of the request to send its lines. -/
  ticket : Ticket

namespace Posting

variable {p : Posting} {posted : List Posting} {c d : Connection}

/-- The lines that were put into the queue, with their ticket. -/
def batch (p : Posting) : Ticket × List String :=
  (p.ticket, p.step.lines)

/-- That the lines have been sent. -/
def Sent (c : Connection) (p : Posting) : Prop :=
  c.outcome? p.ticket = some (.ok ())

/-- That the lines have been sent of all steps that are waited for. -/
def AwaitedSent (c : Connection) (posted : List Posting) : Prop :=
  ∀ p ∈ posted, p.step.awaited = true → p.Sent c

theorem awaitedSent_append_singleton :
    AwaitedSent c (posted ++ [p]) ↔
      AwaitedSent c posted ∧ (p.step.awaited = true → p.Sent c) := by
  rw [AwaitedSent, List.forall_mem_append, List.forall_mem_singleton]
  exact Iff.rfl

/-- The tickets of the steps that are not waited for. -/
def unawaited (posted : List Posting) : List Ticket :=
  (posted.filter fun p => !p.step.awaited).map (·.ticket)

theorem unawaited_append (a b : List Posting) :
    unawaited (a ++ b) = unawaited a ++ unawaited b := by
  rw [unawaited, List.filter_append, List.map_append, unawaited, unawaited]

theorem unawaited_of_awaited (h : p.step.awaited = true) : unawaited [p] = [] := by
  simp [unawaited, h]

theorem unawaited_of_not_awaited (h : p.step.awaited = false) : unawaited [p] = [p.ticket] := by
  simp [unawaited, h]

theorem exists_of_mem_unawaited {ticket : Ticket} (h : ticket ∈ unawaited posted) :
    ∃ p ∈ posted, p.ticket = ticket := by
  obtain ⟨p, hp, rfl⟩ := List.mem_map.mp h
  exact ⟨p, List.mem_of_mem_filter hp, rfl⟩

end Posting

/-- What a request to send asks to hand over, with its ticket. -/
def Request.toSend? : Request → Option (Ticket × List String)
  | .send ticket lines => some (ticket, lines)
  | .dispose => none

/-- What a call hands over for a request to send, with its ticket and the outcome. -/
def Call.sent? : Call → Option (Ticket × List String × Outcome)
  | .send ticket lines outcome => some (ticket, lines, outcome)
  | _ => none

/-! ### The moves of a registrar -/

namespace Registrar

open Posting (AwaitedSent Sent unawaited)

variable {r r' : Registrar} {c c' d : Connection}

/-- **The moves** of a registrar: what it does with the connection, and what comes of both. -/
inductive Moves (r : Registrar) (c : Connection) : Registrar → Connection → Prop
  /-- A step is put into the queue that is waited for. -/
  | postAwaited {step : Handshake.Step} {machine : Handshake.Machine} (h : r.state = .advancing)
      (hnext : r.machine.advance = (some step, machine)) (hawaited : step.awaited = true) :
      Moves r c { r with machine, state := .awaiting c.issued } (c.step (.send step.lines))
  /-- A step is put into the queue that is not waited for. -/
  | postDetached {step : Handshake.Step} {machine : Handshake.Machine} (h : r.state = .advancing)
      (hnext : r.machine.advance = (some step, machine)) (hdetached : step.awaited = false) :
      Moves r c { r with machine, detached := r.detached ++ [c.issued] }
        (c.step (.send step.lines))
  /-- There is no step left. -/
  | collect {machine : Handshake.Machine} (h : r.state = .advancing)
      (hnext : r.machine.advance = (none, machine)) : Moves r c { r with state := .collecting } c
  /-- The step that was waited for has been sent. -/
  | resume {ticket : Ticket} (h : r.state = .awaiting ticket)
      (hsent : c.outcome? ticket = some (.ok ())) : Moves r c { r with state := .advancing } c
  /-- The step that was waited for has failed. -/
  | failAwaited {ticket : Ticket} {e : TransportError} (h : r.state = .awaiting ticket)
      (hfailed : c.outcome? ticket = some (.error e)) :
      Moves r c { r with state := .finished (.error e) } c
  /-- A step that was not waited for has been sent. -/
  | pass {ticket : Ticket} {rest : List Ticket} (h : r.state = .collecting)
      (hdetached : r.detached = ticket :: rest) (hsent : c.outcome? ticket = some (.ok ())) :
      Moves r c { r with detached := rest } c
  /-- A step that was not waited for has failed. -/
  | failDetached {ticket : Ticket} {rest : List Ticket} {e : TransportError}
      (h : r.state = .collecting) (hdetached : r.detached = ticket :: rest)
      (hfailed : c.outcome? ticket = some (.error e)) :
      Moves r c { r with state := .finished (.error e) } c
  /-- Every step has been sent. -/
  | succeed (h : r.state = .collecting) (hdetached : r.detached = []) :
      Moves r c { r with state := .finished (.ok ()) } c

theorem submit_eq (c : Connection) (lines : List String) :
    c.submit lines = (c.issued, c.step (.send lines)) := by
  simp only [Connection.step, Connection.submit]
  split <;> rfl

/-- **Every move of a registrar is one of these.** -/
theorem moves_of_step (h : r.step c = some (r', c')) : Moves r c r' c' := by
  unfold step at h
  split at h
  · next hstate =>
    split at h
    · next step machine hnext =>
      simp only [submit_eq] at h
      split at h
      · next hawaited =>
        cases h
        exact .postAwaited hstate hnext hawaited
      · next hdetached =>
        cases h
        exact .postDetached hstate hnext (by simpa using hdetached)
    · next hnext =>
      cases h
      exact .collect hstate hnext
  · next hstate =>
    split at h
    · next hsent =>
      cases h
      exact .resume hstate hsent
    · next hfailed =>
      cases h
      exact .failAwaited hstate hfailed
    · cases h
  · next hstate =>
    split at h
    · next hdetached =>
      cases h
      exact .succeed hstate hdetached
    · next hdetached =>
      split at h
      · next hsent =>
        cases h
        exact .pass hstate hdetached hsent
      · next hfailed =>
        cases h
        exact .failDetached hstate hdetached hfailed
      · cases h
  · cases h

/-- A registrar that cannot move has its result, or one of its requests has not ended. -/
theorem stuck_of_step_eq_none (h : r.step c = none) :
    (∃ outcome, r.state = .finished outcome) ∨
      ∃ ticket, (r.state = .awaiting ticket ∨ r.state = .collecting ∧ ticket ∈ r.detached) ∧
        c.outcome? ticket = none := by
  unfold step at h
  split at h
  · split at h
    · simp only at h
      split at h <;> cases h
    · cases h
  · next ticket hstate =>
    split at h
    · cases h
    · cases h
    · next hnone => exact .inr ⟨ticket, .inl hstate, hnone⟩
  · next hstate =>
    split at h
    · cases h
    · next ticket rest hdetached =>
      split at h
      · cases h
      · cases h
      · next hnone => exact .inr ⟨ticket, .inr ⟨hstate, by simp [hdetached]⟩, hnone⟩
  · next outcome hstate => exact .inl ⟨outcome, hstate⟩

/-- What a move of the registrar puts into the queue, if it is a step. -/
def posting? (r : Registrar) (c : Connection) : Option Posting :=
  match r.state with
  | .advancing => r.machine.advance.1.map fun step => ⟨step, c.issued⟩
  | _ => none

theorem posting?_eq_some {step : Handshake.Step} {machine : Handshake.Machine}
    (h : r.state = .advancing) (hnext : r.machine.advance = (some step, machine)) :
    r.posting? c = some ⟨step, c.issued⟩ := by
  simp [posting?, h, hnext]

theorem posting?_eq_none (h : r.state ≠ .advancing) : r.posting? c = none := by
  unfold posting?
  split
  · next hstate => exact absurd hstate h
  · rfl

theorem posting?_of_steps_eq_nil (hsteps : r.machine.steps = []) : r.posting? c = none := by
  obtain ⟨step, rest, -, hcons⟩ | ⟨hadvance, -⟩ := r.machine.advance_cases
  · rw [hsteps] at hcons
    cases hcons
  · unfold posting?
    split <;> simp [hadvance]

/-- To the connection a move of the registrar is what it puts into the queue. -/
theorem Moves.connection_eq (hmoves : Moves r c r' c') :
    c' = c.run ((r.posting? c).toList.map fun p => .send p.step.lines) := by
  cases hmoves with
  | postAwaited hstate hnext =>
      rw [posting?_eq_some hstate hnext]
      rfl
  | postDetached hstate hnext =>
      rw [posting?_eq_some hstate hnext]
      rfl
  | collect hstate hnext =>
      rw [posting?_of_steps_eq_nil (Handshake.Machine.steps_of_advance_none hnext)]
      rfl
  | resume hstate | failAwaited hstate | pass hstate | failDetached hstate | succeed hstate =>
      rw [posting?_eq_none (by simp [hstate])]
      rfl

/-! ### What is kept while registering -/

/-- What the steps that were `posted` have come to, by what the registrar is doing. -/
def Stands (posted : List Posting) (c : Connection) (r : Registrar) : Prop :=
  match r.state with
  | .advancing => AwaitedSent c posted ∧ r.detached = unawaited posted
  | .awaiting ticket =>
    (∃ before p, posted = before ++ [p] ∧ p.ticket = ticket ∧ p.step.awaited = true ∧
      AwaitedSent c before) ∧ r.detached = unawaited posted
  | .collecting =>
    r.machine.steps = [] ∧ AwaitedSent c posted ∧
      ∃ passed, unawaited posted = passed ++ r.detached ∧
        ∀ ticket ∈ passed, c.outcome? ticket = some (.ok ())
  | .finished (.ok ()) => r.machine.steps = [] ∧ ∀ p ∈ posted, p.Sent c
  | .finished (.error e) =>
    ∃ p ∈ posted, c.outcome? p.ticket = some (.error e) ∧
      (p.step.awaited = true ∨ r.machine.steps = [])

/-- **What is kept** while a registrar and a connection move. -/
structure Kept (plan : List Handshake.Step) (posted : List Posting) (asked late : List Request)
    (c : Connection) (r : Registrar) : Prop where
  /-- The connection keeps account of all requests. -/
  ledger : Connection.Ledger asked late c
  /-- What was posted and what the machine still has to say is the plan. -/
  steps_eq : posted.map (·.step) ++ r.machine.steps = plan
  /-- What was posted is among the requests, in the order of the plan. -/
  among : (posted.map Posting.batch).Sublist (asked.filterMap Request.toSend?)
  /-- Nothing is posted after a step that is waited for unless that one was sent. -/
  gate : posted.Pairwise fun earlier _ => earlier.step.awaited = true → earlier.Sent c
  /-- The registrar knows what the steps have come to. -/
  stands : Stands posted c r

variable {plan : List Handshake.Step} {posted : List Posting} {asked late : List Request}

/-- How requests end is never undone. -/
def Outlives (c d : Connection) : Prop :=
  ∀ ticket outcome, c.outcome? ticket = some outcome → d.outcome? ticket = some outcome

theorem outlives_step (c : Connection) (e : Connection.Event) : Outlives c (c.step e) := by
  intro ticket outcome h
  exact Connection.outcome?_moves h (c.moves_step e)

theorem outlives_run (c : Connection) (events : List Connection.Event) :
    Outlives c (c.run events) := by
  induction events generalizing c with
  | nil =>
      intro ticket outcome h
      exact h
  | cons e events ih =>
      intro ticket outcome h
      exact ih (c.step e) ticket outcome (outlives_step c e ticket outcome h)

theorem awaitedSent_of_outlives (h : Outlives c d) (hsent : AwaitedSent c posted) :
    AwaitedSent d posted := by
  intro p hp hawaited
  exact h _ _ (hsent p hp hawaited)

/-- What the steps have come to they have come to for good. -/
theorem Stands.of_outlives (h : Outlives c d) (hstands : Stands posted c r) :
    Stands posted d r := by
  unfold Stands at hstands ⊢
  split
  · next hstate =>
    simp only [hstate] at hstands
    exact ⟨awaitedSent_of_outlives h hstands.1, hstands.2⟩
  · next hstate =>
    simp only [hstate] at hstands
    obtain ⟨⟨before, p, hposted, hticket, hawaited, hsent⟩, hdetached⟩ := hstands
    exact ⟨⟨before, p, hposted, hticket, hawaited, awaitedSent_of_outlives h hsent⟩, hdetached⟩
  · next hstate =>
    simp only [hstate] at hstands
    obtain ⟨hsteps, hsent, passed, hdetached, hpassed⟩ := hstands
    exact ⟨hsteps, awaitedSent_of_outlives h hsent, passed, hdetached,
      fun ticket hmem => h _ _ (hpassed ticket hmem)⟩
  · next hstate =>
    simp only [hstate] at hstands
    exact ⟨hstands.1, fun p hp => h _ _ (hstands.2 p hp)⟩
  · next hstate =>
    simp only [hstate] at hstands
    obtain ⟨p, hp, hfailed, hend⟩ := hstands
    exact ⟨p, hp, h _ _ hfailed, hend⟩

/-- A move of the connection keeps it all. -/
theorem Kept.connection (h : Kept plan posted asked late c r) (e : Connection.Event) :
    ∃ asked' late', Kept plan posted asked' late' (c.step e) r := by
  obtain ⟨late', hledger⟩ := h.ledger.moves (c.moves_step e)
  refine ⟨_, late', hledger, h.steps_eq, ?_, ?_, h.stands.of_outlives (outlives_step c e)⟩
  · rw [List.filterMap_append]
    exact h.among.trans (List.sublist_append_left _ _)
  · exact h.gate.imp fun hgate hawaited => outlives_step c e _ _ (hgate hawaited)

/-- Posting the next step keeps it all, if it keeps what the registrar knows. -/
theorem Kept.post {step : Handshake.Step} {machine : Handshake.Machine}
    (h : Kept plan posted asked late c r) (hstate : r.state = .advancing)
    (hnext : r.machine.advance = (some step, machine)) (hmachine : r'.machine = machine)
    (hstands : Stands (posted ++ [⟨step, c.issued⟩]) (c.step (.send step.lines)) r') :
    ∃ asked' late', Kept plan (posted ++ (r.posting? c).toList) asked' late'
      (c.step (.send step.lines)) r' := by
  obtain ⟨late', hledger⟩ := h.ledger.moves (c.moves_step (.send step.lines))
  have hsent : AwaitedSent c posted := by
    have hstood := h.stands
    simp only [Stands, hstate] at hstood
    exact hstood.1
  rw [posting?_eq_some hstate hnext, Option.toList_some]
  refine ⟨_, late', hledger, ?_, ?_, ?_, hstands⟩
  · rw [← h.steps_eq, Handshake.Machine.steps_of_advance_some hnext, hmachine, List.map_append,
      List.append_assoc]
    rfl
  · rw [List.map_append, List.filterMap_append]
    exact h.among.append (List.Sublist.refl _)
  · rw [List.pairwise_append]
    refine ⟨h.gate.imp fun hgate hawaited => outlives_step c _ _ _ (hgate hawaited),
      List.pairwise_singleton _ _, ?_⟩
    intro earlier hearlier later hlater hawaited
    exact outlives_step c _ _ _ (hsent earlier hearlier hawaited)

/-- A move that posts nothing keeps it all, if it keeps what the registrar knows. -/
theorem Kept.stay (h : Kept plan posted asked late c r) (hposting : r.posting? c = none)
    (hmachine : r'.machine = r.machine) (hstands : Stands posted c r') :
    ∃ asked' late', Kept plan (posted ++ (r.posting? c).toList) asked' late' c r' := by
  rw [hposting, Option.toList_none, List.append_nil]
  exact ⟨asked, late, h.ledger, by rw [hmachine, h.steps_eq], h.among, h.gate, hstands⟩

/-- **A move of the registrar keeps it all**, with what it posts. -/
theorem Kept.moves (h : Kept plan posted asked late c r) (hmoves : Moves r c r' c') :
    ∃ asked' late', Kept plan (posted ++ (r.posting? c).toList) asked' late' c' r' := by
  have hstood := h.stands
  cases hmoves with
  | postAwaited hstate hnext hawaited =>
      simp only [Stands, hstate] at hstood
      refine h.post hstate hnext rfl ⟨⟨posted, _, rfl, rfl, hawaited, ?_⟩, ?_⟩
      · exact awaitedSent_of_outlives (outlives_step c _) hstood.1
      · rw [Posting.unawaited_append, Posting.unawaited_of_awaited hawaited, List.append_nil]
        exact hstood.2
  | postDetached hstate hnext hdetached =>
      simp only [Stands, hstate] at hstood
      refine h.post hstate hnext rfl ?_
      simp only [Stands, hstate]
      refine ⟨Posting.awaitedSent_append_singleton.mpr ⟨?_, ?_⟩, ?_⟩
      · exact awaitedSent_of_outlives (outlives_step c _) hstood.1
      · intro hawaited
        rw [hdetached] at hawaited
        cases hawaited
      · rw [Posting.unawaited_append, Posting.unawaited_of_not_awaited hdetached, hstood.2]
  | collect hstate hnext =>
      simp only [Stands, hstate] at hstood
      have hsteps := Handshake.Machine.steps_of_advance_none hnext
      refine h.stay (posting?_of_steps_eq_nil hsteps) rfl ⟨hsteps, hstood.1, [], ?_, by simp⟩
      exact hstood.2.symm
  | resume hstate hsent =>
      simp only [Stands, hstate] at hstood
      obtain ⟨⟨before, p, rfl, rfl, -, hbefore⟩, hdetached⟩ := hstood
      refine h.stay (posting?_eq_none (by simp [hstate])) rfl ⟨?_, hdetached⟩
      exact Posting.awaitedSent_append_singleton.mpr ⟨hbefore, fun _ => hsent⟩
  | failAwaited hstate hfailed =>
      simp only [Stands, hstate] at hstood
      obtain ⟨⟨before, p, rfl, rfl, hawaited, -⟩, -⟩ := hstood
      refine h.stay (posting?_eq_none (by simp [hstate])) rfl ?_
      exact ⟨p, by simp, hfailed, .inl hawaited⟩
  | @pass ticket rest hstate hhead hsent =>
      simp only [Stands, hstate] at hstood
      obtain ⟨hsteps, hawaited, passed, hdetached, hpassed⟩ := hstood
      refine h.stay (posting?_eq_none (by simp [hstate])) rfl ?_
      simp only [Stands, hstate]
      refine ⟨hsteps, hawaited, passed ++ [ticket], by simp [hdetached, hhead], ?_⟩
      exact List.forall_mem_append.mpr ⟨hpassed, List.forall_mem_singleton.mpr hsent⟩
  | @failDetached ticket rest e hstate hhead hfailed =>
      simp only [Stands, hstate] at hstood
      obtain ⟨hsteps, -, passed, hdetached, -⟩ := hstood
      have hmem : ticket ∈ unawaited posted := by simp [hdetached, hhead]
      obtain ⟨p, hp, rfl⟩ := Posting.exists_of_mem_unawaited hmem
      refine h.stay (posting?_eq_none (by simp [hstate])) rfl ?_
      exact ⟨p, hp, hfailed, .inr hsteps⟩
  | succeed hstate hempty =>
      simp only [Stands, hstate] at hstood
      obtain ⟨hsteps, hawaited, passed, hdetached, hpassed⟩ := hstood
      refine h.stay (posting?_eq_none (by simp [hstate])) rfl ⟨hsteps, ?_⟩
      intro p hp
      by_cases hwaited : p.step.awaited = true
      · exact hawaited p hp hwaited
      · -- It was looked at, as none that was not waited for is left.
        apply hpassed
        rw [hempty, List.append_nil] at hdetached
        rw [← hdetached, unawaited, List.mem_map]
        exact ⟨p, by simp [hp, hwaited], rfl⟩

/-! ### What reaches the transport -/

/-- What calls hand over for the requests of some postings, with the tickets and outcomes. -/
def sends (posted : List Posting) (calls : List Call) : List (Ticket × List String × Outcome) :=
  (calls.filterMap Call.sent?).filter fun s => s.1 ∈ posted.map (·.ticket)

/-- The batches of lines that calls hand over for the requests of some postings, with the
outcomes. -/
def transmissions (posted : List Posting) (calls : List Call) : List (List String × Outcome) :=
  (sends posted calls).map Prod.snd

/-- Every one of some batches has been handed over for the postings, in order and with success,
and nothing else. -/
def AllSent (batches : List (List String)) (posted : List Posting) (c : Connection) : Prop :=
  transmissions posted c.calls = batches.map fun lines => (lines, .ok ())

/-- Of pairs with distinct keys, those with a key in a sublist are that sublist. -/
theorem filter_key_mem_of_sublist {α β : Type} [DecidableEq α] {a b : List (α × β)}
    (h : a.Sublist b) (hnodup : (b.map Prod.fst).Nodup) :
    b.filter (fun x => x.1 ∈ a.map Prod.fst) = a := by
  induction h with
  | slnil => rfl
  | @cons a b x h ih =>
      obtain ⟨hx, hnodup⟩ := List.nodup_cons.mp hnodup
      have hnot : x.1 ∉ a.map Prod.fst := fun hmem => hx ((h.map Prod.fst).subset hmem)
      rw [List.filter_cons_of_neg (by simpa using hnot), ih hnodup]
  | @cons_cons a b x h ih =>
      obtain ⟨hx, hnodup⟩ := List.nodup_cons.mp hnodup
      rw [List.filter_cons_of_pos (by simp)]
      refine congrArg _ (Eq.trans (List.filter_congr fun y hy => ?_) (ih hnodup))
      have hne : y.1 ≠ x.1 := fun heq => hx (heq ▸ List.mem_map_of_mem hy)
      simp [hne]

theorem filterMap_served (calls : List Call) :
    (Connection.served calls).filterMap Request.toSend? =
      (calls.filterMap Call.sent?).map fun s => (s.1, s.2.1) := by
  rw [Connection.served, List.filterMap_filterMap, List.map_filterMap]
  refine congrArg (List.filterMap · calls) (funext fun call => ?_)
  cases call <;> rfl

theorem map_filterMap_toSend? (rs : List Request) :
    (rs.filterMap Request.toSend?).map Prod.fst = Connection.tickets rs := by
  rw [Connection.tickets, List.map_filterMap]
  refine congrArg (List.filterMap · rs) (funext fun request => ?_)
  cases request <;> rfl

/-- No two requests to send that have come in have the same ticket. -/
theorem nodup_toSend (h : Connection.Ledger asked late c) :
    ((asked.filterMap Request.toSend?).map Prod.fst).Nodup := by
  rw [map_filterMap_toSend?, h.numbered]
  exact List.nodup_range

theorem map_batch (posted : List Posting) :
    (posted.map Posting.batch).map Prod.fst = posted.map (·.ticket) := by
  rw [List.map_map]
  rfl

/-- **The batches of the handshake reach the transport in the order in which they were posted**:
what was posted is what was handed over of it, and then what waits or came too late. -/
theorem Kept.posted_eq (h : Kept plan posted asked late c r) :
    posted.map Posting.batch =
      (sends posted c.calls).map (fun s => (s.1, s.2.1)) ++
        ((c.queue ++ late).filterMap Request.toSend?).filter
          fun b => b.1 ∈ posted.map (·.ticket) := by
  have hfilter := filter_key_mem_of_sublist h.among (nodup_toSend h.ledger)
  rw [map_batch] at hfilter
  rw [← hfilter, h.ledger.order, List.append_assoc, List.filterMap_append, List.filter_append,
    filterMap_served, List.filter_map]
  rfl

/-- How a batch ended that was handed over. -/
theorem Kept.outcome?_of_mem_sends (h : Kept plan posted asked late c r)
    {s : Ticket × List String × Outcome} (hs : s ∈ sends posted c.calls) :
    c.outcome? s.1 = some s.2.2 := by
  obtain ⟨call, hcall, hsent⟩ := List.mem_filterMap.mp (List.mem_of_mem_filter hs)
  cases call with
  | send ticket lines outcome =>
      cases hsent
      exact h.ledger.outcome?_eq_some_iff.mpr (.inl ⟨lines, hcall⟩)
  | _ => cases hsent

/-- What has not been handed over has not been sent. -/
theorem Kept.outcome?_ne_of_mem (h : Kept plan posted asked late c r) {b : Ticket × List String}
    (hb : b ∈ (c.queue ++ late).filterMap Request.toSend?) : c.outcome? b.1 ≠ some (.ok ()) := by
  intro hsent
  have hticket : b.1 ∈ Connection.tickets c.queue ++ Connection.tickets late := by
    rw [← Connection.tickets_append, ← map_filterMap_toSend?]
    exact List.mem_map_of_mem hb
  have hnodup := h.ledger.tickets_nodup
  rw [List.append_assoc] at hnodup
  rcases h.ledger.outcome?_eq_some_iff.mp hsent with ⟨lines, hcall⟩ | ⟨-, hdisposed⟩
  · exact (List.nodup_append.mp hnodup).2.2 _ (Connection.mem_tickets_served hcall) _ hticket rfl
  · cases hdisposed

/-- **All has been sent** exactly if nothing is left to say and all that was posted was sent. -/
theorem Kept.allSent_iff (h : Kept plan posted asked late c r) :
    AllSent (plan.map (·.lines)) posted c ↔
      r.machine.steps = [] ∧ ∀ p ∈ posted, p.Sent c := by
  have hposted := h.posted_eq
  have hunsent : ∀ b ∈ ((c.queue ++ late).filterMap Request.toSend?).filter
      fun b => b.1 ∈ posted.map (·.ticket), c.outcome? b.1 ≠ some (.ok ()) := by
    intro b hb
    exact h.outcome?_ne_of_mem (List.mem_of_mem_filter hb)
  generalize ((c.queue ++ late).filterMap Request.toSend?).filter _ = rest at hposted hunsent
  constructor
  · intro hall
    have hsends := congrArg List.length hall
    have hplan := congrArg List.length h.steps_eq
    have hlengths := congrArg List.length hposted
    simp only [transmissions, List.length_append, List.length_map] at hsends hplan hlengths
    have hsteps : r.machine.steps = [] := List.eq_nil_of_length_eq_zero (by omega)
    obtain rfl : rest = [] := List.eq_nil_of_length_eq_zero (by omega)
    refine ⟨hsteps, ?_⟩
    intro p hp
    have hmem : p.batch ∈ (sends posted c.calls).map fun s => (s.1, s.2.1) := by
      rw [← List.append_nil (List.map _ _), ← hposted]
      exact List.mem_map_of_mem hp
    obtain ⟨s, hs, heq⟩ := List.mem_map.mp hmem
    have hok : s.2 ∈ (plan.map (·.lines)).map fun lines => (lines, .ok ()) :=
      hall ▸ List.mem_map_of_mem hs
    obtain ⟨lines, -, hlines⟩ := List.mem_map.mp hok
    have houtcome := h.outcome?_of_mem_sends hs
    rw [← hlines] at houtcome
    rw [Posting.Sent, ← houtcome]
    exact congrArg _ (congrArg Prod.fst heq).symm
  · rintro ⟨hsteps, hsent⟩
    have hmem : ∀ b ∈ posted.map Posting.batch, c.outcome? b.1 = some (.ok ()) := by
      intro b hb
      obtain ⟨p, hp, rfl⟩ := List.mem_map.mp hb
      exact hsent p hp
    have hplan : posted.map (·.step) = plan := by
      rw [← h.steps_eq, hsteps, List.append_nil]
    obtain rfl : rest = [] := by
      refine List.eq_nil_iff_forall_not_mem.mpr fun b hb => hunsent b hb (hmem b ?_)
      rw [hposted]
      exact List.mem_append_right _ hb
    rw [List.append_nil] at hposted
    have hok : ∀ s ∈ sends posted c.calls, s.2 = (s.2.1, .ok ()) := by
      intro s hs
      have hs' := hmem _ (hposted ▸ List.mem_map_of_mem hs)
      rw [h.outcome?_of_mem_sends hs] at hs'
      exact Prod.ext rfl (Option.some.inj hs')
    calc transmissions posted c.calls
        = ((sends posted c.calls).map fun s => (s.1, s.2.1)).map fun b => (b.2, .ok ()) := by
          rw [List.map_map]
          exact List.map_congr_left hok
      _ = (posted.map Posting.batch).map fun b => (b.2, .ok ()) := by rw [hposted]
      _ = (plan.map (·.lines)).map fun lines => (lines, .ok ()) := by
          rw [← hplan, List.map_map, List.map_map, List.map_map]
          rfl

/-- What is handed over of the handshake are its first batches, in order. -/
theorem Kept.transmissions_prefix (h : Kept plan posted asked late c r) :
    (transmissions posted c.calls).map Prod.fst <+: plan.map (·.lines) := by
  have hsends : (transmissions posted c.calls).map Prod.fst <+: posted.map (·.step.lines) := by
    have hposted := congrArg (List.map Prod.snd) h.posted_eq
    rw [List.map_append, List.map_map, List.map_map] at hposted
    rw [transmissions, List.map_map]
    exact ⟨_, hposted.symm⟩
  refine hsends.trans ?_
  rw [← h.steps_eq, List.map_append, List.map_map]
  exact List.prefix_append _ _

/-- If every step that another one follows is waited for, nothing is posted unless all before it
was sent. -/
theorem Kept.posted_gated (h : Kept plan posted asked late c r)
    (hawaited : plan.Pairwise fun earlier _ => earlier.awaited = true) :
    posted.Pairwise fun earlier _ => earlier.Sent c := by
  rw [← h.steps_eq] at hawaited
  have hwaited : posted.Pairwise fun earlier _ => earlier.step.awaited = true :=
    List.pairwise_map.mp (List.pairwise_append.mp hawaited).1
  refine (h.gate.and hwaited).imp ?_
  rintro earlier later ⟨hgate, hwaited⟩
  exact hgate hwaited

/-- Then nothing is handed over either unless all before it was sent. -/
theorem Kept.transmissions_gated (h : Kept plan posted asked late c r)
    (hawaited : plan.Pairwise fun earlier _ => earlier.awaited = true) :
    (transmissions posted c.calls).Pairwise fun earlier _ => earlier.2 = .ok () := by
  have hsent : (posted.map Posting.batch).Pairwise fun earlier _ =>
      c.outcome? earlier.1 = some (.ok ()) :=
    List.pairwise_map.mpr (h.posted_gated hawaited)
  rw [h.posted_eq] at hsent
  have hsends := List.pairwise_map.mp (List.pairwise_append.mp hsent).1
  refine List.pairwise_map.mpr (hsends.imp_of_mem ?_)
  intro earlier later hearlier _ hsent
  exact Option.some.inj ((h.outcome?_of_mem_sends hearlier).symm.trans hsent)

/-! ### The result -/

/-- **The result is success exactly if all has been sent.** -/
theorem Kept.result?_eq_some (h : Kept plan posted asked late c r) {outcome : Outcome}
    (hresult : r.result? = some outcome) :
    outcome = .ok () ↔ AllSent (plan.map (·.lines)) posted c := by
  have hstate : r.state = .finished outcome := by
    unfold result? at hresult
    split at hresult
    · next hstate => rw [hstate, Option.some.inj hresult]
    · cases hresult
  have hstood := h.stands
  rw [h.allSent_iff]
  cases outcome with
  | ok =>
      simp only [Stands, hstate] at hstood
      exact iff_of_true rfl hstood
  | error e =>
      simp only [Stands, hstate] at hstood
      obtain ⟨p, hp, hfailed, -⟩ := hstood
      refine iff_of_false (by simp) ?_
      rintro ⟨-, hsent⟩
      have hp' := hsent p hp
      rw [Posting.Sent, hfailed] at hp'
      cases hp'

/-- A registrar that cannot move has its result, or one of its postings has not ended. -/
theorem Kept.stuck (h : Kept plan posted asked late c r) (hstep : r.step c = none) :
    (∃ outcome, r.result? = some outcome) ∨ ∃ p ∈ posted, c.outcome? p.ticket = none := by
  obtain ⟨outcome, hstate⟩ | ⟨ticket, hstate, hnone⟩ := stuck_of_step_eq_none hstep
  · exact .inl ⟨outcome, by rw [result?, hstate]⟩
  · have hstood := h.stands
    refine .inr ?_
    rcases hstate with hstate | ⟨hstate, hdetached⟩
    · simp only [Stands, hstate] at hstood
      obtain ⟨⟨before, p, rfl, rfl, -⟩, -⟩ := hstood
      exact ⟨p, by simp, hnone⟩
    · simp only [Stands, hstate] at hstood
      obtain ⟨-, -, passed, heq, -⟩ := hstood
      have hmem : ticket ∈ unawaited posted := by
        rw [heq]
        exact List.mem_append_right _ hdetached
      obtain ⟨p, hp, rfl⟩ := Posting.exists_of_mem_unawaited hmem
      exact ⟨p, hp, hnone⟩

/-- Where all has been sent, a registrar that cannot move has succeeded. -/
theorem Kept.result?_of_allSent (h : Kept plan posted asked late c r)
    (hall : AllSent (plan.map (·.lines)) posted c) (hstep : r.step c = none) :
    r.result? = some (.ok ()) := by
  obtain ⟨outcome, hresult⟩ | ⟨p, hp, hnone⟩ := h.stuck hstep
  · rw [hresult, (h.result?_eq_some hresult).mpr hall]
  · have hsent := (h.allSent_iff.mp hall).2 p hp
    rw [Posting.Sent, hnone] at hsent
    cases hsent

/-- A registrar with its result moves no more. -/
theorem step_eq_none_of_result? {outcome : Outcome} (h : r.result? = some outcome) :
    r.step c = none := by
  unfold result? at h
  split at h
  · next hstate => rw [step, hstate]
  · cases h

/-- Where no step is waited for, a registrar with steps left goes on to the next. -/
theorem Kept.advancing (h : Kept plan posted asked late c r)
    (hplan : ∀ step ∈ plan, step.awaited = false) (hsteps : r.machine.steps ≠ []) :
    r.state = .advancing := by
  have hposted : ∀ p ∈ posted, p.step.awaited ≠ true := by
    intro p hp
    have hmem : p.step ∈ plan := by
      rw [← h.steps_eq]
      exact List.mem_append_left _ (List.mem_map_of_mem hp)
    simp [hplan p.step hmem]
  have hstood := h.stands
  unfold Stands at hstood
  split at hstood
  · assumption
  · obtain ⟨⟨before, p, rfl, -, hawaited, -⟩, -⟩ := hstood
    exact absurd hawaited (hposted p (by simp))
  · exact absurd hstood.1 hsteps
  · exact absurd hstood.1 hsteps
  · obtain ⟨p, hp, -, hawaited | hnone⟩ := hstood
    · exact absurd hawaited (hposted p hp)
    · exact absurd hnone hsteps

theorem posting?_of_advancing (hstate : r.state = .advancing) (hsteps : r.machine.steps ≠ []) :
    (r.posting? c).toList.length = 1 := by
  obtain ⟨step, rest, hadvance, -⟩ | ⟨-, hnone⟩ := r.machine.advance_cases
  · rw [posting?_eq_some hstate hadvance]
    rfl
  · exact absurd hnone hsteps

end Registrar

end RelayChat
