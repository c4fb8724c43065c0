import RelayChat.Client.Basic
import RelayChat.Proofs.Client.Registrar

/-!
# How a session is opened

The moves of a registrar fall anywhere between those of its connection.  A history of a
client is a list of events of both, so that every order in which they can come, and every
pattern of outcomes, is one; what other callers send is among the events of the connection.

Every event keeps what is kept while registering, hence so does a history, and what is true
of the opening of a session in any history (`Client.OpensInOrder`) is read off from that.
The registrar comes to its result, if it gets its turns, unless one of its own requests is
still in the queue.
-/

namespace RelayChat

/-! ### Histories of a client -/

namespace Client

open Registrar (AllSent Kept transmissions)

variable {c : Client} {plan : List Handshake.Step} {posted : List Posting}
  {asked late : List Request}

/-- What can happen to a client while it opens its session. -/
inductive Event where
  /-- Something happens to the connection, by whoever else uses it, the transport, or itself. -/
  | connection (e : Connection.Event)
  /-- It is the registrar's turn. -/
  | registrar

/-- **One move** of a client; the registrar's turn passes if it cannot move. -/
def step (c : Client) : Event → Client
  | .connection e => { c with connection := c.connection.step e }
  | .registrar =>
    match c.registrar.step c.connection with
    | some (registrar, connection) => { c with registrar, connection }
    | none => c

/-- A history of a client. -/
def run (c : Client) (events : List Event) : Client :=
  events.foldl step c

/-- The step of the handshake that an event puts into the queue, if it does. -/
def posting? (c : Client) : Event → Option Posting
  | .connection _ => none
  | .registrar => c.registrar.posting? c.connection

/-- The steps of the handshake that are put into the queue along a history. -/
def postings (c : Client) : List Event → List Posting
  | [] => []
  | e :: rest => (c.posting? e).toList ++ (c.step e).postings rest

/-- How often it is the registrar's turn. -/
def turns : List Event → Nat
  | [] => 0
  | .connection _ :: rest => turns rest
  | .registrar :: rest => turns rest + 1

theorem run_cons (c : Client) (e : Event) (events : List Event) :
    c.run (e :: events) = (c.step e).run events := rfl

theorem run_append (c : Client) (a b : List Event) : c.run (a ++ b) = (c.run a).run b :=
  List.foldl_append

/-- A registrar that cannot move puts nothing into the queue. -/
theorem posting?_eq_none (h : c.registrar.step c.connection = none) :
    c.posting? .registrar = none := by
  obtain ⟨outcome, hstate⟩ | ⟨ticket, hstate | ⟨hstate, -⟩, -⟩ :=
    Registrar.stuck_of_step_eq_none h <;>
  simp only [posting?, Registrar.posting?, hstate]

/-- What an event comes to for the connection. -/
def onConnection (c : Client) : Event → List Connection.Event
  | .connection e => [e]
  | .registrar => (c.posting? .registrar).toList.map fun p => .send p.step.lines

/-- What a history comes to for the connection. -/
def connectionEvents (c : Client) : List Event → List Connection.Event
  | [] => []
  | e :: rest => c.onConnection e ++ (c.step e).connectionEvents rest

theorem connection_step (c : Client) (e : Event) :
    (c.step e).connection = c.connection.run (c.onConnection e) := by
  cases e with
  | connection e => rfl
  | registrar =>
      cases hstep : c.registrar.step c.connection with
      | none =>
          rw [onConnection, posting?_eq_none hstep, step, hstep]
          rfl
      | some next =>
          rw [onConnection, step, hstep]
          exact (Registrar.moves_of_step hstep).connection_eq

/-- **A connection over which a session is opened is a connection like any other**: the registrar
is one of those who send. -/
theorem connection_run (c : Client) (events : List Event) :
    (c.run events).connection = c.connection.run (c.connectionEvents events) := by
  induction events generalizing c with
  | nil => rfl
  | cons e events ih =>
      rw [connectionEvents, Connection.run_append, ← connection_step]
      exact ih (c.step e)

/-- **Every event keeps what is kept while registering.** -/
theorem kept_step (h : Kept plan posted asked late c.connection c.registrar) (e : Event) :
    ∃ asked' late', Kept plan (posted ++ (c.posting? e).toList) asked' late'
      (c.step e).connection (c.step e).registrar := by
  cases e with
  | connection e =>
      simp only [posting?, Option.toList_none, List.append_nil]
      exact h.connection e
  | registrar =>
      cases hstep : c.registrar.step c.connection with
      | none =>
          rw [posting?_eq_none hstep, step, hstep]
          simp only [Option.toList_none, List.append_nil]
          exact ⟨asked, late, h⟩
      | some next =>
          rw [posting?, step, hstep]
          exact h.moves (Registrar.moves_of_step hstep)

theorem kept_run (h : Kept plan posted asked late c.connection c.registrar)
    (events : List Event) :
    ∃ asked' late', Kept plan (posted ++ c.postings events) asked' late'
      (c.run events).connection (c.run events).registrar := by
  induction events generalizing c posted asked late with
  | nil => exact ⟨asked, late, by rwa [postings, List.append_nil]⟩
  | cons e events ih =>
      obtain ⟨asked', late', hstep⟩ := kept_step h e
      rw [postings, ← List.append_assoc]
      exact ih hstep

theorem kept_start (config : ClientConfig) :
    Kept (Handshake.plan config.registration) [] [] [] (start config).connection
      (start config).registrar where
  ledger := Connection.ledger_opened _ _
  steps_eq := rfl
  among := List.Sublist.slnil
  gate := List.Pairwise.nil
  stands := ⟨fun _ hp => absurd hp List.not_mem_nil, rfl⟩

/-! ### Turns of the registrar -/

/-- **Where no step is waited for, every turn of the registrar posts one**, whatever becomes of
those posted before, until there are none left. -/
theorem turns_le_postings (h : Kept plan posted asked late c.connection c.registrar)
    (hplan : ∀ step ∈ plan, step.awaited = false) (events : List Event) :
    min (turns events) c.registrar.machine.steps.length ≤ (c.postings events).length := by
  induction events generalizing c posted asked late with
  | nil => simp [turns]
  | cons e events ih =>
      obtain ⟨asked', late', hstep⟩ := kept_step h e
      have hrest := ih hstep
      rw [postings, List.length_append]
      cases e with
      | connection e =>
          rw [posting?, Option.toList_none, List.length_nil, Nat.zero_add]
          exact hrest
      | registrar =>
          by_cases hsteps : c.registrar.machine.steps = []
          · simp [hsteps]
          · have hone : (c.posting? .registrar).toList.length = 1 :=
              Registrar.posting?_of_advancing (h.advancing hplan hsteps) hsteps
            have hlength := congrArg List.length (h.steps_eq.trans hstep.steps_eq.symm)
            simp only [List.length_append, List.length_map] at hlength
            rw [turns]
            omega

/-- Once all has been sent it stays so, and nothing more is posted. -/
theorem allSent_step (h : Kept plan posted asked late c.connection c.registrar)
    (hall : AllSent (plan.map (·.lines)) posted c.connection) (e : Event) :
    (∃ asked' late', Kept plan posted asked' late' (c.step e).connection (c.step e).registrar) ∧
      AllSent (plan.map (·.lines)) posted (c.step e).connection := by
  obtain ⟨hsteps, hsent⟩ := h.allSent_iff.mp hall
  have hnone : c.posting? e = none := by
    cases e with
    | connection e => rfl
    | registrar => exact Registrar.posting?_of_steps_eq_nil hsteps
  obtain ⟨asked', late', hstep⟩ := kept_step h e
  rw [hnone, Option.toList_none, List.append_nil] at hstep
  have heq := List.append_cancel_left (h.steps_eq.trans hstep.steps_eq.symm)
  refine ⟨⟨asked', late', hstep⟩, hstep.allSent_iff.mpr ⟨by rw [← heq, hsteps], ?_⟩⟩
  intro p hp
  rw [connection_step]
  exact Registrar.outlives_run _ _ _ _ (hsent p hp)

/-- **A registrar that gets its turns comes to its result**, once all has been sent. -/
theorem result?_of_turns (h : Kept plan posted asked late c.connection c.registrar)
    (hall : AllSent (plan.map (·.lines)) posted c.connection) (events : List Event)
    (hturns : c.registrar.result? = some (.ok ()) ∨ c.registrar.weight ≤ turns events) :
    (c.run events).registrar.result? = some (.ok ()) := by
  induction events generalizing c asked late with
  | nil =>
      rcases hturns with hresult | hweight
      · exact hresult
      · cases hstep : c.registrar.step c.connection with
        | none => exact h.result?_of_allSent hall hstep
        | some next =>
            have hlt := Registrar.weight_step hstep
            rw [turns] at hweight
            omega
  | cons e events ih =>
      obtain ⟨⟨asked', late', hkept⟩, hall'⟩ := allSent_step h hall e
      refine ih hkept hall' ?_
      cases e with
      | connection e => exact hturns
      | registrar =>
          cases hstep : c.registrar.step c.connection with
          | none =>
              rw [step, hstep]
              exact .inl (h.result?_of_allSent hall hstep)
          | some next =>
              rw [step, hstep]
              rcases hturns with hresult | hweight
              · rw [Registrar.step_eq_none_of_result? hresult] at hstep
                cases hstep
              · have hlt := Registrar.weight_step hstep
                rw [turns] at hweight
                exact .inr (by simp only; omega)

/-! ### Coming to rest -/

theorem run_map_connection (c : Client) (events : List Connection.Event) :
    c.run (events.map .connection) = { c with connection := c.connection.run events } := by
  induction events generalizing c with
  | nil => rfl
  | cons e events ih => exact ih (c.step (.connection e))

/-- Coming to rest is a history, after which neither the connection nor the registrar can move. -/
theorem exists_run_settle (transport : Connection.Transport) (reading : Bool) (c : Client) :
    ∃ events, c.settle transport reading = c.run events ∧
      (c.settle transport reading).connection.next? transport reading = none ∧
        (c.settle transport reading).registrar.step
          (c.settle transport reading).connection = none := by
  fun_induction settle transport reading c with
  | case1 c connection registrar connection' hstep ih =>
      obtain ⟨moves, -, hmoves, -⟩ := Connection.exists_run_settle transport reading c.connection
      obtain ⟨events, hrun, hnext, hstuck⟩ := ih
      refine ⟨moves.map .connection ++ .registrar :: events, ?_, hnext, hstuck⟩
      have hturn : ({ c with connection } : Client).step .registrar =
          { c with connection := connection', registrar } := by
        simp only [step, hstep]
      rw [run_append, run_map_connection, ← hmoves, hrun, run_cons, hturn]
  | case2 c connection hstep =>
      obtain ⟨moves, -, hmoves, hnext⟩ :=
        Connection.exists_run_settle transport reading c.connection
      refine ⟨moves.map .connection, ?_, hnext, hstep⟩
      rw [run_map_connection, ← hmoves]

/-- With nothing in the queue a registrar that cannot move has its result. -/
theorem result?_of_queue_eq_nil (h : Kept plan posted asked late c.connection c.registrar)
    (hqueue : c.connection.queue = []) (hstep : c.registrar.step c.connection = none) :
    ∃ outcome, c.registrar.result? = some outcome := by
  obtain hresult | ⟨p, hp, hnone⟩ := h.stuck hstep
  · exact hresult
  · have hmem : p.batch ∈ asked.filterMap Request.toSend? :=
      h.among.subset (List.mem_map_of_mem hp)
    obtain ⟨request, hrequest, hbatch⟩ := List.mem_filterMap.mp hmem
    cases request with
    | dispose => cases hbatch
    | send ticket lines =>
        cases hbatch
        rcases h.ledger.send_cases hrequest with ⟨outcome, -, hsome⟩ | ⟨hwaits, -⟩ | ⟨-, -, hsome⟩
        · rw [hnone] at hsome
          cases hsome
        · rw [hqueue] at hwaits
          cases hwaits
        · rw [hnone] at hsome
          cases hsome

/-- **Registering comes to its result** if everything goes on and what is received is read. -/
theorem exists_result?_settle (config : ClientConfig) (events : List Event)
    (transport : Connection.Transport) :
    ∃ more outcome,
      ((start config).run events).settle transport true = (start config).run (events ++ more) ∧
        ((start config).run (events ++ more)).registrar.result? = some outcome := by
  obtain ⟨more, hrun, hnext, hstuck⟩ :=
    exists_run_settle transport true ((start config).run events)
  rw [hrun, ← run_append] at hnext hstuck
  obtain ⟨asked, late, h⟩ := kept_run (kept_start config) (events ++ more)
  have hbusy : ∀ last,
      ((start config).run (events ++ more)).connection.phase ≠ .delivering [] [] last := by
    rw [connection_run]
    exact ((Connection.delivery_opened _ _).run _).busy
  obtain ⟨outcome, hresult⟩ :=
    result?_of_queue_eq_nil h (h.ledger.queue_of_next?_eq_none hbusy hnext) hstuck
  exact ⟨more, outcome, by rw [hrun, run_append], hresult⟩

/-! ### The whole of it -/

/-- How a client opens its session in a history. -/
structure OpensInOrder (config : ClientConfig) (events : List Event) : Prop where
  /-- What the transport is handed of the handshake are its batches, each whole and once: the
  requests for capabilities, the password, the identity, as far as it has come. -/
  in_order :
    let c := (start config).run events
    (transmissions ((start config).postings events) c.connection.calls).map Prod.fst <+:
      Handshake.batches config.registration
  /-- With a password, each of them is handed over only after those before it were sent. -/
  password_gates : config.registration.password.isSome = true →
    let c := (start config).run events
    (transmissions ((start config).postings events) c.connection.calls).Pairwise
      fun earlier _ => earlier.2 = .ok ()
  /-- No step is so much as put into the queue after one that is waited for, as with a password
  every earlier one is, unless that one was sent. -/
  awaited_gates :
    let c := (start config).run events
    ((start config).postings events).Pairwise fun earlier _ =>
      earlier.step.awaited = true ∨ config.registration.password.isSome = true →
        earlier.Sent c.connection
  /-- Without a password each turn of the registrar puts a step into the queue, whatever comes of
  those before, until all are. -/
  unhindered : config.registration.password = none →
    (Handshake.batches config.registration).length ≤ turns events →
      ((start config).postings events).map (·.step.lines) = Handshake.batches config.registration
  /-- If registering has its result, that is success exactly if every batch was sent. -/
  verdict : ∀ outcome,
    let c := (start config).run events
    c.registrar.result? = some outcome →
      (outcome = .ok () ↔
        AllSent (Handshake.batches config.registration) ((start config).postings events)
          c.connection)
  /-- If every batch was sent, registering comes to its result within so many turns. -/
  heard :
    let c := (start config).run events
    AllSent (Handshake.batches config.registration) ((start config).postings events)
        c.connection →
      ∀ more, c.registrar.weight ≤ turns more →
        (c.run more).registrar.result? = some (.ok ())
  /-- Whatever has happened, registering comes to its result if everything goes on and what is
  received is read. -/
  comes_to_result : ∀ transport, ∃ more outcome,
    ((start config).run events).settle transport true = (start config).run (events ++ more) ∧
      ((start config).run (events ++ more)).registrar.result? = some outcome

/-- **A session is opened in order**, whoever else sends, and whatever fails or ends meanwhile. -/
theorem session_opened_in_order (config : ClientConfig) (events : List Event) :
    OpensInOrder config events := by
  obtain ⟨asked, late, h⟩ := kept_run (kept_start config) events
  rw [List.nil_append] at h
  have hlines := Handshake.map_lines_plan config.registration
  refine ⟨hlines ▸ h.transmissions_prefix, ?_, ?_, ?_, ?_, ?_, exists_result?_settle config events⟩
  · intro hpassword
    exact h.transmissions_gated (Handshake.awaited_of_password hpassword)
  · by_cases hpassword : config.registration.password.isSome = true
    · refine (h.posted_gated (Handshake.awaited_of_password hpassword)).imp ?_
      intro earlier _ hsent _
      exact hsent
    · refine h.gate.imp ?_
      rintro earlier _ hgate (hawaited | hsome)
      · exact hgate hawaited
      · exact absurd hsome hpassword
  · intro hpassword hturns
    have hposted := turns_le_postings (kept_start config)
      (Handshake.not_awaited_of_no_password hpassword) events
    have hlength := congrArg List.length h.steps_eq
    have hplan : (start config).registrar.machine.steps = Handshake.plan config.registration := rfl
    rw [← hlines, List.length_map] at hturns
    rw [hplan, Nat.min_eq_right hturns] at hposted
    simp only [List.length_append, List.length_map] at hlength
    have hsteps : ((start config).run events).registrar.machine.steps = [] :=
      List.eq_nil_of_length_eq_zero (by omega)
    rw [← hlines, ← h.steps_eq, hsteps, List.append_nil, List.map_map]
    rfl
  · intro outcome c hresult
    exact hlines ▸ h.result?_eq_some hresult
  · intro c hall more hturns
    exact result?_of_turns h (hlines ▸ hall) more (.inr hturns)

-- With a password, a request for capabilities that fails is the last thing to be posted.
example :
    let events : List Event :=
      [.registrar, .connection (.serve (.error .disposed)), .registrar, .registrar]
    ((start .twitch).postings events).length = 1 := by
  rfl

-- Without one, the identity is posted all the same.
example :
    let config : ClientConfig :=
      { registration := { nickname := "a", capabilities := ClientConfig.twitchCapabilities } }
    let events : List Event :=
      [.registrar, .connection (.serve (.error .disposed)), .registrar, .registrar]
    ((start config).postings events).length = 2 := by
  rfl

end Client
end RelayChat
