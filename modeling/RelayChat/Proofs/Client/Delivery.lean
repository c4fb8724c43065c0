import RelayChat.Proofs.Chunk
import RelayChat.Proofs.Client.Moves

/-!
# What a connection delivers

Along a history a connection takes in chunks, and perhaps a failure that ends it.
`Connection.due` is what these come to, by the items of each chunk: no machine is in it.
The machine keeps, at every moment (`Connection.Delivery`):

* what was read, what is in the stream and what is still to be delivered is all that is
  due, in its order, as long as the stream is held;
* the batches of pongs that were handed over, and the one that is pending, are those of
  the chunks, in order, where a chunk without pings has none;
* after a failure nothing more is taken in.
-/

namespace RelayChat

/-- The batch of pongs that is to be handed over, if there is one. -/
def Phase.batch (p : Phase) : List (List String) :=
  [p.pongs].filter (!·.isEmpty)

namespace Connection

variable {c d : Connection} {e : Event}

/-! ### What is taken in, and what it comes to -/

/-- The chunk that an event brings, if it is taken in. -/
def chunk? (c : Connection) : Event → Option String
  | .chunk text =>
    match c.phase with
    | .waiting => some text
    | _ => none
  | _ => none

/-- The failure that an event brings, if it is taken in. -/
def failure? (c : Connection) : Event → Option TransportError
  | .fail e =>
    match c.phase with
    | .waiting => some e
    | _ => none
  | _ => none

/-- The chunks that are taken in along a history. -/
def chunks (c : Connection) : List Event → List String
  | [] => []
  | e :: rest => (c.chunk? e).toList ++ (c.step e).chunks rest

/-- The failures that are taken in along a history. -/
def failures (c : Connection) : List Event → List TransportError
  | [] => []
  | e :: rest => (c.failure? e).toList ++ (c.step e).failures rest

/-- The items that are due for some chunks and failures. -/
def due (policy : ErrorPolicy) (chunks : List String) (failures : List TransportError) :
    List Item :=
  chunks.flatMap (Chunk.items policy) ++ failures.map fun e => .error (.transport e)

/-- The batches of pongs that are due for some chunks. -/
def dueBatches (policy : ErrorPolicy) (chunks : List String) : List (List String) :=
  (chunks.map fun chunk => (Chunk.items policy chunk).filterMap pongText?).filter (!·.isEmpty)

/-- The batches of pongs that were handed to the transport. -/
def pongBatches (calls : List Call) : List (List String) :=
  calls.filterMap fun
    | .pong lines _ => some lines
    | _ => none

theorem pongsFor_eq (items : List Item) : pongsFor items = items.filterMap pongText? := by
  refine congrArg (List.filterMap · items) (funext fun item => ?_)
  rcases item with failure | ⟨m, content⟩ | ⟨raw, m, fault⟩
  · rfl
  · cases content with
    | ping token => exact congrArg some (pongLine_eq token)
    | _ => rfl
  · rfl

/-! ### What is kept -/

/-- **What is kept** while a connection takes in chunks and failures. -/
structure Delivery (policy : ErrorPolicy) (chunks : List String) (failures : List TransportError)
    (c : Connection) : Prop where
  /-- The policy does not change. -/
  policy_eq : c.policy = policy
  /-- What was read, what can be read and what will come is what is due. -/
  items : c.held = true → c.delivered ++ c.stream ++ c.phase.items = due policy chunks failures
  /-- What was handed over, and what will be, are the pongs that are due. -/
  batches : pongBatches c.calls ++ c.phase.batch = dueBatches policy chunks
  /-- A failure is the last thing that is taken in. -/
  last : failures ≠ [] → c.IsClosing
  /-- There is one failure at most. -/
  once : failures.length ≤ 1
  /-- A connection does not wait for what there is not. -/
  busy : ∀ last, c.phase ≠ .delivering [] [] last

variable {policy : ErrorPolicy} {chunks : List String} {failures : List TransportError}

theorem due_append_chunk (policy : ErrorPolicy) (chunks : List String) (chunk : String) :
    due policy (chunks ++ [chunk]) [] = due policy chunks [] ++ Chunk.items policy chunk := by
  simp [due]

theorem due_append_failure (policy : ErrorPolicy) (chunks : List String) (e : TransportError) :
    due policy chunks [e] = due policy chunks [] ++ [.error (.transport e)] := by
  simp [due]

theorem dueBatches_append (policy : ErrorPolicy) (chunks : List String) (chunk : String) :
    dueBatches policy (chunks ++ [chunk]) =
      dueBatches policy chunks ++
        [(Chunk.items policy chunk).filterMap pongText?].filter (!·.isEmpty) := by
  simp [dueBatches]

theorem delivery_opened (policy : ErrorPolicy) (capacity : Nat) :
    Delivery policy [] [] (opened policy capacity) where
  policy_eq := rfl
  items _ := rfl
  batches := rfl
  last h := absurd rfl h
  once := Nat.zero_le 1
  busy := by simp [opened]

/-- An event that makes no difference brings nothing. -/
theorem taken_of_idle (h : c.Idle e) : c.chunk? e = none ∧ c.failure? e = none := by
  cases e with
  | chunk text =>
      refine ⟨?_, rfl⟩
      rcases hphase : c.phase with _ | _ | _
      · exact absurd hphase h
      · rw [chunk?, hphase]
      · rw [chunk?, hphase]
  | fail e =>
      refine ⟨rfl, ?_⟩
      rcases hphase : c.phase with _ | _ | _
      · exact absurd hphase h
      · rw [failure?, hphase]
      · rw [failure?, hphase]
  | _ => exact ⟨rfl, rfl⟩

/-- While it waits, nothing is left to be done. -/
theorem Delivery.of_waiting (h : Delivery policy chunks failures c) (hphase : c.phase = .waiting) :
    failures = [] ∧ (c.held = true → c.delivered ++ c.stream = due policy chunks failures) ∧
      pongBatches c.calls = dueBatches policy chunks := by
  refine ⟨?_, fun hheld => ?_, ?_⟩
  · by_contra hne
    exact not_isClosing_of_waiting hphase (h.last hne)
  · simpa [hphase] using h.items hheld
  · simpa [hphase, Phase.batch] using h.batches

/-- Going on keeps everything, if what there is to go on with is right. -/
theorem delivery_handle {pongs : List String} {items : List Item} {last : Bool}
    (hpolicy : c.policy = policy)
    (hitems : c.held = true → c.delivered ++ c.stream ++ items = due policy chunks failures)
    (hbatches : pongBatches c.calls ++ [pongs].filter (!·.isEmpty) = dueBatches policy chunks)
    (hlast : failures ≠ [] → last = true ∧ pongs = []) (honce : failures.length ≤ 1) :
    Delivery policy chunks failures (c.handle pongs items last) where
  policy_eq := by rw [policy_handle, hpolicy]
  items hheld := by
    rw [held_handle] at hheld
    rw [delivered_handle, stream_handle, items_handle, hitems hheld]
  batches := by rw [calls_handle, Phase.batch, pongs_handle, hbatches]
  last hne := by
    rw [IsClosing, isLast_handle, pongs_handle]
    exact hlast hne
  once := honce
  busy := handle_phase_ne _ _ _ _

theorem Delivery.takeChunk (h : Delivery policy chunks failures c) (hphase : c.phase = .waiting)
    (text : String) :
    Delivery policy (chunks ++ [text]) failures
      (c.handle (pongsFor (Chunk.items c.policy text)) (Chunk.items c.policy text) false) := by
  obtain ⟨rfl, hitems, hbatches⟩ := h.of_waiting hphase
  obtain rfl := h.policy_eq
  refine delivery_handle rfl (fun hheld => ?_) ?_ (absurd rfl) h.once
  · rw [hitems hheld, due_append_chunk]
  · rw [hbatches, pongsFor_eq, dueBatches_append]

theorem Delivery.takeFailure (h : Delivery policy chunks failures c)
    (hphase : c.phase = .waiting) (e : TransportError) :
    Delivery policy chunks (failures ++ [e]) (c.handle [] [.error (.transport e)] true) := by
  obtain ⟨rfl, hitems, hbatches⟩ := h.of_waiting hphase
  refine delivery_handle h.policy_eq (fun hheld => ?_) ?_ (fun _ => ⟨rfl, rfl⟩) (Nat.le_refl 1)
  · rw [hitems hheld, List.nil_append, due_append_failure]
  · rw [hbatches]
    exact List.append_nil _

theorem Delivery.stop (h : Delivery policy chunks failures c) (hphase : c.phase = .waiting) :
    Delivery policy chunks failures c.stop where
  policy_eq := h.policy_eq
  items hheld := by
    rw [← (h.of_waiting hphase).2.1 hheld]
    exact List.append_nil _
  batches := by
    rw [← (h.of_waiting hphase).2.2]
    exact List.append_nil _
  last _ := isClosing_stop c
  once := h.once
  busy := by simp [Connection.stop]

/-- An event that brings nothing is to keep what there is. -/
theorem Delivery.of_quiet (h : Delivery policy chunks failures d) (hchunk : c.chunk? e = none)
    (hfailure : c.failure? e = none) :
    Delivery policy (chunks ++ (c.chunk? e).toList) (failures ++ (c.failure? e).toList) d := by
  rw [hchunk, hfailure, Option.toList_none, Option.toList_none, List.append_nil, List.append_nil]
  exact h

/-- **Every move keeps what is kept**, with what it takes in. -/
theorem Delivery.moves (h : Delivery policy chunks failures c) (hmoves : Moves c e d) :
    Delivery policy (chunks ++ (c.chunk? e).toList) (failures ++ (c.failure? e).toList) d := by
  cases hmoves with
  | idle hidle => exact h.of_quiet (taken_of_idle hidle).1 (taken_of_idle hidle).2
  | takeChunk hphase => simpa [chunk?, failure?, hphase] using h.takeChunk hphase _
  | takeFailure hphase => simpa [chunk?, failure?, hphase] using h.takeFailure hphase _
  | takeClose hphase => exact (h.stop hphase).of_quiet rfl rfl
  | serveSend =>
      refine Delivery.of_quiet ⟨h.policy_eq, h.items, ?_, h.last, h.once, h.busy⟩ rfl rfl
      simpa [pongBatches] using h.batches
  | serveDispose hphase =>
      refine Delivery.of_quiet (Delivery.stop ⟨h.policy_eq, h.items, ?_, h.last, h.once, h.busy⟩
        hphase) rfl rfl
      simpa [pongBatches] using h.batches
  | @sendPongs pongs items last outcome hphase hpongs =>
      refine Delivery.of_quiet (delivery_handle h.policy_eq ?_ ?_ ?_ h.once) rfl rfl
      · intro hheld
        simpa [hphase] using h.items hheld
      · simpa [hphase, Phase.batch, pongBatches, hpongs] using h.batches
      · intro hne
        have hlast := (h.last hne).1
        rw [hphase] at hlast
        exact ⟨hlast, rfl⟩
  | @deliver pongs item items last hphase hheld hroom =>
      refine Delivery.of_quiet (delivery_handle h.policy_eq ?_ ?_ ?_ h.once) rfl rfl
      · intro _
        simpa [hphase] using h.items hheld
      · simpa [hphase, Phase.batch] using h.batches
      · intro hne
        simpa [IsClosing, hphase] using h.last hne
  | @drop pongs item items last hphase hheld =>
      refine Delivery.of_quiet (delivery_handle h.policy_eq ?_ ?_ ?_ h.once) rfl rfl
      · intro hheld'
        rw [hheld] at hheld'
        cases hheld'
      · simpa [hphase, Phase.batch] using h.batches
      · intro hne
        simpa [IsClosing, hphase] using h.last hne
  | read hstream =>
      refine Delivery.of_quiet ⟨h.policy_eq, ?_, h.batches, h.last, h.once, h.busy⟩ rfl rfl
      intro hheld
      simpa [hstream] using h.items hheld
  | leave =>
      refine Delivery.of_quiet ⟨h.policy_eq, ?_, h.batches, h.last, h.once, h.busy⟩ rfl rfl
      intro hheld
      cases hheld
  | _ => exact Delivery.of_quiet ⟨h.policy_eq, h.items, h.batches, h.last, h.once, h.busy⟩ rfl rfl

/-- A history keeps it. -/
theorem Delivery.run (h : Delivery policy chunks failures c) (events : List Event) :
    Delivery policy (chunks ++ c.chunks events) (failures ++ c.failures events) (c.run events) := by
  induction events generalizing c chunks failures with
  | nil => simpa [Connection.chunks, Connection.failures, Connection.run] using h
  | cons e events ih =>
      rw [Connection.chunks, Connection.failures, ← List.append_assoc, ← List.append_assoc]
      exact ih (h.moves (c.moves_step e))

/-! ### Coming to rest -/

/-- The events that a connection and its consumer bring about by themselves. -/
def Event.IsOwn : Event → Prop
  | .serve _ | .pong _ | .deliver | .read => True
  | _ => False

theorem isOwn_of_next? {transport : Transport} {reading : Bool}
    (h : c.next? transport reading = some e) : e.IsOwn := by
  have hread : ∀ {e : Event}, c.readNext? reading = some e → e.IsOwn := by
    intro e he
    unfold readNext? at he
    split at he <;> cases he
    trivial
  unfold next? at h
  split at h
  · cases h
    trivial
  · split at h
    · cases h
      trivial
    · exact hread h
  · cases h
    trivial
  · cases h
    trivial
  · exact hread h

/-- Coming to rest is a history of such events, after which none is possible. -/
theorem exists_run_settle (transport : Transport) (reading : Bool) (c : Connection) :
    ∃ moves, (∀ e ∈ moves, Event.IsOwn e) ∧ c.settle transport reading = c.run moves ∧
      (c.settle transport reading).next? transport reading = none := by
  fun_induction settle transport reading c with
  | case1 c e hnext ih =>
      obtain ⟨moves, hown, hrun, hrest⟩ := ih
      exact ⟨e :: moves, List.forall_mem_cons.mpr ⟨isOwn_of_next? hnext, hown⟩, hrun, hrest⟩
  | case2 c hnext => exact ⟨[], by simp, rfl, hnext⟩

/-- An item can go into an empty stream. -/
theorem canDeliver_of_stream_eq_nil (h : c.stream = []) : c.canDeliver = true := by
  have hroom : 0 < c.room := by
    rw [room]
    omega
  simp [canDeliver, h, hroom]

/-- At rest with a consumer, nothing is left to be done or to be read. -/
theorem rest_of_next?_eq_none {transport : Transport} (h : c.next? transport true = none) :
    c.phase.items = [] ∧ c.phase.pongs = [] ∧ c.stream = [] := by
  have hstream : c.readNext? true = none → c.stream = [] := by
    intro hread
    simpa [readNext?] using hread
  rcases hphase : c.phase with _ | ⟨pongs, items, last⟩ | _
  · refine ⟨rfl, rfl, hstream ?_⟩
    match hqueue : c.queue with
    | [] => simpa [next?, hphase, hqueue] using h
    | .send _ _ :: _ => simp [next?, hphase, hqueue] at h
    | .dispose :: _ => simp [next?, hphase, hqueue] at h
  · match pongs, items with
    | _ :: _, _ => simp [next?, hphase] at h
    | [], [] => exact ⟨rfl, rfl, hstream (by simpa [next?, hphase] using h)⟩
    | [], _ :: _ =>
        -- Either the item can go, or there is one in the stream to be read.
        simp only [next?, hphase] at h
        split at h
        · cases h
        · next hfull => exact absurd (canDeliver_of_stream_eq_nil (hstream h)) hfull
  · exact ⟨rfl, rfl, hstream (by simpa [next?, hphase] using h)⟩

/-- At rest with a consumer, a connection waits or has stopped. -/
theorem phase_of_next?_eq_none (hbusy : ∀ last, c.phase ≠ .delivering [] [] last)
    {transport : Transport} (h : c.next? transport true = none) :
    c.phase = .waiting ∨ c.phase = .stopped := by
  obtain ⟨hitems, hpongs, -⟩ := rest_of_next?_eq_none h
  rcases hphase : c.phase with _ | ⟨pongs, items, last⟩ | _
  · exact .inl rfl
  · rw [hphase] at hitems hpongs
    obtain rfl : items = [] := hitems
    obtain rfl : pongs = [] := hpongs
    exact absurd hphase (hbusy last)
  · exact .inr rfl

/-- What a connection does by itself takes nothing in. -/
theorem taken_of_isOwn {moves : List Event} (h : ∀ e ∈ moves, Event.IsOwn e) :
    c.chunks moves = [] ∧ c.failures moves = [] := by
  induction moves generalizing c with
  | nil => exact ⟨rfl, rfl⟩
  | cons e moves ih =>
      obtain ⟨he, hmoves⟩ := List.forall_mem_cons.mp h
      rw [Connection.chunks, Connection.failures, (ih hmoves).1, (ih hmoves).2]
      cases e with
      | serve | pong | deliver | read => exact ⟨rfl, rfl⟩
      | _ => exact he.elim

/-- Coming to rest keeps what is due, whether the stream is held, and what ends. -/
theorem Delivery.settle (h : Delivery policy chunks failures c) (transport : Transport) :
    Delivery policy chunks failures (c.settle transport true) ∧
      (c.settle transport true).held = c.held ∧
        (c.IsClosing → (c.settle transport true).IsClosing) := by
  obtain ⟨moves, hown, hrun, -⟩ := exists_run_settle transport true c
  have hheld : (c.run moves).held = c.held := by
    refine held_run fun e he hleave => ?_
    have := hown e he
    rw [hleave] at this
    exact this
  have htaken := taken_of_isOwn (c := c) hown
  have hkept := h.run moves
  rw [htaken.1, htaken.2, List.append_nil, List.append_nil] at hkept
  rw [hrun]
  exact ⟨hkept, hheld, fun hclosing => (closing_run hclosing moves).1⟩

/-- At rest all that is due has been read and handed over, and a closing connection has ended. -/
theorem Delivery.at_rest (h : Delivery policy chunks failures c) (hheld : c.held = true)
    (transport : Transport) :
    (c.settle transport true).delivered = due policy chunks failures ∧
      pongBatches (c.settle transport true).calls = dueBatches policy chunks ∧
        (c.IsClosing → (c.settle transport true).streamEnded = true) := by
  obtain ⟨hkept, hheld', hclosing⟩ := h.settle transport
  obtain ⟨-, -, -, hrest⟩ := exists_run_settle transport true c
  obtain ⟨hitems, hpongs, hstream⟩ := rest_of_next?_eq_none hrest
  refine ⟨?_, ?_, fun hc => ?_⟩
  · simpa [hitems, hstream] using hkept.items (hheld'.trans hheld)
  · simpa [Phase.batch, hpongs] using hkept.batches
  · have hstopped : (c.settle transport true).isStopped = true := by
      rcases phase_of_next?_eq_none hkept.busy hrest with hwaiting | hstopped
      · exact absurd (hclosing hc) (not_isClosing_of_waiting hwaiting)
      · rw [isStopped, hstopped]
    rw [streamEnded, hstopped, hstream]
    rfl

/-! ### Exact delivery -/

theorem flatten_batch (p : Phase) : p.batch.flatten = p.pongs := by
  rw [Phase.batch, List.flatten_filter_not_isEmpty, List.flatten_singleton]

/-- The pongs that are due are one for each ping among the items that are due. -/
theorem flatten_dueBatches (policy : ErrorPolicy) (chunks : List String)
    (failures : List TransportError) :
    (dueBatches policy chunks).flatten = (due policy chunks failures).filterMap pongText? := by
  have hnone : (failures.map fun e => (.error (.transport e) : Item)).filterMap pongText? = [] := by
    simp [List.filterMap_map, pongText?, Function.comp_def]
  rw [dueBatches, List.flatten_filter_not_isEmpty, due, List.filterMap_append, hnone,
    List.append_nil, List.filterMap_flatMap, List.flatMap]

/-- What a connection makes of the chunks and failures that it has taken in, while its stream is
held. -/
structure DeliversExactly (policy : ErrorPolicy) (chunks : List String)
    (failures : List TransportError) (c : Connection) : Prop where
  /-- What has been read, what can be read and what is still to be delivered are together all
  that is due, in its order. -/
  in_order : c.delivered ++ c.stream ++ c.phase.items = due policy chunks failures
  /-- There is one failure at most, so that it is due as the last item. -/
  one_failure : failures.length ≤ 1
  /-- With a failure the connection is closing. -/
  failed : failures ≠ [] → c.IsClosing
  /-- The lines of pongs that were handed over, and those that are still to be, are one for each
  ping that is due, in order. -/
  pongs : (pongBatches c.calls).flatten ++ c.phase.pongs =
    (due policy chunks failures).filterMap pongText?
  /-- When the stream has come to its end, all that is due has been read. -/
  ended : c.streamEnded = true → c.delivered = due policy chunks failures
  /-- A consumer who goes on reading comes to read all that is due, while all pongs are handed
  over; and then comes to the end, if the connection has taken in what ends it. -/
  at_rest : ∀ transport : Transport,
    (c.settle transport true).delivered = due policy chunks failures ∧
      (pongBatches (c.settle transport true).calls).flatten =
        (due policy chunks failures).filterMap pongText? ∧
          (c.IsClosing → (c.settle transport true).streamEnded = true)

theorem Delivery.deliversExactly (h : Delivery policy chunks failures c)
    (hheld : c.held = true) : DeliversExactly policy chunks failures c where
  in_order := h.items hheld
  one_failure := h.once
  failed := h.last
  pongs := by rw [← flatten_dueBatches, ← h.batches, List.flatten_append, flatten_batch]
  ended hended := by
    obtain ⟨hstopped, hstream⟩ := by simpa [streamEnded] using hended
    have hphase : c.phase = .stopped := by
      unfold isStopped at hstopped
      split at hstopped
      · assumption
      · cases hstopped
    simpa [hphase, hstream] using h.items hheld
  at_rest transport := by
    obtain ⟨hitems, hbatches, hclosing⟩ := h.at_rest hheld transport
    exact ⟨hitems, by rw [hbatches, flatten_dueBatches], hclosing⟩

/-- Chunks that carry the same lines, as the same text does however it is cut at CRLFs. -/
def SameLines (a b : List String) : Prop :=
  a.flatMap Chunk.lines = b.flatMap Chunk.lines ∨
    Chunk.CutAtBreaks a ∧ Chunk.CutAtBreaks b ∧ String.join a = String.join b

theorem due_eq_of_sameLines {a b : List String} (h : SameLines a b) (hpolicy : policy ≠ .propagate)
    (failures : List TransportError) : due policy a failures = due policy b failures := by
  have hlines : a.flatMap Chunk.lines = b.flatMap Chunk.lines := by
    rcases h with h | ⟨ha, hb, hjoin⟩
    · exact h
    · rw [Chunk.flatMap_lines_of_cut ha, Chunk.flatMap_lines_of_cut hb, hjoin]
  rw [due, due, Chunk.flatMap_items hpolicy, Chunk.flatMap_items hpolicy, hlines]

/-- **Inbound delivery is exact.**  A connection whose stream is held delivers exactly what is due
for the chunks that it took in, and for the failure if there was one.  Unless an error ends a
chunk, only the lines count: after another history that took in the same lines, the same items
come to be read and the same pongs to be handed over. -/
theorem inbound_delivery_exact (policy : ErrorPolicy) (capacity : Nat) (events : List Event)
    (hheld : ((opened policy capacity).run events).held = true) :
    let start := opened policy capacity
    DeliversExactly policy (start.chunks events) (start.failures events) (start.run events) ∧
      (policy ≠ .propagate → ∀ (capacity' : Nat) (events' : List Event),
        let start' := opened policy capacity'
        (start'.run events').held = true →
        SameLines (start'.chunks events') (start.chunks events) →
        start'.failures events' = start.failures events →
        ∀ transport transport' : Transport,
          let rest := (start.run events).settle transport true
          let rest' := (start'.run events').settle transport' true
          rest'.delivered = rest.delivered ∧
            (pongBatches rest'.calls).flatten = (pongBatches rest.calls).flatten) := by
  intro start
  have h : DeliversExactly policy (start.chunks events) (start.failures events)
      (start.run events) := ((delivery_opened policy capacity).run events).deliversExactly hheld
  refine ⟨h, ?_⟩
  intro hpolicy capacity' events' start' hheld' hlines hfailures transport transport' rest rest'
  have h' : DeliversExactly policy (start'.chunks events') (start'.failures events')
      (start'.run events') :=
    ((delivery_opened policy capacity').run events').deliversExactly hheld'
  have hdue : due policy (start'.chunks events') (start'.failures events') =
      due policy (start.chunks events) (start.failures events) := by
    rw [hfailures, due_eq_of_sameLines hlines hpolicy]
  obtain ⟨hitems, hpongs, -⟩ := h.at_rest transport
  obtain ⟨hitems', hpongs', -⟩ := h'.at_rest transport'
  exact ⟨by rw [hitems, hitems', hdue], by rw [hpongs, hpongs', hdue]⟩

/-- A ping after an empty line, in one chunk or with the empty line cut off: it is delivered, and
its PONG is handed over. -/
theorem cut_ping_delivered_exactly :
    let ping : Item := .ok (.command ⟨⟨∅, none, "PING", [], some "a"⟩, .ping "a"⟩)
    let whole := (opened .emit 0).run [.chunk "\r\nPING :a"]
    let cut := (opened .emit 2).run [.chunk "\r\n", .chunk "PING :a"]
    let transport : Transport := fun _ => .error .disposed
    whole.held = true ∧ DeliversExactly .emit ["\r\nPING :a"] [] whole ∧
      ((whole.settle transport true).delivered = [ping] ∧
        (pongBatches (whole.settle transport true).calls).flatten = ["PONG :a"]) ∧
      (cut.settle transport true).delivered = [ping] ∧
        (pongBatches (cut.settle transport true).calls).flatten = ["PONG :a"] := by
  intro ping whole cut transport
  have hheld : whole.held = true := held_run (by simp)
  have hheld' : cut.held = true := held_run (by simp)
  have hempty : (opened .emit 2).step (.chunk "\r\n") = opened .emit 2 := by
    have hitems : Chunk.items .emit "\r\n" = [] := by
      rw [Chunk.items_eq]
      rfl
    simp [step, takeChunk, opened, hitems, handle, pongsFor]
  have hchunks : (opened .emit 2).chunks [.chunk "\r\n", .chunk "PING :a"] =
      ["\r\n", "PING :a"] := by
    rw [chunks, hempty]
    rfl
  have hfailures : (opened .emit 2).failures [.chunk "\r\n", .chunk "PING :a"] = [] := by
    rw [failures, hempty]
    rfl
  have hlines : SameLines ["\r\n", "PING :a"] ["\r\nPING :a"] :=
    .inr ⟨⟨.inr (.inr (.inl ⟨"", rfl⟩)), .inr (.inl rfl), trivial⟩,
      ⟨.inr (.inl rfl), trivial⟩, by decide⟩
  have hdue : due .emit ["\r\nPING :a"] [] = [ping] := by
    have hread : Received.ofLine "PING :a" =
        .command ⟨⟨∅, none, "PING", [], some "a"⟩, .ping "a"⟩ := by decide +kernel
    have hline : Chunk.lines "\r\nPING :a" = ["PING :a"] := rfl
    rw [due, List.flatMap_singleton, Chunk.items_eq, hline, List.map_singleton, hread]
    rfl
  obtain ⟨hexact, hregroup⟩ := inbound_delivery_exact .emit 0 [.chunk "\r\nPING :a"] hheld
  have hwhole : DeliversExactly .emit ["\r\nPING :a"] [] whole := hexact
  obtain ⟨hitems, hpongs, -⟩ := hwhole.at_rest transport
  have hsame := hregroup (by simp) 2 [.chunk "\r\n", .chunk "PING :a"] hheld'
    (by rw [hchunks]; exact hlines) hfailures transport transport
  rw [hdue] at hitems hpongs
  exact ⟨hheld, hwhole, ⟨hitems, hpongs⟩, hsame.1.trans hitems, hsame.2.trans hpongs⟩

end Connection
end RelayChat
