import RelayChat.Proofs.Chunk

/-!
# A batch asked again and again

A consumer takes the items of a chunk one call at a time, and may go on calling after
the last of them.  `Batch.answer` is the answer of each call, counted from zero, and
the items of the batch say all of it: call `n` is answered with item `n`, and calls
past the last item with nothing (`Batch.gives_items`).  That there is nothing
for ever after the first such answer is part of this, since a list has no gaps.

What the items are is then said of the lines of the chunk, for each policy by
itself and without the loop that skips, drops and halts.
-/

namespace RelayChat

variable {policy : ErrorPolicy} {e : Failure}

/-! ### The items of some lines, policy by policy -/

namespace ErrorPolicy

variable {received front : List Received}

/-- Under `emit` every line is an item. -/
theorem items_emit (received : List Received) : emit.items received = received.map .ok := by
  induction received with
  | nil => rfl
  | cons line received ih =>
      cases line with
      | command c => rw [items, ih, List.map_cons]
      | invalid raw m fault => rw [items, ih, List.map_cons]

/-- Under `suppress` the items are the lines that are commands. -/
theorem items_suppress (received : List Received) :
    suppress.items received = (received.filter (!·.isInvalid)).map .ok := by
  induction received with
  | nil => rfl
  | cons line received ih =>
      cases line with
      | command c => rw [items, ih, List.filter_cons_of_pos rfl, List.map_cons]
      | invalid raw m fault =>
          rw [items, List.filter_cons_of_neg (by simp [Received.isInvalid])]
          exact ih

/-- Lines that are commands are their own items. -/
theorem items_append_of_valid (h : ∀ line ∈ front, line.isInvalid = false) (back : List Received) :
    policy.items (front ++ back) = front.map .ok ++ policy.items back := by
  induction front with
  | nil => rfl
  | cons line front ih =>
      have hfront := ih fun other hother => h other (List.mem_cons_of_mem _ hother)
      have hline := h line List.mem_cons_self
      cases line with
      | command c => rw [List.cons_append, items, hfront, List.map_cons, List.cons_append]
      | invalid raw m fault => exact absurd hline (by simp [Received.isInvalid])

/-- Commands alone are the same items under every policy. -/
theorem items_of_valid (h : ∀ line ∈ received, line.isInvalid = false) :
    policy.items received = received.map .ok := by
  simpa [items] using policy.items_append_of_valid h []

/-- A line that is no command is the last thing that is given. -/
theorem items_propagate_stop {line : Received} (h : line.toCommand = .error e)
    (back : List Received) : propagate.items (line :: back) = [.error e] := by
  cases line with
  | command c => exact absurd h (by simp [Received.toCommand])
  | invalid raw m fault =>
      obtain rfl : fault.toFailure raw = e := Except.error.inj h
      rw [items]

end ErrorPolicy

/-- A line that is no command is a failure where a command is wanted. -/
theorem Received.exists_failure {line : Received} (h : line.isInvalid = true) :
    ∃ e, line.toCommand = .error e := by
  cases line with
  | command c => exact absurd h (by simp [Received.isInvalid])
  | invalid raw m fault => exact ⟨_, rfl⟩

/-! ### Call after call -/

namespace Batch

variable {b after : Batch} {items : List Item}

/-- The answer to a call of `next`, the calls counted from zero. -/
def answer (b : Batch) : Nat → Option Item
  | 0 => b.next.1
  | n + 1 => b.next.2.answer n

/-- A consumer is given these items one by one, and nothing for ever after them. -/
def Gives (b : Batch) (items : List Item) : Prop :=
  ∀ n, b.answer n = items[n]?

theorem rest_of_advance_none {pieces rest : List (List Char)}
    (h : advance policy pieces = (none, rest)) : rest = [] := by
  induction pieces with
  | nil => simpa [advance] using h.symm
  | cons piece pieces ih =>
      cases piece with
      | nil => exact ih (by simpa only [advance] using h)
      | cons c cs =>
          unfold advance at h
          split at h
          · exact absurd h (by simp)
          · exact absurd h (by simp)
          · exact ih h
          · exact absurd h (by simp)

/-- **Nothing comes after nothing.** -/
theorem next_of_next_none (h : b.next = (none, after)) : after.next = (none, after) := by
  unfold next at h
  split at h
  · next hhalted =>
    obtain rfl := (Prod.mk.inj h).2
    rw [next, if_pos hhalted]
  · next hhalted =>
    split at h
    · exact absurd h (by simp)
    · next rest hadvance =>
      obtain rfl := (Prod.mk.inj h).2
      obtain rfl := rest_of_advance_none hadvance
      rw [next, if_neg hhalted]
      rfl

/-- **Call after call a batch gives its items**, and nothing for ever after them. -/
theorem gives_items (b : Batch) : b.Gives b.items := by
  intro n
  induction n generalizing b with
  | zero =>
      rw [answer]
      rcases hnext : b.next with ⟨_ | item, after⟩
      · rw [items_of_next_none hnext]
        rfl
      · rw [items_of_next_some hnext]
        rfl
  | succ n ih =>
      rw [answer, ih]
      rcases hnext : b.next with ⟨_ | item, after⟩
      · rw [items_of_next_none hnext, items_of_next_none (next_of_next_none hnext)]
        rfl
      · rw [items_of_next_some hnext, List.getElem?_cons_succ]

/-- Once a batch has come to its end, it gives nothing at any later call. -/
theorem Gives.none_of_le (h : b.Gives items) {n m : Nat} (hle : n ≤ m)
    (hnone : b.answer n = none) : b.answer m = none := by
  rw [h, List.getElem?_eq_none_iff] at hnone ⊢
  exact Nat.le_trans hnone hle

end Batch

/-! ### All items at once -/

section Collect

variable {ε α : Type}

theorem mapM_id_ok (as : List α) : (as.map Except.ok).mapM id = (.ok as : Except ε (List α)) := by
  induction as with
  | nil => rfl
  | cons a as ih =>
      rw [List.map_cons, List.mapM_cons, ih]
      rfl

theorem mapM_id_error (as : List α) (e : ε) :
    (as.map Except.ok ++ [Except.error e]).mapM id = (.error e : Except ε (List α)) := by
  induction as with
  | nil => rfl
  | cons a as ih =>
      rw [List.map_cons, List.cons_append, List.mapM_cons, ih]
      rfl

end Collect

namespace Chunk

/-- The lines of a chunk, each classified by itself. -/
def received (chunk : String) : List Received :=
  (lines chunk).map .ofLine

variable {chunk : String} {given : List Received}

/-- A batch gives its items call by call. -/
theorem gives_of_items {items : List Item} (h : Chunk.items policy chunk = items) :
    (Batch.ofChunk policy chunk).Gives items :=
  h ▸ Batch.gives_items _

/-- Where all items are lines, they are read. -/
theorem gives_and_read_ok (h : policy.items (received chunk) = given.map .ok) :
    (Batch.ofChunk policy chunk).Gives (given.map .ok) ∧ read policy chunk = .ok given := by
  have hitems := (items_eq policy chunk).trans h
  refine ⟨gives_of_items hitems, ?_⟩
  rw [read, hitems, mapM_id_ok]

/-- The first line that is no command ends everything. -/
theorem gives_and_read_error {line : String} {before after : List String}
    (hlines : lines chunk = before ++ line :: after)
    (hbefore : ∀ l ∈ before, (Received.ofLine l).isInvalid = false)
    (hline : Command.parse line = .error e) :
    (Batch.ofChunk .propagate chunk).Gives (before.map (.ok <| .ofLine ·) ++ [.error e]) ∧
      read .propagate chunk = .error e := by
  have hvalid : ∀ r ∈ before.map Received.ofLine, r.isInvalid = false :=
    List.forall_mem_map.mpr hbefore
  have hitems : Chunk.items .propagate chunk =
      (before.map Received.ofLine).map .ok ++ [.error e] := by
    rw [items_eq, hlines, List.map_append, List.map_cons,
      ErrorPolicy.items_append_of_valid hvalid, ErrorPolicy.items_propagate_stop hline]
  constructor
  · rw [List.map_map] at hitems
    exact gives_of_items hitems
  · rw [read, hitems, mapM_id_error]

/-- A chunk has only commands, or a first line that is none. -/
theorem exists_first_invalid (h : ¬ ∀ line ∈ received chunk, line.isInvalid = false) :
    ∃ before line after, lines chunk = before ++ line :: after ∧
      (∀ l ∈ before, (Received.ofLine l).isInvalid = false) ∧
        (Received.ofLine line).isInvalid = true := by
  obtain ⟨line, hfind⟩ : ∃ line, (lines chunk).find? (fun l => (Received.ofLine l).isInvalid) =
      some line := by
    rw [received, List.forall_mem_map] at h
    rw [← Option.isSome_iff_exists, List.find?_isSome]
    simpa using h
  obtain ⟨hline, before, after, hlines, hbefore⟩ := List.find?_eq_some_iff_append.mp hfind
  exact ⟨before, line, after, hlines, by simpa using hbefore, hline⟩

/-- **A batch does what its policy says**, call by call: it gives every line in its place, or
every line that is a command, or the commands up to the first line that is none and then the
failure of that line.  Reading all of a chunk at once comes to the same. -/
theorem batch_follows_policy (chunk : String) :
    ((Batch.ofChunk .emit chunk).Gives ((received chunk).map .ok) ∧
        read .emit chunk = .ok (received chunk)) ∧
      ((Batch.ofChunk .suppress chunk).Gives (((received chunk).filter (!·.isInvalid)).map .ok) ∧
        read .suppress chunk = .ok ((received chunk).filter (!·.isInvalid))) ∧
      ((∀ line ∈ received chunk, line.isInvalid = false) →
        (Batch.ofChunk .propagate chunk).Gives ((received chunk).map .ok)) ∧
      (∀ given, read .propagate chunk = .ok given ↔
        (∀ line ∈ received chunk, line.isInvalid = false) ∧ given = received chunk) ∧
      (∀ before line after, lines chunk = before ++ line :: after →
        (∀ l ∈ before, (Received.ofLine l).isInvalid = false) →
        (Received.ofLine line).isInvalid = true →
        ∃ e, Command.parse line = .error e ∧
          (Batch.ofChunk .propagate chunk).Gives (before.map (.ok <| .ofLine ·) ++ [.error e]) ∧
            read .propagate chunk = .error e) ∧
      ∀ policy n m, n ≤ m → (Batch.ofChunk policy chunk).answer n = none →
        (Batch.ofChunk policy chunk).answer m = none := by
  have hstop : ∀ before line after, lines chunk = before ++ line :: after →
      (∀ l ∈ before, (Received.ofLine l).isInvalid = false) →
      (Received.ofLine line).isInvalid = true →
      ∃ e, Command.parse line = .error e ∧
        (Batch.ofChunk .propagate chunk).Gives (before.map (.ok <| .ofLine ·) ++ [.error e]) ∧
          read .propagate chunk = .error e := by
    intro before line after hlines hbefore hline
    obtain ⟨e, he⟩ := Received.exists_failure hline
    exact ⟨e, he, gives_and_read_error hlines hbefore he⟩
  have hall : (∀ line ∈ received chunk, line.isInvalid = false) →
      (Batch.ofChunk .propagate chunk).Gives ((received chunk).map .ok) ∧
        read .propagate chunk = .ok (received chunk) := fun h =>
    gives_and_read_ok (ErrorPolicy.items_of_valid h)
  refine ⟨gives_and_read_ok (ErrorPolicy.items_emit _),
    gives_and_read_ok (ErrorPolicy.items_suppress _), fun h => (hall h).1, fun given => ?_, hstop,
    fun policy _ _ => (Batch.gives_items _).none_of_le⟩
  constructor
  · intro hread
    by_cases hvalid : ∀ line ∈ received chunk, line.isInvalid = false
    · exact ⟨hvalid, Except.ok.inj (hread.symm.trans (hall hvalid).2)⟩
    · obtain ⟨before, line, after, hlines, hbefore, hline⟩ := exists_first_invalid hvalid
      obtain ⟨e, -, -, herror⟩ := hstop before line after hlines hbefore hline
      exact absurd (hread.symm.trans herror) (by simp)
  · rintro ⟨hvalid, rfl⟩
    exact (hall hvalid).2

/-- A JOIN without a channel ends a batch, whatever follows. -/
theorem refused_join_ends_batch :
    let chunk := "PING :a\r\nJOIN nochannel\r\nPING :b\r\n"
    lines chunk = ["PING :a"] ++ "JOIN nochannel" :: ["PING :b"] ∧
      (∀ l ∈ ["PING :a"], (Received.ofLine l).isInvalid = false) ∧
        (Received.ofLine "JOIN nochannel").isInvalid = true ∧
          ∃ e, Command.parse "JOIN nochannel" = .error e ∧
            (Batch.ofChunk .propagate chunk).Gives
                (["PING :a"].map (.ok <| .ofLine ·) ++ [.error e]) ∧
              read .propagate chunk = .error e := by
  intro chunk
  have hlines : lines chunk = ["PING :a"] ++ "JOIN nochannel" :: ["PING :b"] := by decide +kernel
  have hbefore : ∀ l ∈ ["PING :a"], (Received.ofLine l).isInvalid = false := by decide +kernel
  have hline : (Received.ofLine "JOIN nochannel").isInvalid = true := by decide +kernel
  obtain ⟨-, -, -, -, hstop, -⟩ := batch_follows_policy chunk
  exact ⟨hlines, hbefore, hline, hstop _ _ _ hlines hbefore hline⟩

end Chunk

end RelayChat
