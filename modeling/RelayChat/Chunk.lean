import RelayChat.Command.Received

/-!
# Chunks

A transport delivers text in chunks of one or more lines, each ended by CRLF.
Lines are cut at CRLF only, and empty ones are skipped.  What happens to a line
that is no command is the choice of an `ErrorPolicy`.

A `Batch` gives the items of a chunk one at a time, as a consumer asks for them:
`next` skips what gives no item, and once the batch has halted at an error it
gives nothing more.  `Batch.items` is all that it gives.
-/

namespace RelayChat

/-- What to do with a line that is no command. -/
inductive ErrorPolicy where
  /-- Give the line, marked as invalid, in its place. -/
  | emit
  /-- Leave the line out. -/
  | suppress
  /-- Give the failure in its place, and stop. -/
  | propagate
deriving Repr, DecidableEq, Inhabited

/-- What a consumer of lines is given. -/
abbrev Item := Except Failure Received

/-- The lines of a chunk, without the empty ones. -/
def Chunk.lines (chunk : String) : List String :=
  ((Text.lines chunk.toList).filter (!·.isEmpty)).map String.ofList

/-- The items of a chunk that have not been given yet. -/
structure Batch where
  /-- What to do with a line that is no command. -/
  policy : ErrorPolicy
  /-- The pieces of the chunk that have not been looked at, empty ones included. -/
  pieces : List (List Char)
  /-- Whether an error has ended the batch. -/
  halted : Bool
deriving Repr, DecidableEq

namespace Batch

/-- A chunk of which nothing has been given. -/
def ofChunk (policy : ErrorPolicy) (chunk : String) : Batch :=
  ⟨policy, Text.lines chunk.toList, false⟩

/-- The first item from some pieces on, with the pieces after it and whether it ends the batch. -/
def advance (policy : ErrorPolicy) : List (List Char) → Option (Item × Bool) × List (List Char)
  | [] => (none, [])
  | [] :: rest => advance policy rest
  | line :: rest =>
    match Received.ofLine (String.ofList line), policy with
    | .command c, _ => (some (.ok (.command c), false), rest)
    | .invalid raw m fault, .emit => (some (.ok (.invalid raw m fault), false), rest)
    | .invalid .., .suppress => advance policy rest
    | .invalid raw _ fault, .propagate => (some (.error (fault.toFailure raw), true), rest)

/-- The next item, and the batch after it. -/
def next (b : Batch) : Option Item × Batch :=
  if b.halted then (none, b)
  else
    match advance b.policy b.pieces with
    | (some (item, halts), rest) => (some item, { b with pieces := rest, halted := halts })
    | (none, rest) => (none, { b with pieces := rest })

theorem length_advance {policy : ErrorPolicy} {ps rest : List (List Char)} {item : Item × Bool}
    (h : advance policy ps = (some item, rest)) : rest.length < ps.length := by
  induction ps with
  | nil => simp [advance] at h
  | cons line tail ih =>
    unfold advance at h
    split at h
    · simp at h
    · next heq =>
      obtain ⟨-, rfl⟩ := by simpa using heq
      exact Nat.lt_succ_of_lt (ih h)
    · next heq =>
      obtain ⟨-, rfl⟩ := by simpa using heq
      split at h
      · simp_all
      · simp_all
      · exact Nat.lt_succ_of_lt (ih h)
      · simp_all

theorem length_next {b after : Batch} {item : Item} (h : b.next = (some item, after)) :
    after.pieces.length < b.pieces.length := by
  unfold next at h
  split at h
  · simp at h
  · split at h
    · next heq =>
      have := length_advance heq
      simp only [Prod.mk.injEq] at h
      rw [← h.2]
      exact this
    · simp at h

/-- **All the items** that a batch gives, and the batch after the last of them. -/
def drain (b : Batch) : List Item × Batch :=
  match _given : b.next with
  | (some item, after) =>
    let (items, last) := after.drain
    (item :: items, last)
  | (none, after) => ([], after)
termination_by b.pieces.length
decreasing_by exact length_next _given

/-- All the items that a batch gives. -/
def items (b : Batch) : List Item :=
  b.drain.1

end Batch

/-- The items of a chunk. -/
def Chunk.items (policy : ErrorPolicy) (chunk : String) : List Item :=
  (Batch.ofChunk policy chunk).items

/-- All lines of a chunk, or the first failure. -/
def Chunk.read (policy : ErrorPolicy) (chunk : String) : Except Failure (List Received) :=
  (items policy chunk).mapM id

end RelayChat
