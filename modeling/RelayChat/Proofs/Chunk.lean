import Mathlib.Data.List.Basic
import RelayChat.Chunk
import RelayChat.Ping

/-!
# The items of a chunk

A batch gives its items one at a time and skips, drops or halts as it goes.
`ErrorPolicy.items` says the same about the whole: what each line of a chunk comes to
under a policy.  `Chunk.items_eq` is the agreement of the two.

Unless an error ends a chunk, each line counts for itself.  Then the items of chunks
are those of their lines (`Chunk.flatMap_items`); and since no CRLF can begin inside
another, text that is cut before or after a CRLF has the same lines as before
(`Chunk.flatMap_lines_of_cut`).
-/

namespace RelayChat

/-! ### What lines come to -/

/-- The items of some lines under a policy. -/
def ErrorPolicy.items (policy : ErrorPolicy) : List Received → List Item
  | [] => []
  | .command c :: rest => .ok (.command c) :: policy.items rest
  | .invalid raw m fault :: rest =>
    match policy with
    | .emit => .ok (.invalid raw m fault) :: policy.items rest
    | .suppress => policy.items rest
    | .propagate => [.error (fault.toFailure raw)]

/-- The PONG line that an item calls for, if it is a ping. -/
def pongText? : Item → Option String
  | .ok (.command ⟨_, .ping host⟩) => some ("PONG :" ++ host)
  | _ => none

/-- Unless an error ends them, lines come to the same items whatever comes before them. -/
theorem ErrorPolicy.items_append {policy : ErrorPolicy} (h : policy ≠ .propagate)
    (a b : List Received) : policy.items (a ++ b) = policy.items a ++ policy.items b := by
  induction a with
  | nil => rfl
  | cons line a ih =>
      cases line with
      | command c => simp only [List.cons_append, items, ih]
      | invalid raw m fault =>
          cases policy with
          | emit => simp only [List.cons_append, items, ih]
          | suppress => simpa only [List.cons_append, items] using ih
          | propagate => exact absurd rfl h

/-- The line of a PONG, character by character: nothing is escaped or dropped. -/
theorem pongLine_eq (token : String) : pongLine token = "PONG :" ++ token := by
  apply String.toList_inj.mp
  simp [pongLine, Message.text, Message.chars, Message.tagsChars, Message.sourceChars,
    Message.trailingChars, Message.ofVerb, Message.withTrailing]

namespace Batch

/-! ### What a batch gives -/

/-- What a batch gives first is the first of its items. -/
theorem items_of_next_some {b after : Batch} {item : Item} (h : b.next = (some item, after)) :
    b.items = item :: after.items := by
  rw [items, drain]
  split
  · next heq =>
    rw [h] at heq
    cases heq
    rfl
  · next heq =>
    rw [h] at heq
    cases heq

theorem items_of_next_none {b after : Batch} (h : b.next = (none, after)) : b.items = [] := by
  rw [items, drain]
  split
  · next heq =>
    rw [h] at heq
    cases heq
  · rfl

/-- A batch that was ended by an error gives nothing more. -/
theorem items_of_halted (policy : ErrorPolicy) (pieces : List (List Char)) :
    items ⟨policy, pieces, true⟩ = [] :=
  items_of_next_none (show next _ = (none, ⟨policy, pieces, true⟩) from rfl)

variable {policy : ErrorPolicy} {piece : List Char} {rest pieces : List (List Char)}

theorem items_of_advance_none (h : advance policy pieces = (none, rest)) :
    items ⟨policy, pieces, false⟩ = [] :=
  items_of_next_none (show next _ = (none, ⟨policy, rest, false⟩) by simp [next, h])

/-- The first item of a batch is what its first piece that gives one comes to. -/
theorem items_of_advance_some {item : Item} {halts : Bool}
    (h : advance policy pieces = (some (item, halts), rest)) :
    items ⟨policy, pieces, false⟩ = item :: items ⟨policy, rest, halts⟩ :=
  items_of_next_some (by simp [next, h])

/-- A piece that gives no item makes no difference. -/
theorem items_of_advance_eq (h : advance policy (piece :: pieces) = advance policy pieces) :
    items ⟨policy, piece :: pieces, false⟩ = items ⟨policy, pieces, false⟩ := by
  rcases hadvance : advance policy pieces with ⟨_ | ⟨item, halts⟩, rest⟩
  · rw [items_of_advance_none hadvance, items_of_advance_none (h.trans hadvance)]
  · rw [items_of_advance_some hadvance, items_of_advance_some (h.trans hadvance)]

theorem items_eq (policy : ErrorPolicy) (pieces : List (List Char)) :
    items ⟨policy, pieces, false⟩ =
      policy.items ((pieces.filter (!·.isEmpty)).map fun cs => .ofLine (String.ofList cs)) := by
  induction pieces with
  | nil => exact items_of_advance_none rfl
  | cons piece pieces ih =>
      cases piece with
      | nil =>
          rw [items_of_advance_eq (by rw [advance]), ih]
          rfl
      | cons c cs =>
          rw [List.filter_cons_of_pos rfl, List.map_cons]
          cases hline : Received.ofLine (String.ofList (c :: cs)) with
          | command command =>
              have h : advance policy ((c :: cs) :: pieces) =
                  (some (.ok (.command command), false), pieces) := by simp only [advance, hline]
              rw [items_of_advance_some h, ih, ErrorPolicy.items]
          | invalid raw m fault =>
              cases policy with
              | emit =>
                  have h : advance .emit ((c :: cs) :: pieces) =
                      (some (.ok (.invalid raw m fault), false), pieces) := by
                    simp only [advance, hline]
                  rw [items_of_advance_some h, ih, ErrorPolicy.items]
              | suppress =>
                  have h : advance .suppress ((c :: cs) :: pieces) = advance .suppress pieces := by
                    simp only [advance, hline]
                  rw [items_of_advance_eq h, ih, ErrorPolicy.items]
              | propagate =>
                  have h : advance .propagate ((c :: cs) :: pieces) =
                      (some (.error (fault.toFailure raw), true), pieces) := by
                    simp only [advance, hline]
                  rw [items_of_advance_some h, items_of_halted, ErrorPolicy.items]

end Batch

namespace Chunk

/-- **The items of a chunk** are what its lines come to. -/
theorem items_eq (policy : ErrorPolicy) (chunk : String) :
    items policy chunk = policy.items ((lines chunk).map .ofLine) := by
  rw [items, Batch.ofChunk, Batch.items_eq, lines, List.map_map]
  rfl

/-- **Unless an error ends a chunk, only the lines count**, and not the chunks that they came in. -/
theorem flatMap_items {policy : ErrorPolicy} (h : policy ≠ .propagate) (chunks : List String) :
    chunks.flatMap (items policy) = policy.items ((chunks.flatMap lines).map .ofLine) := by
  induction chunks with
  | nil => rfl
  | cons chunk chunks ih =>
      rw [List.flatMap_cons, List.flatMap_cons, List.map_append, policy.items_append h, ih,
        items_eq]

end Chunk

/-! ### Cutting a text into chunks -/

/-- A CRLF ends a line wherever it stands. -/
theorem Text.lines_append (a b : List Char) :
    lines (a ++ '\r' :: '\n' :: b) = lines a ++ lines b := by
  fun_induction lines a with
  | case1 => simp [lines]
  | case2 rest ih => simp [lines, ih]
  | case3 c rest hc ih =>
      -- What comes first is no CRLF, not even with what was appended.
      have hcut : ∀ more, c = '\r' → rest ++ '\r' :: '\n' :: b = '\n' :: more → False := by
        intro more hreturn hrest
        cases rest with
        | nil => simp at hrest
        | cons next rest =>
            refine hc rest hreturn ?_
            rw [List.cons_append, List.cons.injEq] at hrest
            rw [hrest.1]
      obtain ⟨piece, more, hlines⟩ := List.exists_cons_of_ne_nil (lines_ne_nil rest)
      rw [List.cons_append, lines, ih, hlines]
      · rfl
      · exact hcut

namespace Chunk

/-- The lines before a CRLF and those after it are the lines of the whole. -/
theorem lines_append_break (a b : String) : lines (a ++ "\r\n" ++ b) = lines a ++ lines b := by
  have htext : (a ++ "\r\n" ++ b).toList = a.toList ++ '\r' :: '\n' :: b.toList := by simp
  rw [lines, htext, Text.lines_append, List.filter_append, List.map_append]
  rfl

theorem lines_empty : lines "" = [] := rfl

/-- Whether a text may be cut here, between what comes before and what comes after: at a CRLF, or
where there is nothing to cut off. -/
def AtBreak (before after : String) : Prop :=
  before = "" ∨ after = "" ∨ (∃ a, before = a ++ "\r\n") ∨ (∃ b, after = "\r\n" ++ b)

/-- Chunks that come of cutting a text at CRLFs. -/
def CutAtBreaks : List String → Prop
  | [] => True
  | chunk :: rest => AtBreak chunk (String.join rest) ∧ CutAtBreaks rest

/-- A text that is cut at a CRLF, before it or after it, keeps its lines. -/
theorem lines_append_of_atBreak {before after : String} (h : AtBreak before after) :
    lines (before ++ after) = lines before ++ lines after := by
  rcases h with rfl | rfl | ⟨a, rfl⟩ | ⟨b, rfl⟩
  · simp [lines_empty]
  · simp [lines_empty]
  · have ha : lines (a ++ "\r\n") = lines a := by
      simpa [lines_empty] using lines_append_break a ""
    rw [lines_append_break, ha]
  · have hb : lines ("\r\n" ++ b) = lines b := by
      simpa [lines_empty] using lines_append_break "" b
    rw [← String.append_assoc, lines_append_break, hb]

/-- **Cutting a text at CRLFs keeps its lines.** -/
theorem flatMap_lines_of_cut {chunks : List String} (h : CutAtBreaks chunks) :
    chunks.flatMap lines = lines (String.join chunks) := by
  induction chunks with
  | nil => rfl
  | cons chunk chunks ih =>
      rw [List.flatMap_cons, ih h.2, String.join_cons, lines_append_of_atBreak h.1]

end Chunk

end RelayChat
