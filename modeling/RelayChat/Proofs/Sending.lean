import Mathlib.Data.List.DropRight
import RelayChat.Proofs.Framing
import RelayChat.Proofs.Text.Utf8

/-!
# What is sent of a line

Writing a line drops the breaks at its end and adds one CRLF.  What is sent always ends
there, but it need not be one line for the reader at the other end: each line feed inside
makes one line more (`length_wholeLines_encode`).  Without one, the reader gives the text
that was written, less the breaks at its end (`decode_encode_append`).
-/

namespace RelayChat.Framer

variable {cs : List Char}

theorem encode_eq (cs : List Char) :
    encode cs = (Text.encode (Text.trimEnd Line.isBreak cs) ++ [13]) ++ [lineFeed] := by
  rw [encode, Text.encode, List.flatMap_append, ← Text.encode, List.append_assoc]
  rfl

/-- Trimmed once, a text need not be trimmed again. -/
theorem trimEnd_append_break (cs : List Char) :
    Text.trimEnd Line.isBreak (Text.trimEnd Line.isBreak cs ++ ['\r', '\n']) =
      Text.trimEnd Line.isBreak cs := by
  have hsplit : ∀ front : List Char, front ++ ['\r', '\n'] = (front ++ ['\r']) ++ ['\n'] := by
    intro front
    rw [List.append_assoc]
    rfl
  change List.rdropWhile Line.isBreak (List.rdropWhile Line.isBreak cs ++ ['\r', '\n']) =
    List.rdropWhile Line.isBreak cs
  rw [hsplit, List.rdropWhile_concat_pos _ _ _ (by decide),
    List.rdropWhile_concat_pos _ _ _ (by decide), List.rdropWhile_idempotent]

/-- A text that does not end in a break is not trimmed. -/
theorem trimEnd_eq_self (front : List Char) {back : List Char} (hne : back ≠ [])
    (hback : ∀ c ∈ back, Line.isBreak c = false) :
    Text.trimEnd Line.isBreak (front ++ back) = front ++ back := by
  change List.rdropWhile Line.isBreak (front ++ back) = front ++ back
  rw [List.rdropWhile_eq_self_iff]
  intro hall
  rw [List.getLast_append_of_ne_nil hall hne]
  simp [hback _ (List.getLast_mem hne)]

/-! ### The line feeds in it -/

/-- A stream has as many lines as line feeds. -/
theorem length_wholeLines (bytes : List UInt8) :
    (wholeLines bytes).length = bytes.count lineFeed := by
  induction bytes using stream_induction with
  | tail bytes h => rw [wholeLines_eq_nil h, List.count_eq_zero_of_not_mem h, List.length_nil]
  | line front rest hfront ih =>
      rw [wholeLines_append hfront, List.length_cons, ih, List.count_append,
        List.count_eq_zero_of_not_mem hfront, List.count_cons_self, Nat.zero_add]

theorem count_lineFeed_encode (cs : List Char) :
    (Text.encode cs).count lineFeed = cs.count '\n' :=
  Text.count_encode cs '\n' (by decide)

/-- What is sent ends with a line feed. -/
theorem unfinished_encode (cs : List Char) : unfinished (encode cs) = [] := by
  rw [encode_eq, unfinished_append]
  rfl

/-- **Each line feed inside a line makes one line more of it.** -/
theorem length_wholeLines_encode (cs : List Char) :
    (wholeLines (encode cs)).length = (Text.trimEnd Line.isBreak cs).count '\n' + 1 := by
  rw [length_wholeLines, encode_eq, List.count_append, List.count_append, count_lineFeed_encode]
  rfl

/-- What is sent is one line if there is no line feed inside. -/
theorem isLine_encode_iff (cs : List Char) :
    IsLine (encode cs) ↔ (Text.trimEnd Line.isBreak cs).count '\n' = 0 := by
  have hlines := length_wholeLines_encode cs
  constructor
  · rintro ⟨body, hbody, hfree⟩
    rw [hbody, wholeLines_append hfree, List.length_cons, wholeLines_eq_nil (by simp)] at hlines
    exact (Nat.succ.inj hlines).symm
  · intro hnone
    rw [← count_lineFeed_encode, List.count_eq_zero] at hnone
    refine ⟨_, encode_eq cs, ?_⟩
    rw [List.mem_append, not_or]
    exact ⟨hnone, by decide⟩

/-- The text of what is sent is the text that was written, less the breaks at its end. -/
theorem lineText_encode (cs : List Char) :
    lineText (encode cs) = String.ofList (Text.trimEnd Line.isBreak cs) := by
  rw [lineText, encode, Text.decode_encode, trimEnd_append_break]

/-- **A line that was written is read**, whatever comes after it. -/
theorem decode_encode_append {limit : Nat} (hline : IsLine (encode cs))
    (hlimit : (encode cs).length ≤ limit) (rest : List UInt8) :
    ({ limit } : Framer).decode (encode cs ++ rest) =
      (.ok (some (String.ofList (Text.trimEnd Line.isBreak cs))), { limit }, rest) := by
  obtain ⟨body, hbody, hfree⟩ := hline
  have hbytes : encode cs ++ rest = body ++ lineFeed :: rest := by
    rw [hbody, List.append_assoc]
    rfl
  rw [hbytes, decode_line hfree (Nat.zero_le _), ← hbody, lineText_encode, answerFor,
    if_neg (Nat.not_lt.mpr hlimit)]

end RelayChat.Framer
