import RelayChat.Proofs.Command.Wire
import RelayChat.Proofs.Stream

/-!
# Commands without tags and source, as they are said

What a client says of its own is a message with neither tags nor a source.  Whether it
is read as what was meant depends on its texts alone: the parameters must be ones, and
the trailing parameter must have no line break (`Message.wellFormed_plain_iff`).

`Command.IsSaidBy` follows such a message all the way.  It is written as one line, the
reader at the other end is given that line and nothing of what comes after it, and the
line is that command, with the same message and the same fields.
-/

namespace RelayChat

open Grammar

namespace Message

variable {m : Message} {verb : String} {params : List String} {trailing : Option String}

/-! ### Messages without tags and source -/

/-- Of a message with neither tags nor a source, only the texts can be at fault. -/
theorem wellFormed_plain_iff (hverb : IsVerb verb.toList) (hroom : params.length ≤ 14) :
    WellFormed ⟨∅, none, verb, params, trailing⟩ ↔
      (∀ param ∈ params, IsMiddle param.toList) ∧
        ∀ text ∈ trailing, IsUnbroken text.toList := by
  constructor
  · exact fun h => ⟨h.params, h.trailing⟩
  · rintro ⟨hparams, htrailing⟩
    refine ⟨⟨?_, ?_, ?_, hverb⟩, hroom, hparams, htrailing⟩
    · exact fun tag htag => absurd htag List.not_mem_nil
    · exact fun tag htag => absurd htag List.not_mem_nil
    · exact fun source hsource => absurd hsource (by simp)

/-- **A message with neither tags nor a source comes back** exactly if its parameters and its
trailing parameter can be written. -/
theorem parse_text_plain_iff (hverb : IsVerb verb.toList) (hroom : params.length ≤ 14) :
    parse (text ⟨∅, none, verb, params, trailing⟩) = .ok ⟨∅, none, verb, params, trailing⟩ ↔
      (∀ param ∈ params, IsMiddle param.toList) ∧
        ∀ text ∈ trailing, IsUnbroken text.toList := by
  rw [← wellFormed_plain_iff hverb hroom]
  exact ⟨wellFormed_of_parse, WellFormed.parse_text⟩

/-- A well-formed message without tags is written without a line feed. -/
theorem WellFormed.feed_not_mem_text (h : m.WellFormed) (htags : m.tags = ∅) :
    '\n' ∉ m.text.toList := by
  have hcount := h.unbroken.count_chars
  rw [htags] at hcount
  rw [text, String.toList_ofList]
  exact List.count_eq_zero.mp hcount

/-- A well-formed message is sent with nothing dropped. -/
theorem WellFormed.trimEnd_text (h : m.WellFormed) :
    Text.trimEnd Line.isBreak m.text.toList = m.text.toList := by
  rw [text, String.toList_ofList,
    h.unbroken.trimEnd_chars (Line.alphanum_of_isVerb h.verb).1]

theorem WellFormed.lineText_encode (h : m.WellFormed) :
    Framer.lineText (Framer.encode m.text.toList) = m.text := by
  rw [Framer.lineText_encode, h.trimEnd_text, String.ofList_toList]

end Message

/-! ### Saying a command -/

/-- **A line says a command**, and nothing else. -/
structure Command.IsSaidBy (c : Command) (line : String) : Prop where
  /-- The line is sent as one line. -/
  oneLine : Framer.IsLine (Framer.encode line.toList)
  /-- A reader that takes lines of that length is given it, and is left what comes after it. -/
  received : ∀ limit rest, (Framer.encode line.toList).length ≤ limit →
    ({ limit } : Framer).decode (Framer.encode line.toList ++ rest) =
      (.ok (some line), { limit }, rest)
  /-- The line is the command. -/
  meant : Received.ofLine line = .command c
  /-- So it is with its end. -/
  meantEnded : Received.ofLine (line ++ "\r\n") = .command c

/-- **A well-formed message without tags is said as it was meant.** -/
theorem Message.WellFormed.isSaidBy {m : Message} {content : Content} (h : m.WellFormed)
    (htags : m.tags = ∅) (hmeans : m.Means content) :
    Command.IsSaidBy ⟨m, content⟩ m.text := by
  have hline := Framer.isLine_encode (h.feed_not_mem_text htags)
  refine ⟨hline, fun limit rest hlimit => ?_, ?_, ?_⟩
  · rw [Framer.decode_encode_append hline hlimit, h.trimEnd_text, String.ofList_toList]
  · rw [Received.ofLine_of_parse h.parse_text, Received.ofMessage_of_means _ hmeans]
  · rw [Received.ofLine_of_parse h.parse_text_ended, Received.ofMessage_of_means _ hmeans]

end RelayChat
