import RelayChat.Proofs.Command.Classification

/-!
# The text of a message to somebody

PRIVMSG, NOTICE, WHISPER and SQUERY say a text to somebody.  The text stands in the
second position, and what stands in a position is the parameter there, or the trailing
parameter if it comes next (`Message.TextIs`).  A second parameter is therefore always
the text, also of a message that has a trailing parameter besides: that one is then
passed over, and is in no field of the command.

The body of a PRIVMSG is the text as it was sent.  An action is a body that was
unwrapped, and since unwrapping can be undone (`Action.wrapText_of_unwrapText?`), the
body is still to be had from the command (`Content.body?`).
-/

namespace RelayChat

/-- The text that a message says to somebody, as it was sent: an action is wrapped again. -/
def Content.body? : Content → Option String
  | .privmsg _ text isAction => some (if isAction then Action.wrapText text else text)
  | .notice _ text => some text
  | .whisper _ text _ => some text
  | .squery _ text => some text
  | _ => none

theorem Content.body?_ofBody (target : Target) (body : String) :
    (ofBody target body).body? = some body := by
  unfold ofBody
  split
  · next text htext =>
    rw [body?, if_pos rfl, Action.wrapText_of_unwrapText? htext]
  · rfl

namespace Message

variable {m : Message} {s : String}

/-- What stands in a position is the parameter there, and only without one the trailing
parameter. -/
theorem TextIs.param_or_trailing {index : Nat} (h : m.TextIs index s) :
    (m.param? index).or m.trailing = some s := by
  rcases h with hparam | ⟨hlength, htrailing⟩
  · rw [hparam, Option.some_or]
  · have hnone : m.param? index = none := List.getElem?_eq_none hlength.le
    rw [hnone, Option.none_or, htrailing]

/-- A message to somebody has its text in the second position. -/
theorem Means.body {content : Content} (h : m.Means content)
    (hkind : content.kind ∈ [Kind.privmsg, .notice, .whisper, .squery]) :
    ∃ body, content.body? = some body ∧ m.TextIs 1 body := by
  cases h with
  | privmsg verb first second => exact ⟨_, Content.body?_ofBody _ _, second⟩
  | notice verb first second => exact ⟨_, rfl, second⟩
  | whisper verb first named second => exact ⟨_, rfl, second⟩
  | squery verb first named second => exact ⟨_, rfl, second⟩
  | _ => simp [Content.kind] at hkind

end Message

namespace Command

/-- **The text of a message is its second parameter, and only without one its trailing
parameter.**  It is the text that comes last, the trailing parameter wherever there is one,
unless the message has both and they differ. -/
theorem body_is_param_or_trailing (m : Message) (c : Command)
    (hverb : m.verb ∈ ["PRIVMSG", "NOTICE", "WHISPER", "SQUERY"]) (h : ofMessage m = .ok c) :
    ∃ body, c.content.body? = some body ∧ (m.param? 1).or m.trailing = some body ∧
      (m.trailing.or (m.param? 1) = some body ↔
        ¬ ∃ param trailing, m.param? 1 = some param ∧ m.trailing = some trailing ∧
          param ≠ trailing) := by
  obtain ⟨-, hmeans⟩ := ofMessage_eq_ok h
  have hkind : c.content.kind ∈ [Kind.privmsg, .notice, .whisper, .squery] := by
    rw [hmeans.kind_eq]
    simp only [List.mem_cons, List.not_mem_nil, or_false] at hverb
    rcases hverb with hverb | hverb | hverb | hverb
    all_goals rw [hverb]; decide
  obtain ⟨body, hbody, hsecond⟩ := hmeans.body hkind
  have htaken := hsecond.param_or_trailing
  refine ⟨body, hbody, htaken, ?_⟩
  rw [← htaken]
  -- Which of the two is asked first can only matter if both are there.
  cases m.param? 1 <;> cases m.trailing <;> simp [eq_comm]

/-- The body of an action is the trailing parameter with its wrapping, and without a second
parameter it would be so in the other order as well. -/
theorem body_of_action :
    let m : Message := ⟨∅, none, "PRIVMSG", ["#a"], some "\x01ACTION hi\x01"⟩
    let c : Command := ⟨m, .privmsg (.channel ⟨.network, "a"⟩) "hi" true⟩
    m.verb ∈ ["PRIVMSG", "NOTICE", "WHISPER", "SQUERY"] ∧ ofMessage m = .ok c ∧
      c.content.body? = some "\x01ACTION hi\x01" ∧
      m.trailing.or (m.param? 1) = c.content.body? := by
  intro m c
  have hverb : m.verb ∈ ["PRIVMSG", "NOTICE", "WHISPER", "SQUERY"] := by decide
  have hcommand : ofMessage m = .ok c := by decide
  obtain ⟨body, hbody, htaken, hiff⟩ := body_is_param_or_trailing m c hverb hcommand
  have hnone : m.param? 1 = none := rfl
  have hwrapped : body = "\x01ACTION hi\x01" := by
    rw [hnone, Option.none_or] at htaken
    exact (Option.some.inj htaken).symm
  refine ⟨hverb, hcommand, by rw [hbody, hwrapped], hbody ▸ hiff.mpr ?_⟩
  rintro ⟨param, trailing, hparam, -⟩
  rw [hnone] at hparam
  cases hparam

/-- The trailing parameter is not the text of a message that has a second parameter. -/
theorem second_parameter_is_taken :
    ¬ ∀ (line : String) (c : Command), Received.ofLine line = .command c →
      c.message.verb ∈ ["PRIVMSG", "NOTICE", "WHISPER", "SQUERY"] →
        c.content.body? = c.message.trailing.or (c.message.param? 1) := by
  intro h
  have hline : Received.ofLine "PRIVMSG #a b :c" =
      .command ⟨⟨∅, none, "PRIVMSG", ["#a", "b"], some "c"⟩,
        .privmsg (.channel ⟨.network, "a"⟩) "b" false⟩ := by
    decide +kernel
  exact absurd (h _ _ hline (by decide)) (by decide)

end Command

end RelayChat
