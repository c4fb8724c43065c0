import RelayChat.Proofs.Chunk
import RelayChat.Proofs.Command.Classification
import RelayChat.Proofs.Command.Said

/-!
# Pings are answered with their token

The token of a PING is its trailing parameter, and so it is any text without a line
break: it may be empty, begin with a colon, and hold spaces and NULs, and it is found
also where it stands as a fifteenth parameter and without a sign.  The answer has it
behind a sign, where any such text can stand.  Nothing else of the PING is in it.
-/

namespace RelayChat

open Grammar

/-- **A token without a line break is answered as it is.** -/
theorem isSaidBy_pongLine {token : String} (h : IsUnbroken token.toList) :
    Command.IsSaidBy ⟨⟨∅, none, "PONG", [], some token⟩, .pong token⟩ (pongLine token) := by
  have hformed : Message.WellFormed ⟨∅, none, "PONG", [], some token⟩ := by
    refine (Message.wellFormed_plain_iff (by decide) (by simp)).mpr ⟨by simp, ?_⟩
    exact fun text htext => Option.mem_some.mp htext ▸ h
  have hverb : Verb.ofText "PONG" = .pong := by decide
  exact hformed.isSaidBy rfl (.pong hverb rfl)

theorem isUnbroken_pongLine {token : String} (h : IsUnbroken token.toList) :
    IsUnbroken (pongLine token).toList := by
  have hverb : IsUnbroken "PONG :".toList := by decide
  rw [pongLine_eq, String.toList_append]
  exact hverb.append h

/-- The token of a ping is the trailing parameter. -/
theorem Message.trailing_of_means_ping {m : Message} {token : String}
    (h : m.Means (.ping token)) : m.trailing = some token := by
  generalize hcontent : Content.ping token = content at h
  cases h with
  | ping verb last => rw [last, Content.ping.inj hcontent]
  | privmsg verb first second =>
      unfold Content.ofBody at hcontent
      split at hcontent <;> cases hcontent
  | _ => cases hcontent

namespace Received

variable {line : String}

/-- What is answered is a ping, and the answer is the line of its token. -/
theorem answer?_eq_some_iff {r : Received} {answer : String} :
    r.answer? = some answer ↔
      ∃ m token, r = .command ⟨m, .ping token⟩ ∧ answer = pongLine token := by
  constructor
  · intro h
    unfold answer? at h
    split at h
    · next m token => exact ⟨m, token, rfl, (Option.some.inj h).symm⟩
    · cases h
  · rintro ⟨m, token, rfl, rfl⟩
    rfl

/-- A line is a ping exactly if its verb is PING and it has a trailing parameter, which is the
token. -/
theorem ofLine_eq_ping_iff {m : Message} {token : String} :
    ofLine line = .command ⟨m, .ping token⟩ ↔
      Message.parse line = .ok m ∧ m.verb = "PING" ∧ m.trailing = some token := by
  constructor
  · intro h
    obtain ⟨hparse, hmeans⟩ := means_of_ofLine h
    have hword : Kind.IsOf m.verb .ping := Verb.kind_ofText_iff.mp hmeans.kind_eq.symm
    exact ⟨hparse, (Option.some.inj hword).symm, Message.trailing_of_means_ping hmeans⟩
  · rintro ⟨hparse, hverb, htrailing⟩
    have hmeans : m.Means (.ping token) := .ping (by rw [hverb]; decide) htrailing
    rw [ofLine_of_parse hparse, ofMessage_of_means _ hmeans]

theorem kind_eq_ping_iff {r : Received} :
    r.kind = .ping ↔ ∃ m token, r = .command ⟨m, .ping token⟩ := by
  constructor
  · intro h
    cases r with
    | command c =>
        obtain ⟨m, content⟩ := c
        cases content with
        | ping token => exact ⟨m, token, rfl⟩
        | _ => cases h
    | invalid raw m fault => cases h
  · rintro ⟨m, token, rfl⟩
    rfl

/-- **Pings are answered, and nothing else is.**  A line is answered exactly if it is a ping, that
is if its verb is PING and it has a trailing parameter.  The answer is one line without a break in
it that says PONG with the same token, and has no tags, no source and no parameters, whatever the
ping had. -/
theorem pings_are_answered_with_their_token (line : String) :
    ((ofLine line).answer?.isSome = true ↔ (ofLine line).kind = .ping) ∧
      ((ofLine line).kind = .ping ↔
        ∃ m token, Message.parse line = .ok m ∧ m.verb = "PING" ∧ m.trailing = some token) ∧
      ∀ answer, (ofLine line).answer? = some answer ↔
        ∃ m token, (Message.parse line = .ok m ∧ m.verb = "PING" ∧ m.trailing = some token) ∧
          ofLine line = .command ⟨m, .ping token⟩ ∧
          answer = "PONG :" ++ token ∧ IsUnbroken answer.toList ∧
          Command.IsSaidBy ⟨⟨∅, none, "PONG", [], some token⟩, .pong token⟩ answer := by
  refine ⟨?_, ?_, fun answer => ?_⟩
  · rw [kind_eq_ping_iff, Option.isSome_iff_exists]
    simp only [answer?_eq_some_iff]
    constructor
    · rintro ⟨answer, m, token, hline, -⟩
      exact ⟨m, token, hline⟩
    · rintro ⟨m, token, hline⟩
      exact ⟨pongLine token, m, token, hline, rfl⟩
  · rw [kind_eq_ping_iff]
    simp only [ofLine_eq_ping_iff]
  · rw [answer?_eq_some_iff]
    refine exists_congr fun m => exists_congr fun token => ?_
    rw [← ofLine_eq_ping_iff, ← pongLine_eq]
    constructor
    · rintro ⟨hline, rfl⟩
      obtain ⟨hparse, -, htrailing⟩ := ofLine_eq_ping_iff.mp hline
      have hbreak := (Message.wellFormed_of_parse hparse).trailing token htrailing
      exact ⟨hline, hline, rfl, isUnbroken_pongLine hbreak, isSaidBy_pongLine hbreak⟩
    · rintro ⟨hline, -, hanswer, -⟩
      exact ⟨hline, hanswer⟩

/-- The token may stand as a fifteenth parameter, with spaces in it. -/
example : (ofLine ":s PING 1 2 3 4 5 6 7 8 9 10 11 12 13 14 a :b").answer? = some "PONG :a :b" := by
  decide +kernel

end Received

end RelayChat
