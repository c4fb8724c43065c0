import RelayChat.Proofs.Command.Canonical

/-!
# Lines that are written back

What `Received.text` gives for a line is read again here, for the three things that a
line can be.

* **A command** is written in its canonical form and read as the same command, with
  the same fields (`SameSense`).  The one thing in the way is a NUL: a text may hold
  one only in the trailing position, and `Clean` says that writing the command did
  not move such a text out of it.
* **A message that is no command** is written as that message, and is no command for
  the same reason.
* **A line outside the grammar** is written as it was received, without one CRLF at
  its end.  If that was one of two, the grammar may have failed on nothing but the
  second, and what is written back is then a line that can be read.  This is the only
  way in which a line changes its kind (`kind_ofLine_text_eq_iff`).
-/

namespace RelayChat

open Grammar

variable {line : String} {m : Message} {content : Content}

/-! ### Lines and their ends -/

namespace Grammar

/-- A line does not go on to a line feed before its end.  In its tags there can be one, after a
backslash. -/
theorem not_bodyText_feed (front : List Char) : ¬ BodyText (front ++ ['\n']) m := by
  generalize hcs : front ++ ['\n'] = cs
  intro h
  cases h with
  | @parts tagged sourced verb rest tags source params trailing labels sender word arguments =>
  cases arguments with
  | @parts middles ending _ _ before room after =>
  have hverb := Line.alphanum_of_isVerb word
  -- From the verb on there is no break, and the verb is not empty.
  have hbreak : IsUnbroken (verb ++ (middles ++ ending)) := by
    refine IsUnbroken.append (fun c hc => ?_)
      ((isUnbroken_of_middlesText before).append (isUnbroken_of_endingText after))
    have hc_word := hverb.2 c hc
    simp only [Line.isBreak, Bool.or_eq_false_iff, beq_eq_false_iff_ne]
    constructor <;> rintro rfl <;> exact absurd hc_word (by decide)
  have hne : verb ++ (middles ++ ending) ≠ [] := List.append_ne_nil_of_left_ne_nil hverb.1 _
  have hlast := congrArg List.getLast? hcs
  rw [List.getLast?_concat, List.append_assoc, List.getLast?_append_of_ne_nil _ hne] at hlast
  exact absurd (hbreak _ (List.mem_of_getLast? hlast.symm)) (by decide)

/-- With two ends a line is not in the grammar. -/
theorem not_lineText_twice (front : List Char) :
    ¬ LineText (front ++ ['\r', '\n'] ++ ['\r', '\n']) m := by
  rintro ⟨body, ending, happ, hbody, rfl | rfl⟩
  · have hfeed : body = (front ++ ['\r', '\n', '\r']) ++ ['\n'] := by simpa using happ.symm
    rw [hfeed] at hbody
    exact not_bodyText_feed _ hbody
  · have hfeed : body = (front ++ ['\r']) ++ ['\n'] := by
      simpa using (List.append_cancel_right happ).symm
    rw [hfeed] at hbody
    exact not_bodyText_feed _ hbody

end Grammar

namespace Received

/-! ### Commands -/

/-- No parameter of the line that is written back holds a NUL, as far as the line can have
parameters. -/
def Clean (r : Received) : Prop :=
  ∀ m ∈ r.toMessage?, ∀ param ∈ m.params.take Line.maxParams, '\x00' ∉ param.toList

instance (r : Received) : Decidable r.Clean :=
  inferInstanceAs (Decidable (∀ m ∈ r.toMessage?, _))

/-- **Two lines have the same sense**: they are commands of one kind with the same tags, source,
verb and fields, or messages that are no command for the same reason. -/
inductive SameSense : Received → Received → Prop
  | command {a b : Command} (tags : b.message.tags = a.message.tags)
      (source : b.message.source = a.message.source) (verb : b.message.verb = a.message.verb)
      (fields : b.content = a.content)
      (whole : a.content.IsWhole → b.message = a.message) :
      SameSense (.command a) (.command b)
  | invalid {lineA lineB : String} {m : Message} {e : CommandError} :
      SameSense (.invalid lineA (some m) (.command e)) (.invalid lineB (some m) (.command e))

theorem ofLine_of_parse (h : Message.parse line = .ok m) :
    ofLine line = ofMessage (String.ofList (withoutEnd line.toList)) m := by
  rw [ofLine, h]

theorem ofMessage_of_means (raw : String) (h : m.Means content) :
    ofMessage raw m = .command ⟨m, content⟩ := by
  rw [ofMessage, Command.ofMessage, Message.ofMessage_of_means h]

theorem ofMessage_of_error (raw : String) {e : CommandError}
    (h : Content.ofMessage m = .error e) :
    ofMessage raw m = .invalid raw (some m) (.command e) := by
  rw [ofMessage, Command.ofMessage, h]

theorem SameSense.kind_eq {a b : Received} (h : SameSense a b) : b.kind = a.kind := by
  cases h with
  | command tags source verb fields whole => exact congrArg Content.kind fields
  | invalid => rfl

/-- A command that is written back cleanly is read again. -/
theorem ofLine_text_command (h : Message.parse line = .ok m) (hmeans : m.Means content)
    (hclean : m.MovesCleanly content) :
    ∃ again, ofLine (Command.text ⟨m, content⟩) = .command ⟨again, content⟩ ∧
      again.envelope = m.envelope ∧ (content.IsWhole → again = m) := by
  obtain ⟨again, hparse, hagain⟩ :=
    Message.parse_text_toMessage (Message.wellFormed_of_parse h) hmeans hclean
  have hmeans' : again.Means content := by
    rcases hagain with rfl | rfl
    · exact Message.means_toMessage hmeans
    · exact hmeans
  refine ⟨again, ?_, ?_, fun hwhole => ?_⟩
  · rw [Command.text, ofLine_of_parse hparse, ofMessage_of_means _ hmeans']
  · rcases hagain with rfl | rfl
    · exact Command.envelope_toMessage ⟨m, content⟩
    · rfl
  · rcases hagain with rfl | rfl
    · exact Command.toMessage_of_isWhole m hwhole
    · rfl

/-- A message that is no command is none when it is written back. -/
theorem ofLine_text_invalid (h : Message.parse line = .ok m) {e : CommandError}
    (he : Content.ofMessage m = .error e) :
    ∃ raw, ofLine m.text = .invalid raw (some m) (.command e) := by
  have hparse := (Message.wellFormed_of_parse h).parse_text
  exact ⟨_, (ofLine_of_parse hparse).trans (ofMessage_of_error _ he)⟩

/-- A line of the grammar that is written back cleanly is read again in its sense, and then
written in the same way. -/
theorem sameSense_of_parse (h : Message.parse line = .ok m)
    (hclean : ∀ content, m.Means content → m.MovesCleanly content) :
    SameSense (ofLine line) (ofLine (ofLine line).text) ∧
      (ofLine (ofLine line).text).text = (ofLine line).text := by
  cases hcontent : Content.ofMessage m with
  | ok content =>
      have hmeans := Message.means_of_ofMessage hcontent
      have hline : ofLine line = .command ⟨m, content⟩ :=
        (ofLine_of_parse h).trans (ofMessage_of_means _ hmeans)
      have htext : (ofLine line).text = Command.text ⟨m, content⟩ := by rw [hline]; rfl
      obtain ⟨again, hagain, henvelope, hwhole⟩ :=
        ofLine_text_command h hmeans (hclean content hmeans)
      obtain ⟨htags, hsource, hverb⟩ := Message.envelope_eq_iff.mp henvelope
      rw [htext, hagain, hline]
      refine ⟨.command htags hsource hverb rfl hwhole, ?_⟩
      exact congrArg Message.text (Command.toMessage_congr henvelope hwhole)
  | error e =>
      have hline := (ofLine_of_parse h).trans (ofMessage_of_error _ hcontent)
      obtain ⟨raw, hagain⟩ := ofLine_text_invalid h hcontent
      rw [hline, text, hagain]
      exact ⟨.invalid, rfl⟩

/-- **The canonical form loses nothing.**  A line of the grammar without a NUL is written back as
a line of the same sense and of the same kind, which is written in the same way again. -/
theorem canonical_form_keeps_sense (line : String) (m : Message)
    (hnul : '\x00' ∉ line.toList) (h : Message.parse line = .ok m) :
    SameSense (ofLine line) (ofLine (ofLine line).text) ∧
      (ofLine (ofLine line).text).kind = (ofLine line).kind ∧
        (ofLine (ofLine line).text).text = (ofLine line).text := by
  have hform := Line.read_sound (Message.parse_eq_ok_iff_read.mp h)
  have hclean : ∀ content, m.Means content → m.MovesCleanly content :=
    fun _ _ s hs _ hmem => hnul (mem_of_lineText hform hs hmem)
  obtain ⟨hsense, htext⟩ := sameSense_of_parse h hclean
  exact ⟨hsense, hsense.kind_eq, htext⟩

/-- A MODE whose last argument leaves the trailing position. -/
theorem mode_keeps_sense :
    SameSense (ofLine "MODE #c +o :bob") (ofLine "MODE #c +o bob") ∧
      (ofLine "MODE #c +o bob").kind = .mode ∧
        (ofLine "MODE #c +o bob").text = "MODE #c +o bob" := by
  have hparse : Message.parse "MODE #c +o :bob" = .ok ⟨∅, none, "MODE", ["#c", "+o"], some "bob"⟩ :=
    by decide +kernel
  have hmeans : Message.Means ⟨∅, none, "MODE", ["#c", "+o"], some "bob"⟩
      (.mode ⟨.network, "c"⟩ ["+o", "bob"]) := .mode (by decide) rfl (by decide)
  have hread := (ofLine_of_parse hparse).trans (ofMessage_of_means _ hmeans)
  have hkind : (ofLine "MODE #c +o :bob").kind = .mode := by rw [hread]; rfl
  have htext : (ofLine "MODE #c +o :bob").text = "MODE #c +o bob" := by rw [hread]; decide
  obtain ⟨hsense, hkept, hagain⟩ := canonical_form_keeps_sense _ _ (by decide) hparse
  rw [htext] at hsense hkept hagain
  exact ⟨hsense, hkept.trans hkind, hagain⟩

/-! ### Every line -/

/-- Of several ends a line loses the last one. -/
theorem withoutEnd_append_end (front : String) :
    String.ofList (withoutEnd (front ++ "\r\n").toList) = front := by
  refine String.toList_inj.mp ?_
  simp [withoutEnd]

/-- A line loses the end that it has, or is kept whole. -/
theorem withoutEnd_cases (line : String) :
    (∃ front, line = front ++ "\r\n" ∧ String.ofList (withoutEnd line.toList) = front) ∨
      ((∀ front, line ≠ front ++ "\r\n") ∧ String.ofList (withoutEnd line.toList) = line) := by
  by_cases hend : ∃ front, line = front ++ "\r\n"
  · obtain ⟨front, rfl⟩ := hend
    exact .inl ⟨front, rfl, withoutEnd_append_end front⟩
  · refine .inr ⟨fun front hline => hend ⟨front, hline⟩, String.toList_inj.mp ?_⟩
    rw [String.toList_ofList]
    unfold withoutEnd
    split
    · next rest hrest =>
      refine absurd ⟨String.ofList rest.reverse, String.toList_inj.mp ?_⟩ hend
      rw [← List.reverse_reverse line.toList, hrest]
      simp
    · rfl

theorem parse_ne_ok_of_twice (body : String) (m : Message) :
    Message.parse (body ++ "\r\n\r\n") ≠ .ok m := by
  intro h
  have hform := Line.read_sound (Message.parse_eq_ok_iff_read.mp h)
  refine not_lineText_twice body.toList (m := m) ?_
  simpa using hform

/-- If a line is outside the grammar and in it without its end, then that was not its only end. -/
theorem exists_second_end {e : LineError} {front : String}
    (h : Message.parse (front ++ "\r\n") = .error e) (hfront : Message.parse front = .ok m) :
    ∃ body, front = body ++ "\r\n" := by
  obtain ⟨body, ending, hbody, hform, rfl | rfl⟩ :=
    Line.read_sound (Message.parse_eq_ok_iff_read.mp hfront)
  · -- Without an end of its own, `front` can take the one that was cut off.
    have hwhole : Message.parse (front ++ "\r\n") = .ok m := by
      refine Message.parse_eq_ok_iff_read.mpr (Line.read_complete ?_)
      exact ⟨body, ['\r', '\n'], by simp [hbody], hform, .inr rfl⟩
    rw [h] at hwhole
    exact absurd hwhole (by simp)
  · exact ⟨String.ofList body, String.toList_inj.mp (by simp [hbody])⟩

/-- A line outside the grammar is no command, and is written back without its end. -/
theorem kind_and_text_of_parse_error {e : LineError} (h : Message.parse line = .error e) :
    (ofLine line).kind = .invalid ∧
      (ofLine line).text = String.ofList (withoutEnd line.toList) := by
  rw [ofLine, h]
  exact ⟨rfl, rfl⟩

theorem append_two_ends (body : String) : body ++ "\r\n\r\n" = body ++ "\r\n" ++ "\r\n" := by
  rw [String.append_assoc]
  rfl

/-- A line with two ends is no command, and is written back with one of them. -/
theorem kind_and_text_of_two_ends (body : String) :
    (ofLine (body ++ "\r\n\r\n")).kind = .invalid ∧
      (ofLine (body ++ "\r\n\r\n")).text = body ++ "\r\n" := by
  cases hparse : Message.parse (body ++ "\r\n\r\n") with
  | ok m => exact absurd hparse (parse_ne_ok_of_twice body m)
  | error e =>
      obtain ⟨hkind, htext⟩ := kind_and_text_of_parse_error hparse
      refine ⟨hkind, htext.trans ?_⟩
      rw [append_two_ends]
      exact withoutEnd_append_end (body ++ "\r\n")

/-- **A line keeps its kind** when it is written back cleanly, unless it is a command with one end
too many.  Such a line is no command and is written back with one of its ends; so what is a
command stays one, and of the other lines only these can become one. -/
theorem kind_ofLine_text_eq_iff (line : String) (clean : (ofLine line).Clean) :
    ((ofLine (ofLine line).text).kind = (ofLine line).kind ↔
      ¬ ∃ body, line = body ++ "\r\n\r\n" ∧ (ofLine (body ++ "\r\n")).kind ≠ .invalid) ∧
    ∀ body, line = body ++ "\r\n\r\n" →
      (ofLine line).kind = .invalid ∧ (ofLine line).text = body ++ "\r\n" := by
  refine ⟨?_, fun body hline => hline ▸ kind_and_text_of_two_ends body⟩
  cases hparse : Message.parse line with
  | ok m =>
      have hclean : ∀ content, m.Means content → m.MovesCleanly content := by
        intro content hmeans s _ hs
        rw [ofLine_of_parse hparse, ofMessage_of_means _ hmeans] at clean
        exact clean _ rfl s hs
      refine iff_of_true (sameSense_of_parse hparse hclean).1.kind_eq ?_
      rintro ⟨body, rfl, -⟩
      exact parse_ne_ok_of_twice body m hparse
  | error e =>
      obtain ⟨hkind, htext⟩ := kind_and_text_of_parse_error hparse
      rw [hkind, htext]
      rcases withoutEnd_cases line with ⟨front, rfl, hwithout⟩ | ⟨hnone, hwithout⟩
      · rw [hwithout]
        constructor
        · rintro hinvalid ⟨body, hline, hvalid⟩
          rw [append_two_ends, String.append_left_inj] at hline
          exact hvalid (hline ▸ hinvalid)
        · intro hnone
          -- Were it a command now, the end that it lost would have been its second one.
          refine Decidable.byContradiction fun hvalid => hnone ?_
          cases hfront : Message.parse front with
          | ok m =>
              obtain ⟨body, rfl⟩ := exists_second_end hparse hfront
              exact ⟨body, (append_two_ends body).symm, hvalid⟩
          | error e => exact absurd (kind_and_text_of_parse_error hfront).1 hvalid
      · rw [hwithout]
        refine iff_of_true hkind ?_
        rintro ⟨body, hline, -⟩
        exact hnone (body ++ "\r\n") (hline.trans (append_two_ends body))

/-- A NICK leaves the trailing position and is a NICK again. -/
theorem nick_keeps_kind :
    (ofLine "NICK :a").Clean ∧ (ofLine "NICK :a").text = "NICK a" ∧
      (ofLine (ofLine "NICK :a").text).kind = .nick := by
  have hread : ofLine "NICK :a" = .command ⟨⟨∅, none, "NICK", [], some "a"⟩, .nick "a"⟩ := by
    decide +kernel
  have clean : (ofLine "NICK :a").Clean := by
    rw [hread]
    decide
  have hkind : (ofLine "NICK :a").kind = .nick := by rw [hread]; rfl
  have htext : (ofLine "NICK :a").text = "NICK a" := by rw [hread]; rfl
  obtain ⟨hiff, htwice⟩ := kind_ofLine_text_eq_iff "NICK :a" clean
  have hends : ¬ ∃ body, "NICK :a" = body ++ "\r\n\r\n" ∧
      (ofLine (body ++ "\r\n")).kind ≠ .invalid := by
    rintro ⟨body, hline, -⟩
    have hinvalid := (htwice body hline).1
    rw [hkind] at hinvalid
    cases hinvalid
  exact ⟨clean, htext, (hiff.mpr hends).trans hkind⟩

/-- A PING with two ends is no command, and is written back as one. -/
theorem ping_with_two_ends :
    ¬ ∀ line : String, (ofLine (ofLine line).text).kind = (ofLine line).kind := by
  intro h
  exact absurd (h "PING :a\r\n\r\n") (by decide +kernel)

end Received

end RelayChat
