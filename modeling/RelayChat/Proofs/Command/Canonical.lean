import RelayChat.Command.Received
import RelayChat.Proofs.Command.Content

/-!
# The canonical form of a command means the same

A command is rebuilt from its fields, and three things can happen to a text on the
way: it stays where it was, it moves into the trailing parameter, or it moves out of
it.  The last is the delicate one.  A channel can always move out; the name of a
NICK and the last argument of a MODE move out when nothing about them asks for the
trailing parameter, and then they must not hold a NUL, which only the trailing
parameter may.

A MODE of fourteen parameters and a trailing one is written with fifteen parameters.
That is no well-formed message, and it is read back as the message that the command
came from, since the rest of a line after fourteen parameters is the trailing one
(`parse_text_of_overfull`).

So the message that is read back is not always the canonical one, and not always the
original one.  It is one of the two (`parse_text_toMessage`), and either means what
the command means.
-/

namespace RelayChat

open Grammar

namespace Message

variable {m : Message} {content : Content} {s : String}

/-! ### Texts and their positions -/

theorem isMiddle_of_param? {index : Nat} (h : m.WellFormed) (hs : m.param? index = some s) :
    IsMiddle s.toList :=
  h.params s (List.mem_of_getElem? hs)

/-- A text of a well-formed message is without line breaks, in whichever position it is. -/
theorem isUnbroken_of_textIs {index : Nat} (h : m.WellFormed) (hs : m.TextIs index s) :
    IsUnbroken s.toList := by
  rcases hs with hs | ⟨-, hs⟩
  · exact isUnbroken_of_isMiddle (isMiddle_of_param? h hs)
  · exact h.trailing s hs

/-- What was a parameter can be one again. -/
theorem needsTrailing_of_isMiddle (h : IsMiddle s.toList) : needsTrailing s = false := by
  obtain ⟨hne, hcolon, hclass⟩ := h
  have hspace : ' ' ∉ s.toList := fun hmem => absurd (hclass ' ' hmem) (by decide)
  simp [needsTrailing, hne, hcolon, hspace]

/-- What does not need the trailing parameter may leave it, unless it holds a NUL. -/
theorem isMiddle_of_needsTrailing (h : needsTrailing s = false) (hbreak : IsUnbroken s.toList)
    (hnul : '\x00' ∉ s.toList) : IsMiddle s.toList := by
  simp only [needsTrailing, Bool.or_eq_false_iff, beq_eq_false_iff_ne] at h
  obtain ⟨⟨hne, hcolon⟩, hspace⟩ := h
  refine ⟨hne, hcolon, fun c hc => ?_⟩
  have hc_space : c ≠ ' ' := by
    rintro rfl
    simp [hc] at hspace
  have hc_nul : c ≠ '\x00' := by
    rintro rfl
    exact hnul hc
  have hc_break := hbreak c hc
  simp only [Line.isBreak, Bool.or_eq_false_iff] at hc_break
  simp [Line.isParamChar, hc_space, hc_nul, hc_break]

/-! ### Building -/

/-- **What `withTexts` builds**: all texts are parameters, or all but a last one that only the
trailing parameter can hold. -/
theorem withTexts_spec (h : m.trailing = none) (texts : List String) :
    ∃ more last?, m.withTexts texts = { m with params := m.params ++ more, trailing := last? } ∧
      texts = more ++ last?.toList ∧ (∀ s ∈ last?, needsTrailing s = true) ∧
      (last? = none → ∀ s ∈ more.getLast?, needsTrailing s = false) := by
  fun_induction withTexts m texts with
  | case1 m => exact ⟨[], none, by simp [← h], rfl, by simp, by simp⟩
  | case2 m last =>
      unfold withText
      split
      · next hneeds =>
        exact ⟨[], some last, by simp [withTrailing], rfl, by simpa using hneeds, by simp⟩
      · next hneeds =>
        exact ⟨[last], none, by simp [withParam, h], rfl, by simp, by simpa using hneeds⟩
  | case3 m text rest hrest ih =>
      obtain ⟨more, last?, hbuilt, htexts, hneeds, hnone⟩ := ih h
      refine ⟨text :: more, last?, ?_, by rw [htexts]; rfl, hneeds, fun hlast s hs => ?_⟩
      · rw [hbuilt]
        simp [withParam]
      · -- With texts left, the last one is not the one added here.
        have hmore : more ≠ [] := by
          rintro rfl
          subst hlast
          exact hrest (by simpa using htexts)
        rw [List.getLast?_cons_of_ne_nil hmore] at hs
        exact hnone hlast s hs

theorem envelope_eq_iff {a b : Message} :
    a.envelope = b.envelope ↔ a.tags = b.tags ∧ a.source = b.source ∧ a.verb = b.verb := by
  simp [envelope]

/-- To set the trailing parameter, or none, is to set that field. -/
theorem withTrailing?_eq (h : m.trailing = none) (trailing : Option String) :
    m.withTrailing? trailing = { m with trailing := trailing } := by
  cases trailing with
  | none => rw [withTrailing?, ← h]
  | some text => rfl

/-- An action is wrapped again, so that the body is written as it was. -/
theorem toMessage_ofBody (m : Message) (target : Target) (body : String) :
    Command.toMessage ⟨m, .ofBody target body⟩ =
      (m.envelope.withParam target.text).withTrailing body := by
  unfold Content.ofBody
  split
  · next text hbody =>
    simp only [Command.toMessage]
    rw [if_pos trivial, Action.wrapText_of_unwrapText? hbody]
  · rfl

/-- Channels that were read from a list with commas are written as that list. -/
theorem ofCommaList_channels {places : String} {channels : List Channel}
    (h : List.Forall₂ (fun place c => Channel.ofChars? place.toList = some c)
      (commaList places) channels) : ofCommaList (channels.map Channel.text) = places :=
  ofCommaList_of_forall₂ Channel.text_of_ofChars? h

/-- Users that were read from a list with commas are written as that list. -/
theorem ofCommaList_users {names : String} {users : List User}
    (h : List.Forall₂ (fun name u => User.ofChars? name.toList = some u)
      (commaList names) users) : ofCommaList (users.map User.text) = names :=
  ofCommaList_of_forall₂ User.text_of_ofChars? h

/-- **The canonical message means what the command means**, whatever message the command came
from. -/
theorem means_toMessage (h : m.Means content) : (Command.toMessage ⟨m, content⟩).Means content := by
  cases h with
  | @privmsg target body verb first second =>
      rw [toMessage_ofBody, Target.text_ofText]
      exact .privmsg verb rfl (.inr ⟨rfl, rfl⟩)
  | @notice target text verb first second =>
      simp only [Command.toMessage, Target.text_ofText]
      exact .notice verb rfl (.inr ⟨rfl, rfl⟩)
  | whisper verb first named second =>
      simp only [Command.toMessage, User.text_of_ofChars? named]
      exact .whisper verb rfl named (.inr ⟨rfl, rfl⟩)
  | squery verb first named second =>
      simp only [Command.toMessage, User.text_of_ofChars? named]
      exact .squery verb rfl named (.inr ⟨rfl, rfl⟩)
  | join verb first named =>
      simp only [Command.toMessage, Channel.text_of_ofChars? named]
      exact .join verb (.inl rfl) named
  | part verb first named =>
      simp only [Command.toMessage, Channel.text_of_ofChars? named]
      exact .part verb (.inl rfl) named
  | @mode name channel verb first named =>
      obtain ⟨more, last?, hbuilt, htexts, -, -⟩ :=
        withTexts_spec (m := m.envelope.withParam name) rfl (m.params.drop 1 ++ m.trailing.toList)
      simp only [Command.toMessage, Channel.text_of_ofChars? named]
      rw [hbuilt, htexts]
      exact .mode verb rfl named
  | @topic name channel verb first named =>
      simp only [Command.toMessage, Channel.text_of_ofChars? named]
      rw [withTrailing?_eq rfl]
      exact .topic verb rfl named
  | @nick nickname verb first =>
      simp only [Command.toMessage]
      unfold withText
      split
      · exact .nick verb (.inr ⟨rfl, rfl⟩)
      · exact .nick verb (.inl rfl)
  | invite verb first named second located =>
      simp only [Command.toMessage, User.text_of_ofChars? named, Channel.text_of_ofChars? located]
      exact .invite verb rfl named rfl located
  | kick verb first located second named =>
      simp only [Command.toMessage, ofCommaList_channels located, ofCommaList_users named]
      rw [withTrailing?_eq rfl]
      exact .kick verb rfl located rfl named
  | ping verb last => exact .ping verb rfl
  | pong verb last => exact .pong verb rfl
  | error verb last => exact .error verb rfl
  | quit verb last => exact .quit verb rfl
  | numeric verb => exact .numeric verb
  | other verb => exact .other verb

/-! ### Reading the canonical message -/

/-- A message of fourteen parameters, written with its trailing parameter as a fifteenth. -/
def Overfull (m w : Message) : Prop :=
  ∃ s, m.params.length = 14 ∧ m.trailing = some s ∧ needsTrailing s = false ∧
    w = { m with params := m.params ++ [s], trailing := none }

/-- The fifteenth parameter of a line is read as the trailing one. -/
theorem parse_text_of_overfull {w : Message} (h : m.WellFormed) (hfull : Overfull m w) :
    parse w.text = .ok m := by
  obtain ⟨s, hlen, htrailing, hneeds, rfl⟩ := hfull
  simp only [needsTrailing, Bool.or_eq_false_iff, beq_eq_false_iff_ne] at hneeds
  obtain ⟨⟨hne, hcolon⟩, hspace⟩ := hneeds
  have hhead : s.toList.head? ≠ some ' ' := fun hhead => by
    simp [List.mem_of_mem_head? hhead] at hspace
  have hending : EndingText (m.params.length = 14) ([' '] ++ s.toList)
      (some (String.ofList s.toList)) :=
    .unmarked hlen isSpaces_space hne hhead hcolon (h.trailing s htrailing)
  rw [String.ofList_toList, ← htrailing] at hending
  have hbody := h.toHeadFormed.bodyText (.parts (middlesText_flatMap h.params) h.room hending)
  rw [parse_eq_ok_iff_read, text, String.toList_ofList]
  refine Line.read_complete ⟨_, [], ?_, hbody, .inl rfl⟩
  simp [chars, trailingChars, List.flatMap_append]

/-- What the canonical message of a MODE is. -/
theorem withTexts_of_mode {name : String} (h : m.WellFormed) (hname : m.param? 0 = some name) :
    (m.envelope.withParam name).withTexts (m.params.drop 1 ++ m.trailing.toList) = m ∨
      ∃ s, m.trailing = some s ∧ needsTrailing s = false ∧
        (m.envelope.withParam name).withTexts (m.params.drop 1 ++ m.trailing.toList) =
          { m with params := m.params ++ [s], trailing := none } := by
  obtain ⟨more, last?, hbuilt, htexts, hneeds, hnone⟩ :=
    withTexts_spec (m := m.envelope.withParam name) rfl (m.params.drop 1 ++ m.trailing.toList)
  obtain ⟨rest, hrest⟩ : ∃ rest, m.params = name :: rest := by
    rcases hparams : m.params with - | ⟨first, rest⟩
    · simp [param?, hparams] at hname
    · obtain rfl : first = name := by simpa [param?, hparams] using hname
      exact ⟨rest, rfl⟩
  rw [hbuilt]
  rw [hrest, List.drop_one, List.tail_cons] at htexts
  obtain ⟨tags, source, verb, params, trailing⟩ := m
  obtain rfl : params = name :: rest := hrest
  rcases last? with - | s
  · rcases trailing with - | t
    · obtain rfl : more = rest := by simpa using htexts.symm
      exact .inl rfl
    · obtain rfl : more = rest ++ [t] := by simpa using htexts.symm
      exact .inr ⟨t, rfl, hnone rfl t (by simp), rfl⟩
  · have hs := hneeds s rfl
    rcases trailing with - | t
    · -- A parameter that there was does not need the trailing position.
      have hrest : rest = more ++ [s] := by simpa using htexts
      have hmem : s ∈ name :: rest := by simp [hrest]
      rw [needsTrailing_of_isMiddle (h.params s hmem)] at hs
      exact absurd hs (by simp)
    · obtain ⟨rfl, rfl⟩ : rest = more ∧ t = s := by
        simpa using List.append_inj' htexts rfl
      exact .inl rfl

/-- A message can be written with one parameter of its own. -/
theorem wellFormed_single (h : m.WellFormed) {param : String} (hparam : IsMiddle param.toList) :
    (m.envelope.withParam param).WellFormed :=
  h.envelope.withParam (Nat.zero_lt_succ 13) hparam

/-- A message can be written with its first two parameters alone. -/
theorem wellFormed_pair (h : m.WellFormed) {a b : String} (ha : m.param? 0 = some a)
    (hb : m.param? 1 = some b) : ((m.envelope.withParam a).withParam b).WellFormed := by
  have hsingle := wellFormed_single h (isMiddle_of_param? h ha)
  exact hsingle.withParam (Nat.succ_lt_succ (Nat.zero_lt_succ 12)) (isMiddle_of_param? h hb)

/-- A message can be written with its first parameter and one of its texts. -/
theorem wellFormed_addressed (h : m.WellFormed) {target text : String}
    (hfirst : m.param? 0 = some target) (hsecond : m.TextIs 1 text) :
    ((m.envelope.withParam target).withTrailing text).WellFormed := by
  have hsingle := wellFormed_single h (isMiddle_of_param? h hfirst)
  exact hsingle.withTrailing (isUnbroken_of_textIs h hsecond)

/-- A message can be written with its trailing parameter alone. -/
theorem wellFormed_trailing (h : m.WellFormed) {text : String} (htext : m.trailing = some text) :
    (m.envelope.withTrailing text).WellFormed :=
  h.envelope.withTrailing (h.trailing text htext)

/-- Writing `content` moves no text with a NUL out of the trailing position, as far as a line can
have parameters. -/
def MovesCleanly (m : Message) (content : Content) : Prop :=
  ∀ s ∈ m.trailing, s ∈ (Command.toMessage ⟨m, content⟩).params.take Line.maxParams →
    '\x00' ∉ s.toList

/-- The canonical message is well formed, unless it has fifteen parameters. -/
theorem wellFormed_toMessage (h : m.WellFormed) (hmeans : m.Means content)
    (hclean : m.MovesCleanly content) :
    (Command.toMessage ⟨m, content⟩).WellFormed ∨
      Overfull m (Command.toMessage ⟨m, content⟩) := by
  cases hmeans with
  | privmsg verb first second =>
      rw [toMessage_ofBody, Target.text_ofText]
      exact .inl (wellFormed_addressed h first second)
  | notice verb first second =>
      simp only [Command.toMessage, Target.text_ofText]
      exact .inl (wellFormed_addressed h first second)
  | whisper verb first named second =>
      simp only [Command.toMessage, User.text_of_ofChars? named]
      exact .inl (wellFormed_addressed h first second)
  | squery verb first named second =>
      simp only [Command.toMessage, User.text_of_ofChars? named]
      exact .inl (wellFormed_addressed h first second)
  | join verb first named =>
      simp only [Command.toMessage, Channel.text_of_ofChars? named]
      exact .inl (wellFormed_single h (Channel.isMiddle_of_ofChars? named))
  | part verb first named =>
      simp only [Command.toMessage, Channel.text_of_ofChars? named]
      exact .inl (wellFormed_single h (Channel.isMiddle_of_ofChars? named))
  | mode verb first named =>
      unfold MovesCleanly at hclean
      simp only [Command.toMessage, Channel.text_of_ofChars? named] at hclean ⊢
      rcases withTexts_of_mode h first with hw | ⟨s, htrailing, hneeds, hw⟩
      · rw [hw]
        exact .inl h
      · rw [hw] at hclean ⊢
        -- The argument that moved is a fifteenth parameter only if there were fourteen.
        rcases Nat.lt_or_eq_of_le h.room with hroom | hlen
        · have hnul : '\x00' ∉ s.toList := by
            refine hclean s htrailing ?_
            have hlen : (m.params ++ [s]).length ≤ Line.maxParams := by
              rw [List.length_append]
              exact hroom
            rw [List.take_of_length_le hlen]
            exact List.mem_concat_self
          have hmiddle := isMiddle_of_needsTrailing hneeds (h.trailing s htrailing) hnul
          have hcut : WellFormed { m with trailing := none } := h.setTrailing (by simp)
          exact .inl (hcut.withParam hroom hmiddle)
        · exact .inr ⟨s, hlen, htrailing, hneeds, rfl⟩
  | topic verb first named =>
      simp only [Command.toMessage, Channel.text_of_ofChars? named]
      rw [withTrailing?_eq rfl]
      exact .inl ((wellFormed_single h (isMiddle_of_param? h first)).setTrailing h.trailing)
  | nick verb first =>
      unfold MovesCleanly at hclean
      simp only [Command.toMessage] at hclean ⊢
      unfold withText at hclean ⊢
      split at hclean
      · next hneeds =>
        rw [if_pos hneeds]
        exact .inl (h.envelope.withTrailing (isUnbroken_of_textIs h first))
      · next hneeds =>
        rw [if_neg hneeds]
        refine .inl (wellFormed_single h ?_)
        rcases first with hparam | ⟨-, htrailing⟩
        · exact isMiddle_of_param? h hparam
        · exact isMiddle_of_needsTrailing (by simpa using hneeds) (h.trailing _ htrailing)
            (hclean _ htrailing List.mem_cons_self)
  | invite verb first named second located =>
      simp only [Command.toMessage, User.text_of_ofChars? named, Channel.text_of_ofChars? located]
      exact .inl (wellFormed_pair h first second)
  | kick verb first located second named =>
      simp only [Command.toMessage, ofCommaList_channels located, ofCommaList_users named]
      rw [withTrailing?_eq rfl]
      exact .inl ((wellFormed_pair h first second).setTrailing h.trailing)
  | ping verb last => exact .inl (wellFormed_trailing h last)
  | pong verb last => exact .inl (wellFormed_trailing h last)
  | error verb last => exact .inl (wellFormed_trailing h last)
  | quit verb last => exact .inl (wellFormed_trailing h last)
  | numeric verb => exact .inl h
  | other verb => exact .inl h

/-- **The canonical message is read** as itself, or as the message that the command came from. -/
theorem parse_text_toMessage (h : m.WellFormed) (hmeans : m.Means content)
    (hclean : m.MovesCleanly content) :
    ∃ again, parse (Command.toMessage ⟨m, content⟩).text = .ok again ∧
      (again = Command.toMessage ⟨m, content⟩ ∨ again = m) := by
  rcases wellFormed_toMessage h hmeans hclean with hformed | hfull
  · exact ⟨_, hformed.parse_text, .inl rfl⟩
  · exact ⟨m, parse_text_of_overfull h hfull, .inr rfl⟩

end Message

/-- The contents that are a whole message, and have no fields to rebuild it from. -/
def Content.IsWhole (content : Content) : Prop :=
  content.kind = .numeric ∨ content.kind = .other

namespace Command

/-- Writing a command changes neither tags nor source nor verb. -/
theorem envelope_toMessage (c : Command) : c.toMessage.envelope = c.message.envelope := by
  obtain ⟨m, content⟩ := c
  cases content with
  | mode channel modes =>
      obtain ⟨more, last?, hbuilt, -⟩ :=
        Message.withTexts_spec (m := m.envelope.withParam channel.text) rfl modes
      simp only [toMessage]
      rw [hbuilt]
      rfl
  | topic channel topic =>
      simp only [toMessage]
      rw [Message.withTrailing?_eq rfl]
      rfl
  | nick nickname =>
      simp only [toMessage, Message.withText]
      split <;> rfl
  | kick channels users comment =>
      simp only [toMessage]
      rw [Message.withTrailing?_eq rfl]
      rfl
  | _ => rfl

/-- A command that is its whole message is written as that message. -/
theorem toMessage_of_isWhole (m : Message) {content : Content} (h : content.IsWhole) :
    toMessage ⟨m, content⟩ = m := by
  cases content with
  | numeric code => rfl
  | other => rfl
  | _ => simp [Content.IsWhole, Content.kind] at h

/-- A canonical message is built from the fields and the envelope alone, or it is the message. -/
theorem toMessage_congr {a b : Message} {content : Content} (h : a.envelope = b.envelope)
    (hwhole : content.IsWhole → a = b) :
    toMessage ⟨a, content⟩ = toMessage ⟨b, content⟩ := by
  cases content with
  | numeric code => exact hwhole (.inl rfl)
  | other => exact hwhole (.inr rfl)
  | _ => simp only [toMessage, h]

end Command

end RelayChat
