import RelayChat.Proofs.Command.Received
import RelayChat.Proofs.Sending

/-!
# What is sent of a received command

A command is written with the texts of the message that it came from and with none else
(`texts_toMessage_subset`), whatever field they went through, and no line break is in
them, nor in the source, the verb or the keys of the tags (`Message.Unbroken`).  The values
of the tags are another matter.  They are written as they were received, and there a
backslash pairs with any character after it, also with a line feed.  So the line feeds of
a command are those in the values of its tags (`count_chars`), and what is sent of it is
one line exactly if there are none.
-/

namespace RelayChat

open Grammar

namespace Grammar

variable {cs : List Char} {key : TagKey}

/-- No character of a key is a line break. -/
theorem isUnbroken_of_keyText (h : KeyText cs key) : IsUnbroken cs := by
  cases h with
  | @parts plus slashed name clientOnly vendor sign owner valid =>
      have hplus : IsUnbroken plus := by cases sign <;> decide
      have hslashed : IsUnbroken slashed := by
        cases owner with
        | absent => decide
        | present host =>
            have hhost := isUnbroken_iff_not_mem.mpr
              ⟨Host.not_mem_of_isHost (.inl host) (by decide) (by decide),
                Host.not_mem_of_isHost (.inl host) (by decide) (by decide)⟩
            exact hhost.append (by decide)
      have hname : IsUnbroken name := isUnbroken_of_class (by decide) (by decide) valid.2
      exact (hplus.append hslashed).append hname

/-- No character of a source is a line break. -/
theorem isUnbroken_of_sourceText {source : Source} (h : SourceText cs source) : IsUnbroken cs :=
  isUnbroken_iff_not_mem.mpr
    ⟨Source.not_mem_of_sourceText h (by decide) (by decide) (by decide) (by decide) (by decide),
      Source.not_mem_of_sourceText h (by decide) (by decide) (by decide) (by decide) (by decide)⟩

end Grammar

/-- The characters of the values, as they are written. -/
def Tags.valueChars (t : Tags) : List Char :=
  t.entries.flatMap fun tag => (tag.2.map String.toList).getD []

theorem Tags.mem_valueChars {t : Tags} {c : Char} :
    c ∈ t.valueChars ↔ ∃ tag ∈ t.entries, ∃ value ∈ tag.2, c ∈ value.toList := by
  rw [valueChars, List.mem_flatMap]
  refine exists_congr fun tag => and_congr_right fun _ => ?_
  obtain ⟨key, value⟩ := tag
  cases value <;> simp

namespace Message

variable {m : Message} {content : Content}

/-! ### The texts of a message -/

/-- The parameters, the trailing one included. -/
def texts (m : Message) : List String :=
  m.params ++ m.trailing.toList

/-- **A message without line breaks**, the values of its tags aside. -/
structure Unbroken (m : Message) : Prop where
  /-- There is none in the keys of its tags, -/
  keys : ∀ tag ∈ m.tags.entries, IsUnbroken tag.1.text.toList
  /-- none in its source, -/
  source : ∀ source ∈ m.source, IsUnbroken source.text.toList
  /-- none in its verb, -/
  verb : IsUnbroken m.verb.toList
  /-- and none in its parameters, the trailing one included. -/
  texts : ∀ s ∈ m.texts, IsUnbroken s.toList

/-- What can be written of tags, source and verb has no line break. -/
theorem HeadFormed.unbroken (h : m.HeadFormed) (htexts : ∀ s ∈ m.texts, IsUnbroken s.toList) :
    m.Unbroken where
  keys tag htag := isUnbroken_of_keyText (TagKey.parse_eq_ok_iff.mp (h.keys tag htag))
  source source hsource :=
    isUnbroken_of_sourceText (Source.parse_eq_ok_iff.mp (h.source source hsource))
  verb := isUnbroken_of_class (by decide) (by decide) (Line.alphanum_of_isVerb h.verb).2
  texts := htexts

/-- A well-formed message has no line break outside the values of its tags. -/
theorem WellFormed.unbroken (h : m.WellFormed) : m.Unbroken := by
  refine h.toHeadFormed.unbroken (List.forall_mem_append.mpr ⟨fun param hparam => ?_, ?_⟩)
  · exact isUnbroken_of_isMiddle (h.params param hparam)
  · exact fun text htext => h.trailing text (Option.mem_toList.mp htext)

theorem mem_texts_of_param? {index : Nat} {s : String} (h : m.param? index = some s) :
    s ∈ m.texts :=
  List.mem_append_left _ (List.mem_of_getElem? h)

theorem mem_texts_of_trailing {s : String} (h : m.trailing = some s) : s ∈ m.texts := by
  rw [texts, h]
  exact List.mem_append_right _ (List.mem_singleton_self s)

/-- A text is among them in whichever position it is. -/
theorem mem_texts_of_textIs {index : Nat} {s : String} (h : m.TextIs index s) : s ∈ m.texts :=
  h.elim mem_texts_of_param? fun h => mem_texts_of_trailing h.2

/-- **A command is written with the texts of its message**, and with none else. -/
theorem texts_toMessage_subset (h : m.Means content) :
    (Command.toMessage ⟨m, content⟩).texts ⊆ m.texts := by
  have hsingle : ∀ {s : String}, s ∈ m.texts → [s] ⊆ m.texts := fun hs =>
    List.cons_subset.mpr ⟨hs, List.nil_subset _⟩
  have hpair : ∀ {a b : String}, a ∈ m.texts → b ∈ m.texts → [a, b] ⊆ m.texts := fun ha hb =>
    List.cons_subset.mpr ⟨ha, hsingle hb⟩
  have htrailing : m.trailing.toList ⊆ m.texts := List.subset_append_right _ _
  cases h with
  | privmsg verb first second =>
      rw [toMessage_ofBody, Target.text_ofText]
      exact hpair (mem_texts_of_param? first) (mem_texts_of_textIs second)
  | notice verb first second =>
      simp only [Command.toMessage, Target.text_ofText]
      exact hpair (mem_texts_of_param? first) (mem_texts_of_textIs second)
  | whisper verb first named second | squery verb first named second =>
      simp only [Command.toMessage, User.text_of_ofChars? named]
      exact hpair (mem_texts_of_param? first) (mem_texts_of_textIs second)
  | join verb first named | part verb first named =>
      simp only [Command.toMessage, Channel.text_of_ofChars? named]
      exact hsingle (mem_texts_of_textIs first)
  | @mode name channel verb first named =>
      obtain ⟨more, last?, hbuilt, htexts, -, -⟩ :=
        withTexts_spec (m := m.envelope.withParam name) rfl (m.params.drop 1 ++ m.trailing.toList)
      simp only [Command.toMessage, Channel.text_of_ofChars? named]
      rw [hbuilt, texts]
      change ([name] ++ more) ++ last?.toList ⊆ m.texts
      rw [List.append_assoc, ← htexts]
      refine List.append_subset.mpr ⟨hsingle (mem_texts_of_param? first), ?_⟩
      refine List.append_subset.mpr ⟨?_, htrailing⟩
      exact List.Subset.trans (List.drop_subset _ _) (List.subset_append_left _ _)
  | topic verb first named =>
      simp only [Command.toMessage, Channel.text_of_ofChars? named]
      rw [withTrailing?_eq rfl]
      exact List.cons_subset.mpr ⟨mem_texts_of_param? first, htrailing⟩
  | nick verb first =>
      simp only [Command.toMessage]
      unfold withText
      split <;> exact hsingle (mem_texts_of_textIs first)
  | invite verb first named second located =>
      simp only [Command.toMessage, User.text_of_ofChars? named, Channel.text_of_ofChars? located]
      exact hpair (mem_texts_of_param? first) (mem_texts_of_param? second)
  | kick verb first located second named =>
      simp only [Command.toMessage, ofCommaList_channels located, ofCommaList_users named]
      rw [withTrailing?_eq rfl]
      exact List.cons_subset.mpr ⟨mem_texts_of_param? first,
        List.cons_subset.mpr ⟨mem_texts_of_param? second, htrailing⟩⟩
  | ping verb last | pong verb last | error verb last | quit verb last =>
      exact hsingle (mem_texts_of_trailing last)
  | numeric verb | other verb => exact List.Subset.refl _

/-! ### The line feeds of a message -/

/-- The line feeds of a tag are those of its value. -/
theorem count_tagChars {tag : Tag} (hkey : IsUnbroken tag.1.text.toList) :
    (tagChars tag).count '\n' = ((tag.2.map String.toList).getD []).count '\n' := by
  rw [TagKey.text, String.toList_ofList] at hkey
  rw [tagChars, List.count_append, List.count_eq_zero_of_not_mem (isUnbroken_iff_not_mem.mp hkey).2]
  obtain ⟨key, value⟩ := tag
  cases value with
  | none => rfl
  | some value => simp

/-- Separators of another character do not count. -/
theorem count_intercalate {c sep : Char} (hne : sep ≠ c) (pieces : List (List Char)) :
    ([sep].intercalate pieces).count c = pieces.flatten.count c := by
  induction pieces with
  | nil => rfl
  | cons piece rest ih =>
      cases rest with
      | nil => simp
      | cons next rest =>
          rw [List.intercalate_cons_cons, List.count_append, List.count_append, ih,
            List.count_eq_zero_of_not_mem (l := [sep]) (by simpa using hne.symm), Nat.add_zero,
            ← List.count_append]
          rfl

/-- Of the tags only the values can hold line feeds. -/
theorem count_tagsChars (hkeys : ∀ tag ∈ m.tags.entries, IsUnbroken tag.1.text.toList) :
    (tagsChars m.tags).count '\n' = m.tags.valueChars.count '\n' := by
  have hvalues : (m.tags.entries.map tagChars).flatten.count '\n' =
      m.tags.valueChars.count '\n' := by
    rw [← List.flatMap_def, Tags.valueChars, List.count_flatMap, List.count_flatMap]
    refine congrArg _ (List.map_congr_left fun tag htag => ?_)
    exact count_tagChars (hkeys tag htag)
  unfold tagsChars
  split
  · next hnone => rw [← hvalues, hnone]; rfl
  · rw [List.count_append, List.count_cons_of_ne (by decide), count_intercalate (by decide),
      hvalues]
    rfl

/-- In what is written of the source there is no line break. -/
theorem Unbroken.sourceChars (h : m.Unbroken) : IsUnbroken (sourceChars m.source) := by
  cases hsource : m.source with
  | none => exact fun _ hc => absurd hc List.not_mem_nil
  | some source =>
      have htext := h.source source hsource
      rw [Source.text, String.toList_ofList] at htext
      have hsign : IsUnbroken (':' :: source.chars) := List.forall_mem_cons.mpr ⟨by decide, htext⟩
      exact hsign.append (by decide)

/-- In what is written after the source there is no line break. -/
theorem Unbroken.arguments (h : m.Unbroken) :
    IsUnbroken
      (m.verb.toList ++ m.params.flatMap (' ' :: ·.toList) ++ trailingChars m.trailing) := by
  obtain ⟨hparams, htrailing⟩ := List.forall_mem_append.mp h.texts
  refine (h.verb.append ?_).append ?_
  · intro c hc
    obtain ⟨param, hparam, hc⟩ := List.mem_flatMap.mp hc
    rcases List.mem_cons.mp hc with rfl | hc
    · rfl
    · exact hparams param hparam c hc
  · cases htext : m.trailing with
    | none => exact fun c hc => absurd hc List.not_mem_nil
    | some text =>
        rw [htext] at htrailing
        have hmarked : IsUnbroken [' ', ':'] := by decide
        exact hmarked.append (htrailing text (List.mem_singleton_self _))

/-- **The line feeds of a message are those in the values of its tags**, if there is none
elsewhere. -/
theorem Unbroken.count_chars (h : m.Unbroken) :
    m.chars.count '\n' = m.tags.valueChars.count '\n' := by
  have hchars : m.chars = tagsChars m.tags ++ (Message.sourceChars m.source ++
      (m.verb.toList ++ m.params.flatMap (' ' :: ·.toList) ++ trailingChars m.trailing)) := by
    simp only [chars, List.append_assoc]
  have hafter := isUnbroken_iff_not_mem.mp (h.sourceChars.append h.arguments)
  rw [hchars, List.count_append, count_tagsChars h.keys, List.count_eq_zero_of_not_mem hafter.2]
  rfl

/-- A message with a verb does not end in a line break. -/
theorem Unbroken.trimEnd_chars (h : m.Unbroken) (hverb : m.verb.toList ≠ []) :
    Text.trimEnd Line.isBreak m.chars = m.chars := by
  have hchars : m.chars = (tagsChars m.tags ++ Message.sourceChars m.source) ++
      (m.verb.toList ++ m.params.flatMap (' ' :: ·.toList) ++ trailingChars m.trailing) := by
    simp only [chars, List.append_assoc]
  rw [hchars]
  exact Framer.trimEnd_eq_self _ (by simp [hverb]) h.arguments

end Message

/-! ### Received commands -/

namespace Received

variable {line : String} {c : Command}

/-- A command is what the message of its line means. -/
theorem means_of_ofLine (h : ofLine line = .command c) :
    Message.parse line = .ok c.message ∧ c.message.Means c.content := by
  cases hparse : Message.parse line with
  | error e =>
      rw [ofLine, hparse] at h
      cases h
  | ok m =>
      rw [ofLine_of_parse hparse] at h
      cases hcontent : Content.ofMessage m with
      | error e =>
          rw [ofMessage_of_error _ hcontent] at h
          cases h
      | ok content =>
          have hmeans := Message.means_of_ofMessage hcontent
          rw [ofMessage_of_means _ hmeans] at h
          cases h
          exact ⟨rfl, hmeans⟩

/-- Neither the message that a command was received as nor the one that it is written as has line
breaks outside the values of its tags. -/
theorem unbroken_of_ofLine (h : ofLine line = .command c) :
    c.message.Unbroken ∧ c.toMessage.Unbroken := by
  obtain ⟨hparse, hmeans⟩ := means_of_ofLine h
  have hreceived := (Message.wellFormed_of_parse hparse).unbroken
  obtain ⟨htags, hsource, hverb⟩ := Message.envelope_eq_iff.mp c.envelope_toMessage
  refine ⟨hreceived, ⟨?_, ?_, ?_, fun s hs => ?_⟩⟩
  · rw [htags]
    exact hreceived.keys
  · rw [hsource]
    exact hreceived.source
  · rw [hverb]
    exact hreceived.verb
  · exact hreceived.texts s (Message.texts_toMessage_subset hmeans hs)

/-- **A received command is sent as one line, but for the line feeds in its tags.**  What is sent
of it ends with a line feed, and is one line more than there are line feeds in the values of
its tags.  So it is one line exactly if there are none, and then reading it gives the text that
was written, whatever comes after it.  No other text of it holds a line break, in the message
that was received and in the one that is written. -/
theorem command_sent_as_one_line_iff (line : String) (c : Command) (h : ofLine line = .command c) :
    let sent := Framer.encode c.text.toList
    Framer.unfinished sent = [] ∧
      (Framer.wholeLines sent).length = c.message.tags.valueChars.count '\n' + 1 ∧
      (Framer.IsLine sent ↔
        ∀ tag ∈ c.message.tags.entries, ∀ value ∈ tag.2, '\n' ∉ value.toList) ∧
      (Framer.IsLine sent → ∀ limit, sent.length ≤ limit → ∀ rest,
        ({ limit } : Framer).decode (sent ++ rest) = (.ok (some c.text), { limit }, rest)) ∧
      c.message.Unbroken ∧ c.toMessage.Unbroken := by
  obtain ⟨hreceived, hwritten⟩ := unbroken_of_ofLine h
  obtain ⟨htags, -, hverb⟩ := Message.envelope_eq_iff.mp c.envelope_toMessage
  intro sent
  have htext : c.text.toList = c.toMessage.chars := String.toList_ofList
  have htrim : Text.trimEnd Line.isBreak c.text.toList = c.text.toList := by
    have hformed := Message.wellFormed_of_parse (means_of_ofLine h).1
    rw [htext]
    refine hwritten.trimEnd_chars ?_
    rw [hverb]
    exact (Line.alphanum_of_isVerb hformed.verb).1
  have hcount : c.text.toList.count '\n' = c.message.tags.valueChars.count '\n' := by
    rw [htext, hwritten.count_chars, htags]
  refine ⟨Framer.unfinished_encode _, ?_, ?_, ?_, hreceived, hwritten⟩
  · rw [Framer.length_wholeLines_encode, htrim, hcount]
  · rw [Framer.isLine_encode_iff, htrim, hcount, List.count_eq_zero, Tags.mem_valueChars]
    simp only [not_exists, not_and]
  · intro hline limit hlimit rest
    rw [Framer.decode_encode_append hline hlimit, htrim, String.ofList_toList]

/-- A PING with a tag whose value is escaped, before another line. -/
theorem escaped_tag_sent_as_one_line :
    let c : Command :=
      ⟨⟨(∅ : Tags).insert ⟨false, none, "a"⟩ (some "\\:\\ "), none, "PING", [], some "x"⟩,
        .ping "x"⟩
    let sent := Framer.encode c.text.toList
    let next : List UInt8 := Text.encode "QUIT\r\n".toList
    ofLine "@a=\\:\\  PING :x\r\n" = .command c ∧ Framer.IsLine sent ∧
      (Framer.decode {} (sent ++ next)).1 = .ok (some "@a=\\:\\  PING :x") ∧
      c.message.Unbroken := by
  intro c sent next
  have hc : ofLine "@a=\\:\\  PING :x\r\n" = .command c := by decide +kernel
  obtain ⟨-, -, hiff, hread, hreceived, -⟩ := command_sent_as_one_line_iff _ c hc
  have hline : Framer.IsLine sent := hiff.mpr (by decide +kernel)
  refine ⟨hc, hline, ?_, hreceived⟩
  rw [hread hline Framer.defaultLimit (by decide +kernel) next]
  decide +kernel

/-- **A tag that splits a command**: a backslash and a line feed in a value.  The command is sent as
two lines, and the first is read as something else. -/
theorem fed_tag_splits_command :
    let c := ofLine "@a=\\\n PING :x"
    let sent := Framer.encode c.text.toList
    c.isInvalid = false ∧ ¬ Framer.IsLine sent ∧ (Framer.wholeLines sent).length = 2 ∧
      (Framer.decode {} sent).1 ≠ .ok (some c.text) := by
  refine ⟨by decide +kernel, ?_, by decide +kernel, by decide +kernel⟩
  rw [Framer.isLine_encode_iff]
  decide +kernel

end Received

end RelayChat
