import RelayChat.Proofs.Message.Acceptance

/-!
# Printing and reading are inverse on the well-formed messages

A message can be built from any parts, and printing checks nothing, so a printed
message may be no line, or the line of another message.  `WellFormed` says which
messages come back, part by part and in terms of the parts alone.

One half of the equivalence is that what is read is well formed: a line of the
grammar has well-formed parts, and the table of its tags keeps only tags that the
line has (`wellFormed_of_lineText`).  The other half lays the printed text out by
the grammar (`HeadFormed.bodyText`); there the order of the table matters, since printed
tags are entered again in the order in which the table has them.

`HeadFormed` is the part of the condition that is about tags, source and verb.  It
stands by itself because rebuilding the parameters of a message does not touch it.
-/

namespace RelayChat

open Grammar

/-! ### The table of tags -/

namespace Tags

/-- An entry goes to the end if every key is before its own. -/
theorem put_of_lt {key : TagKey} {value : Option String} {entries : List Tag}
    (h : ∀ tag ∈ entries, compare tag.1 key = .lt) :
    put key value entries = entries ++ [(key, value)] := by
  induction entries with
  | nil => rfl
  | cons tag rest ih =>
      have hgt : compare key tag.1 = .gt :=
        Std.OrientedCmp.gt_of_lt (h tag List.mem_cons_self)
      rw [put, hgt, List.cons_append]
      exact congrArg _ (ih fun other hother => h other (List.mem_cons_of_mem _ hother))

/-- Tags entered in their order stay in it. -/
theorem entries_insertAll {t : Tags} {tags : List Tag} (h : Tag.Ordered (t.entries ++ tags)) :
    (t.insertAll tags).entries = t.entries ++ tags := by
  induction tags generalizing t with
  | nil => simp [insertAll]
  | cons tag tags ih =>
      -- Every entry is before the new one, which therefore goes to the end.
      have hlast : (t.insert tag.1 tag.2).entries = t.entries ++ [tag] := by
        refine put_of_lt fun other hother => ?_
        exact (List.pairwise_append.mp h).2.2 other hother tag List.mem_cons_self
      have hnext : Tag.Ordered ((t.insert tag.1 tag.2).entries ++ tags) := by
        rw [hlast, List.append_assoc]
        exact h
      calc ((t.insert tag.1 tag.2).insertAll tags).entries
          = (t.insert tag.1 tag.2).entries ++ tags := ih hnext
        _ = t.entries ++ tag :: tags := by rw [hlast, List.append_assoc]; rfl

/-- A table is what its own entries make up when they are entered one after the other. -/
theorem insertAll_entries (t : Tags) : (∅ : Tags).insertAll t.entries = t :=
  Tags.ext (entries_insertAll t.ordered)

/-- Nothing is in the table but what was there or was entered. -/
theorem mem_insertAll {t : Tags} {tags : List Tag} {tag : Tag}
    (h : tag ∈ (t.insertAll tags).entries) : tag ∈ t.entries ∨ tag ∈ tags := by
  induction tags generalizing t with
  | nil => exact .inl h
  | cons other tags ih =>
      rcases ih h with h | h
      · rcases mem_put h with rfl | h
        · exact .inr List.mem_cons_self
        · exact .inl h
      · exact .inr (List.mem_cons_of_mem _ h)

end Tags

namespace Message

variable {m : Message}

/-! ### Well-formed messages -/

/-- The tags, the source and the verb of a message can be written. -/
structure HeadFormed (m : Message) : Prop where
  /-- Every key reads back as itself. -/
  keys : ∀ tag ∈ m.tags.entries, TagKey.parse tag.1.text = .ok tag.1
  /-- Every value is in written form. -/
  values : ∀ tag ∈ m.tags.entries, ∀ value ∈ tag.2, IsValue value.toList
  /-- The source reads back as itself. -/
  source : ∀ source ∈ m.source, Source.parse source.text = .ok source
  /-- The verb is letters, or three digits. -/
  verb : IsVerb m.verb.toList

/-- **A message that can be written as a line.** -/
structure WellFormed (m : Message) : Prop extends HeadFormed m where
  /-- There is room for the parameters. -/
  room : m.params.length ≤ 14
  /-- Every parameter may stand before the trailing one. -/
  params : ∀ param ∈ m.params, IsMiddle param.toList
  /-- The trailing parameter has no line break. -/
  trailing : ∀ trailing ∈ m.trailing, IsUnbroken trailing.toList

/-! ### Building well-formed messages -/

/-- The parameters do not matter to tags, source and verb. -/
theorem HeadFormed.withParams (h : m.HeadFormed) (params : List String)
    (trailing : Option String) :
    HeadFormed { m with params := params, trailing := trailing } :=
  ⟨h.keys, h.values, h.source, h.verb⟩

/-- Tags, source and verb alone make up a well-formed message, if they come from one. -/
theorem WellFormed.envelope (h : m.WellFormed) : m.envelope.WellFormed :=
  ⟨h.toHeadFormed.withParams [] none, Nat.zero_le _, by simp [Message.envelope],
    by simp [Message.envelope]⟩

/-- A parameter may be added while there is room for it. -/
theorem WellFormed.withParam (h : m.WellFormed) {param : String}
    (hroom : m.params.length < 14) (hparam : IsMiddle param.toList) :
    (m.withParam param).WellFormed := by
  refine ⟨h.toHeadFormed.withParams (m.params ++ [param]) m.trailing, ?_, fun other hother => ?_,
    h.trailing⟩
  · show (m.params ++ [param]).length ≤ 14
    rw [List.length_append]
    exact hroom
  · rcases List.mem_append.mp hother with hother | hother
    · exact h.params other hother
    · rw [List.mem_singleton.mp hother]
      exact hparam

/-- The trailing parameter may be any text without line breaks, and may be missing. -/
theorem WellFormed.setTrailing (h : m.WellFormed) {trailing : Option String}
    (htrailing : ∀ text ∈ trailing, IsUnbroken text.toList) :
    WellFormed { m with trailing := trailing } :=
  ⟨h.toHeadFormed.withParams m.params trailing, h.room, h.params, htrailing⟩

theorem WellFormed.withTrailing (h : m.WellFormed) {text : String}
    (htext : IsUnbroken text.toList) : (m.withTrailing text).WellFormed :=
  h.setTrailing fun _ hother => Option.mem_some.mp hother ▸ htext

/-! ### What is read is well formed -/

/-- What is written of a tag gives its key back, and its value as it is written. -/
theorem keyText_of_tagText {cs : List Char} {tag : Tag} (h : TagText cs tag) :
    KeyText tag.1.text.toList tag.1 ∧ ∀ value ∈ tag.2, IsValue value.toList := by
  have hkey : ∀ {cs : List Char} {key : TagKey}, KeyText cs key →
      KeyText key.text.toList key := by
    intro cs key h
    rw [TagKey.text, String.toList_ofList, TagKey.chars_of_keyText h]
    exact h
  cases h with
  | bare form => exact ⟨hkey form, by simp⟩
  | valued form valid => exact ⟨hkey form, by simpa using valid⟩

/-- Each of the tags of a line is written in it. -/
theorem forall_of_tagsText {cs : List Char} {tags : List Tag} (h : TagsText cs tags) :
    ∀ tag ∈ tags, ∃ text, TagText text tag := by
  induction h with
  | @single cs tag form =>
      intro other hother
      rw [List.mem_singleton.mp hother]
      exact ⟨cs, form⟩
  | @cons cs more tag tags form next ih =>
      intro other hother
      rcases List.mem_cons.mp hother with rfl | hother
      · exact ⟨cs, form⟩
      · exact ih other hother

/-- Each of the parameters of a line may stand before the trailing one. -/
theorem forall_of_middlesText {cs : List Char} {params : List String}
    (h : MiddlesText cs params) : ∀ param ∈ params, IsMiddle param.toList := by
  induction h with
  | nil => simp
  | @cons spaces cs more params delimiter valid next ih =>
      intro param hparam
      rcases List.mem_cons.mp hparam with rfl | hparam
      · rw [String.toList_ofList]
        exact valid
      · exact ih param hparam

theorem forall_of_endingText {full : Prop} {cs : List Char} {trailing : Option String}
    (h : EndingText full cs trailing) : ∀ text ∈ trailing, IsUnbroken text.toList := by
  cases h with
  | absent blank => simp
  | marked delimiter valid => simpa using valid
  | unmarked noRoom delimiter nonempty unspaced unsigned valid => simpa using valid

/-- The message of a line is well formed. -/
theorem wellFormed_of_lineText {cs : List Char} (h : LineText cs m) : m.WellFormed := by
  obtain ⟨body, ending, rfl, hbody, -⟩ := h
  cases hbody with
  | @parts tagged sourced verb rest tags source params trailing labels sender word arguments =>
  -- Of several tags under one key only the last is kept, but what is kept was written.
  have htags : ∀ tag ∈ ((∅ : Tags).insertAll tags).entries, ∃ text, TagText text tag := by
    intro tag htag
    rcases Tags.mem_insertAll htag with htag | htag
    · exact absurd htag (by simp)
    · cases labels with
      | absent => exact absurd htag (by simp)
      | present form delimiter => exact forall_of_tagsText form tag htag
  cases arguments with
  | parts before room after =>
  refine ⟨⟨fun tag htag => ?_, fun tag htag => ?_, ?_, ?_⟩, room, forall_of_middlesText before,
    forall_of_endingText after⟩
  · obtain ⟨text, htext⟩ := htags tag htag
    exact TagKey.parse_eq_ok_iff.mpr (keyText_of_tagText htext).1
  · obtain ⟨text, htext⟩ := htags tag htag
    exact (keyText_of_tagText htext).2
  · cases sender with
    | absent => simp
    | present form delimiter =>
        simp only [Option.mem_some_iff, forall_eq']
        rw [Source.parse_eq_ok_iff, Source.text, String.toList_ofList,
          Source.chars_of_sourceText form]
        exact form
  · rw [String.toList_ofList]
    exact word

/-! ### What is well formed is read back -/

/-- A tag is printed in its written form. -/
theorem tagText_tagChars {tag : Tag} (hkey : TagKey.parse tag.1.text = .ok tag.1)
    (hvalue : ∀ value ∈ tag.2, IsValue value.toList) : TagText (tagChars tag) tag := by
  obtain ⟨key, value⟩ := tag
  have hform : KeyText key.chars key := by
    have hform := TagKey.parse_eq_ok_iff.mp hkey
    rwa [TagKey.text, String.toList_ofList] at hform
  cases value with
  | none =>
      rw [tagChars, List.append_nil]
      exact .bare hform
  | some value =>
      have htext := TagText.valued hform (hvalue value rfl)
      rw [String.ofList_toList] at htext
      exact htext

/-- Tags are printed with a semicolon between each two. -/
theorem tagsText_intercalate {tags : List Tag} (hne : tags ≠ [])
    (h : ∀ tag ∈ tags, TagText (tagChars tag) tag) :
    TagsText ([';'].intercalate (tags.map tagChars)) tags := by
  induction tags with
  | nil => exact absurd rfl hne
  | cons tag rest ih =>
      have hhead := h tag List.mem_cons_self
      cases rest with
      | nil =>
          rw [List.map_singleton, List.intercalate_singleton]
          exact .single hhead
      | cons next rest =>
          have hnext := ih (List.cons_ne_nil _ _) fun other hother =>
            h other (List.mem_cons_of_mem _ hother)
          rw [List.map_cons, List.map_cons, List.intercalate_cons_cons, List.append_assoc]
          exact .cons hhead hnext

/-- Parameters are printed with one space before each. -/
theorem middlesText_flatMap {params : List String}
    (h : ∀ param ∈ params, IsMiddle param.toList) :
    MiddlesText (params.flatMap (' ' :: ·.toList)) params := by
  induction params with
  | nil => exact .nil
  | cons param rest ih =>
      have hrest := ih fun other hother => h other (List.mem_cons_of_mem _ hother)
      have htext := MiddlesText.cons isSpaces_space (h param List.mem_cons_self) hrest
      rw [String.ofList_toList] at htext
      exact htext

/-- The trailing parameter is printed with its sign, so that any text can be it. -/
theorem endingText_trailingChars {full : Prop} {trailing : Option String}
    (h : ∀ text ∈ trailing, IsUnbroken text.toList) :
    EndingText full (trailingChars trailing) trailing := by
  cases trailing with
  | none => exact .absent fun _ hc => absurd hc List.not_mem_nil
  | some text =>
      have hmarked : EndingText full ([' '] ++ ':' :: text.toList)
          (some (String.ofList text.toList)) := .marked isSpaces_space (h text rfl)
      rw [String.ofList_toList] at hmarked
      exact hmarked

/-- The head of a message before the parameters of a line. -/
theorem HeadFormed.bodyText (h : m.HeadFormed) {rest : List Char} {params : List String}
    {trailing : Option String} (hrest : ParamsText rest (params, trailing)) :
    BodyText (tagsChars m.tags ++ sourceChars m.source ++ m.verb.toList ++ rest)
      { m with params := params, trailing := trailing } := by
  have hlabels : TagSection (tagsChars m.tags) m.tags.entries := by
    unfold tagsChars
    split
    · next hnone =>
      rw [hnone]
      exact .absent
    · next hsome =>
      refine .present (tagsText_intercalate hsome fun tag htag => ?_) isSpaces_space
      exact tagText_tagChars (h.keys tag htag) (h.values tag htag)
  have hsender : SourceSection (sourceChars m.source) m.source := by
    rcases hsource : m.source with - | source
    · exact .absent
    · have hform := Source.parse_eq_ok_iff.mp (h.source source hsource)
      rw [Source.text, String.toList_ofList] at hform
      exact .present hform isSpaces_space
  have hbody := BodyText.parts hlabels hsender h.verb hrest
  -- Entered in the order of the table, the tags make up the same table.
  rw [Tags.insertAll_entries, String.ofList_toList] at hbody
  exact hbody

/-- A well-formed message is written as a line of the grammar. -/
theorem WellFormed.bodyText (h : m.WellFormed) : BodyText m.chars m := by
  have hrest : ParamsText (m.params.flatMap (' ' :: ·.toList) ++ trailingChars m.trailing)
      (m.params, m.trailing) :=
    .parts (middlesText_flatMap h.params) h.room (endingText_trailingChars h.trailing)
  have hbody := h.toHeadFormed.bodyText hrest
  rwa [← List.append_assoc] at hbody

/-- **A well-formed message comes back** from the line that it is written as. -/
theorem WellFormed.parse_text (h : m.WellFormed) : parse m.text = .ok m := by
  rw [parse_eq_ok_iff_read, text, String.toList_ofList]
  exact Line.read_complete ⟨m.chars, [], (List.append_nil _).symm, h.bodyText, .inl rfl⟩

/-- It also comes back from that line with an end. -/
theorem WellFormed.parse_text_ended (h : m.WellFormed) : parse (m.text ++ "\r\n") = .ok m := by
  rw [parse_eq_ok_iff_read, text, String.toList_append, String.toList_ofList]
  exact Line.read_complete ⟨m.chars, ['\r', '\n'], rfl, h.bodyText, .inr rfl⟩

/-- **What is read is well formed.** -/
theorem wellFormed_of_parse {line : String} (h : parse line = .ok m) : m.WellFormed :=
  wellFormed_of_lineText (Line.read_sound (parse_eq_ok_iff_read.mp h))

/-- **Printing and reading are inverse exactly on the well-formed messages.**  Every message that
is read from a line is one of them, so printing it loses nothing. -/
theorem print_then_parse_exactly_wellFormed :
    (∀ m : Message, parse m.text = .ok m ↔ m.WellFormed) ∧
      ∀ (line : String) (m : Message), parse line = .ok m →
        m.WellFormed ∧ parse m.text = .ok m :=
  ⟨fun _ => ⟨wellFormed_of_parse, WellFormed.parse_text⟩,
    fun _ _ h => ⟨wellFormed_of_parse h, (wellFormed_of_parse h).parse_text⟩⟩

end Message

end RelayChat
