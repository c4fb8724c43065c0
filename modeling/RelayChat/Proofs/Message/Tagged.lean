import Mathlib.Data.List.Induction
import RelayChat.Proofs.Message.RoundTrip
import RelayChat.Proofs.Tag.Escape
import RelayChat.Proofs.Tag.Table

/-!
# Messages with logical tags

A message is tagged by giving logical values under keys, one after another, where a later
value under a key takes the place of an earlier one.  The values are escaped as they are
entered, so that what is in the table is always the written form of a logical value
(`Tag.IsWritten`); what is looked up is the value given last (`lookup_withTags`).

Such a message comes back from its line unless a value in the table has a NUL.  A NUL cannot
be escaped and ends the value that it stands in.  The reader then has nothing to go on with:
neither another tag nor the space after the tags begins with a NUL.  So the line is not only
read as something else, it is not read at all (`parse_text_of_nul`).
-/

namespace RelayChat

open Grammar

/-! ### Tags in their written form -/

namespace Tag

/-- A key that reads back as itself, with the written form of a logical value. -/
def IsWritten (tag : Tag) : Prop :=
  KeyText tag.1.chars tag.1 ∧ ∃ value : Option String, tag.2 = value.map TagValue.escapeText

/-- No value has a NUL in it. -/
def IsFree (tag : Tag) : Prop :=
  ∀ value ∈ tag.2, '\x00' ∉ value.toList

theorem isFree_escape {key : TagKey} {value : Option String} :
    IsFree (key, value.map TagValue.escapeText) ↔ ∀ text ∈ value, '\x00' ∉ text.toList := by
  cases value with
  | none => simp [IsFree]
  | some text =>
      have hchars : '\x00' ∈ TagValue.escape text.toList ↔ '\x00' ∈ text.toList := by
        constructor
        · intro h
          obtain ⟨c, hc, hmem⟩ := List.mem_flatMap.mp h
          rcases TagValue.escapeChar_cases c with ⟨d, hpair, -, hinside⟩ | ⟨hplain, -, -⟩
          · rw [hpair] at hmem
            simp only [List.mem_cons, List.not_mem_nil, or_false] at hmem
            rcases hmem with hmem | rfl
            · exact absurd hmem (by decide)
            · exact absurd hinside (by decide)
          · rw [hplain, List.mem_singleton] at hmem
            rwa [hmem]
        · intro h
          obtain ⟨front, back, htext⟩ := List.append_of_mem h
          rw [htext, TagValue.escape_append_nul]
          simp
      simp [IsFree, TagValue.escapeText, hchars]

end Tag

namespace TagKey

theorem ofChars?_iff_parse {s : String} {key : TagKey} :
    ofChars? s.toList = some key ↔ parse s = .ok key := by
  rw [ofChars?_eq_some_iff, parse_eq_ok_iff]

theorem named_of_parse {s : String} {key : TagKey} (h : parse s = .ok key) : named s = key := by
  rw [named, ofChars?_iff_parse.mpr h, Option.getD_some]

/-- **Whatever a text names, it is written as the text.** -/
theorem text_named (s : String) : (named s).text = s := by
  rw [named]
  rcases hread : ofChars? s.toList with - | key
  · simp [text, chars, plain]
  · rw [Option.getD_some, text, chars_of_keyText (ofChars?_eq_some_iff.mp hread),
      String.ofList_toList]

/-- Keys that are named differently are different. -/
theorem named_inj {s t : String} : named s = named t ↔ s = t :=
  (Function.LeftInverse.injective text_named).eq_iff

end TagKey

namespace Message

variable {m : Message} {tag : Tag} {tags : List Tag} {calls : List (String × Option String)}
  {key : String}

/-- A tag without a NUL is a tag of the grammar. -/
theorem tagText_of_isWritten (h : tag.IsWritten) (hfree : tag.IsFree) :
    TagText (tagChars tag) tag := by
  obtain ⟨key, written⟩ := tag
  obtain ⟨hkey, value, hvalue⟩ := h
  obtain rfl : written = value.map TagValue.escapeText := hvalue
  refine tagText_tagChars ?_ fun written hwritten => ?_
  · rw [TagKey.parse_eq_ok_iff, TagKey.text, String.toList_ofList]
    exact hkey
  · obtain ⟨text, rfl, rfl⟩ := Option.map_eq_some_iff.mp hwritten
    rw [TagValue.escapeText, String.toList_ofList]
    exact TagValue.isValue_escape (Tag.isFree_escape.mp hfree text rfl)

/-- A tag with a NUL is read up to there. -/
theorem readTag_of_nul (h : tag.IsWritten) (hnul : ¬ tag.IsFree) (after : List Char) :
    ∃ first left, Line.readTag (tagChars tag ++ after) = .ok (first, '\x00' :: left) := by
  obtain ⟨key, written⟩ := tag
  obtain ⟨hkey, value, hvalue⟩ := h
  obtain rfl : written = value.map TagValue.escapeText := hvalue
  rw [Tag.isFree_escape] at hnul
  push Not at hnul
  obtain ⟨text, rfl, hmem⟩ := hnul
  obtain ⟨front, back, htext, hfront⟩ := List.eq_append_cons_of_mem hmem
  have hchars : tagChars (key, (some text).map TagValue.escapeText) ++ after =
      key.chars ++ '=' :: (TagValue.escape front ++
        ('\x00' :: (TagValue.escape back ++ after))) := by
    simp [tagChars, TagValue.escapeText, htext, TagValue.escape_append_nul]
  rw [hchars]
  exact ⟨_, _, Line.readTag_valued hkey (TagValue.isValue_escape hfront)
    (Text.stops_cons.mpr (by decide))⟩

theorem exists_intercalate_cons (sep piece : List Char) (pieces : List (List Char)) :
    ∃ rest, sep.intercalate (piece :: pieces) = piece ++ rest := by
  cases pieces with
  | nil => exact ⟨[], by simp⟩
  | cons next pieces =>
      exact ⟨sep ++ sep.intercalate (next :: pieces), by
        rw [List.intercalate_cons_cons, List.append_assoc]⟩

theorem readMoreTags_of_nul (left : List Char) :
    Line.readMoreTags ('\x00' :: left) = ([], '\x00' :: left) := by
  rw [Line.readMoreTags]
  simp

/-- **Tags are read up to the first NUL**, and there reading them stops. -/
theorem readTags_stop_at_nul (hwritten : ∀ tag ∈ tags, tag.IsWritten)
    (hnul : ∃ tag ∈ tags, ¬ tag.IsFree) (after : List Char) :
    ∃ first rest more left,
      Line.readTag ([';'].intercalate (tags.map tagChars) ++ after) = .ok (first, rest) ∧
        Line.readMoreTags rest = (more, '\x00' :: left) := by
  induction tags with
  | nil =>
      obtain ⟨tag, htag, -⟩ := hnul
      exact absurd htag List.not_mem_nil
  | cons tag tags ih =>
      obtain ⟨htag, htags⟩ := List.forall_mem_cons.mp hwritten
      by_cases hfree : tag.IsFree
      · -- This tag is read whole, and the NUL is in one of those after it.
        have hlater : ∃ tag ∈ tags, ¬ tag.IsFree := by
          obtain ⟨other, hother, hspoilt⟩ := hnul
          rcases List.mem_cons.mp hother with rfl | hother
          · exact absurd hfree hspoilt
          · exact ⟨other, hother, hspoilt⟩
        obtain ⟨first, rest, more, left, hfirst, hmore⟩ := ih htags hlater
        obtain ⟨next, others, rfl⟩ : ∃ next others, tags = next :: others := by
          obtain ⟨other, hother, -⟩ := hlater
          exact List.exists_cons_of_ne_nil (List.ne_nil_of_mem hother)
        have hread : ∀ text, Line.readTag (tagChars tag ++ ';' :: text) = .ok (tag, ';' :: text) :=
          fun text => Line.readTag_complete (tagText_of_isWritten htag hfree)
            (Text.stops_cons.mpr (by decide))
        refine ⟨tag, ';' :: ([';'].intercalate ((next :: others).map tagChars) ++ after),
          first :: more, left, ?_, ?_⟩
        · rw [List.map_cons, List.map_cons, List.intercalate_cons_cons, ← List.map_cons,
            List.append_assoc, List.append_assoc]
          exact hread _
        · rw [Line.readMoreTags]
          split
          · next other left' hother =>
            obtain ⟨rfl, rfl⟩ := by simpa using hfirst.symm.trans hother
            rw [hmore]
          · next hother => exact absurd (hfirst.symm.trans hother) (by simp)
      · obtain ⟨rest, hrest⟩ := exists_intercalate_cons [';'] (tagChars tag) (tags.map tagChars)
        obtain ⟨first, left, hread⟩ := readTag_of_nul htag hfree (rest ++ after)
        refine ⟨first, '\x00' :: left, [], left, ?_, readMoreTags_of_nul left⟩
        rw [List.map_cons, hrest, List.append_assoc, hread]

/-- **A line with a NUL in a tag is not read.** -/
theorem parse_text_of_nul (hwritten : ∀ tag ∈ m.tags.entries, tag.IsWritten)
    (hnul : ∃ tag ∈ m.tags.entries, ¬ tag.IsFree) (read : Message) : parse m.text ≠ .ok read := by
  intro h
  rw [parse_eq_ok_iff_read, text, String.toList_ofList, Line.read] at h
  obtain ⟨⟨found, left⟩, hread, -⟩ := bind_eq_ok_iff.mp h
  have htags : tagsChars m.tags =
      '@' :: [';'].intercalate (m.tags.entries.map tagChars) ++ [' '] := by
    unfold tagsChars
    split
    · next hnone =>
      obtain ⟨tag, htag, -⟩ := hnul
      rw [hnone] at htag
      exact absurd htag List.not_mem_nil
    · rfl
  simp only [chars, htags, List.append_assoc, List.cons_append, List.nil_append] at hread
  obtain ⟨first, rest, more, stopped, hfirst, hmore⟩ := readTags_stop_at_nul hwritten hnul
    (' ' :: (sourceChars m.source ++ (m.verb.toList ++
      (m.params.flatMap (' ' :: ·.toList) ++ trailingChars m.trailing))))
  rw [Line.readTags, hfirst] at hread
  simp only [hmore] at hread
  -- What is left begins with a NUL, where there should be a space.
  cases hread

/-! ### Giving tags one after another -/

/-- Gives a message logical values under keys, each of them as a text, one after another. -/
def withTags (m : Message) (calls : List (String × Option String)) : Message :=
  calls.foldl (fun m call => m.withTag (TagKey.named call.1) call.2) m

theorem withTags_concat (m : Message) (calls : List (String × Option String))
    (call : String × Option String) :
    m.withTags (calls ++ [call]) = (m.withTags calls).withTag (TagKey.named call.1) call.2 := by
  rw [withTags, List.foldl_append]
  rfl

/-- Giving tags changes the table of tags and nothing else. -/
theorem withTags_eq (m : Message) (calls : List (String × Option String)) :
    m.withTags calls = { m with tags := (m.withTags calls).tags } := by
  induction calls using List.reverseRecOn with
  | nil => rfl
  | append_singleton calls call ih =>
      rw [withTags_concat, withTag]
      generalize m.withTags calls = built at ih
      rw [ih]

/-- What the table of tags has in the end was given, and is in its written form. -/
theorem isWritten_withTags (htags : m.tags = ∅)
    (hkeys : ∀ call ∈ calls, ∃ key, TagKey.parse call.1 = .ok key) :
    ∀ tag ∈ (m.withTags calls).tags.entries, tag.IsWritten := by
  induction calls using List.reverseRecOn with
  | nil =>
      intro tag htag
      rw [withTags, List.foldl_nil, htags] at htag
      exact absurd htag List.not_mem_nil
  | append_singleton calls call ih =>
      intro tag htag
      rw [withTags_concat] at htag
      rcases Tags.mem_put htag with rfl | htag
      · obtain ⟨key, hkey⟩ := hkeys call (by simp)
        refine ⟨?_, call.2, rfl⟩
        rw [TagKey.named_of_parse hkey]
        rw [TagKey.parse_eq_ok_iff] at hkey
        rwa [TagKey.chars_of_keyText hkey]
      · exact ih (fun other hother => hkeys other (List.mem_append_left _ hother)) tag htag

/-- What was given last under a key: `none` if nothing was, `some none` if that was no value. -/
def lastGiven (calls : List (String × Option String)) (key : String) : Option (Option String) :=
  calls.reverse.lookup key

theorem lastGiven_concat (calls : List (String × Option String)) (call : String × Option String)
    (key : String) :
    lastGiven (calls ++ [call]) key =
      if key = call.1 then some call.2 else lastGiven calls key := by
  rw [lastGiven, List.reverse_append, List.reverse_singleton, List.singleton_append,
    List.lookup_cons]
  by_cases hkey : key = call.1
  · simp [hkey]
  · rw [beq_eq_false_iff_ne.mpr hkey, if_neg hkey, lastGiven]

theorem isSome_lastGiven_iff : (lastGiven calls key).isSome ↔ ∃ value, (key, value) ∈ calls := by
  simp [lastGiven, List.lookup_isSome_iff]

theorem mem_of_lastGiven {value : Option String} (h : lastGiven calls key = some value) :
    (key, value) ∈ calls := by
  obtain ⟨before, after, hcalls, -⟩ := List.lookup_eq_some_iff.mp h
  rw [← List.mem_reverse, hcalls]
  exact List.mem_append_right _ List.mem_cons_self

/-- **The table has what was given last** under a text at the key that the text names, in its
written form. -/
theorem get?_named_withTags (htags : m.tags = ∅) (calls : List (String × Option String))
    (key : String) :
    (m.withTags calls).tags.get? (TagKey.named key) =
      (lastGiven calls key).map (·.map TagValue.escapeText) := by
  induction calls using List.reverseRecOn with
  | nil =>
      rw [withTags, List.foldl_nil, htags]
      rfl
  | append_singleton calls call ih =>
      rw [withTags_concat, withTag, Tags.get?_insert, lastGiven_concat]
      by_cases hkey : key = call.1
      · rw [if_pos (TagKey.named_inj.mpr hkey.symm), if_pos hkey]
        rfl
      · rw [if_neg fun h => hkey (TagKey.named_inj.mp h).symm, if_neg hkey, ih]

/-- A key is looked up by the text that it reads from. -/
theorem lookup_of_parse {key : TagKey} {s : String} (h : TagKey.parse s = .ok key) (m : Message) :
    m.lookup s = m.tags.get? (TagKey.named s) := by
  rw [lookup, TagKey.ofChars?_iff_parse.mpr h, Option.bind_some, TagKey.named_of_parse h]

/-- **Looking a tag up finds the value that was given last** under its key, in its written form. -/
theorem lookup_withTags (htags : m.tags = ∅)
    (hkeys : ∀ call ∈ calls, ∃ key, TagKey.parse call.1 = .ok key) (key : String) :
    (m.withTags calls).lookup key = (lastGiven calls key).map (·.map TagValue.escapeText) := by
  rcases hread : TagKey.ofChars? key.toList with - | read
  · -- What is no key was not given.
    rcases hlast : lastGiven calls key with - | value
    · rw [lookup, hread]
      rfl
    · obtain ⟨given, hgiven⟩ := hkeys _ (mem_of_lastGiven hlast)
      rw [TagKey.ofChars?_iff_parse.mpr hgiven] at hread
      cases hread
  · rw [lookup_of_parse (TagKey.ofChars?_iff_parse.mp hread), get?_named_withTags htags]

/-- No value in the table has a NUL if none of those has that were given last. -/
theorem isFree_withTags_iff (htags : m.tags = ∅)
    (hkeys : ∀ call ∈ calls, ∃ key, TagKey.parse call.1 = .ok key) :
    (∀ tag ∈ (m.withTags calls).tags.entries, tag.IsFree) ↔
      ∀ key value, lastGiven calls key = some (some value) → '\x00' ∉ value.toList := by
  constructor
  · intro hfree key value hlast
    have hlookup := lookup_withTags htags hkeys key
    rw [hlast, lookup, Option.map_some, Option.bind_eq_some_iff] at hlookup
    obtain ⟨read, -, hget⟩ := hlookup
    exact Tag.isFree_escape.mp (hfree _ (Tags.get?_eq_some_iff.mp hget)) value rfl
  · rintro hlast ⟨key, written⟩ htag
    obtain ⟨hkey, -⟩ := isWritten_withTags htags hkeys _ htag
    have hread : TagKey.ofChars? key.text.toList = some key := by
      rw [TagKey.ofChars?_eq_some_iff, TagKey.text, String.toList_ofList]
      exact hkey
    have hlookup := lookup_withTags htags hkeys key.text
    rw [lookup, hread, Option.bind_some, Tags.get?_eq_some_iff.mpr htag] at hlookup
    obtain ⟨value, hvalue, rfl⟩ := Option.map_eq_some_iff.mp hlookup.symm
    refine Tag.isFree_escape.mpr fun text htext => hlast key.text text ?_
    rw [hvalue, Option.mem_def.mp htext]

/-- A message stays well formed when it is given tags without a NUL. -/
theorem WellFormed.withTags (h : m.WellFormed) (htags : m.tags = ∅)
    (hkeys : ∀ call ∈ calls, ∃ key, TagKey.parse call.1 = .ok key)
    (hfree : ∀ tag ∈ (m.withTags calls).tags.entries, tag.IsFree) :
    (m.withTags calls).WellFormed := by
  have hform : ∀ tag ∈ (m.withTags calls).tags.entries,
      KeyText tag.1.text.toList tag.1 ∧ ∀ value ∈ tag.2, IsValue value.toList :=
    fun tag htag => keyText_of_tagText
      (tagText_of_isWritten (isWritten_withTags htags hkeys tag htag) (hfree tag htag))
  rw [withTags_eq]
  exact ⟨⟨fun tag htag => TagKey.parse_eq_ok_iff.mpr (hform tag htag).1,
    fun tag htag => (hform tag htag).2, h.source, h.verb⟩, h.room, h.params, h.trailing⟩

/-- **Logical values come back from the line.**  A message without tags that comes back from its
own line is given values under keys, one after another.  Its line is read again unless one of the
values that were given last has a NUL, and then it is read as the same message, in which every
key has its last value: a tag without a value is there and has none, one with an empty value has
that. -/
theorem logical_values_survive (htags : m.tags = ∅) (hback : parse m.text = .ok m)
    (hkeys : ∀ call ∈ calls, ∃ key, TagKey.parse call.1 = .ok key) :
    ((∃ read, parse (m.withTags calls).text = .ok read) ↔
        ∀ key value, lastGiven calls key = some (some value) → '\x00' ∉ value.toList) ∧
      (∀ read, parse (m.withTags calls).text = .ok read →
        read = m.withTags calls ∧
          ∀ key, (read.hasTag key = true ↔ ∃ value, (key, value) ∈ calls) ∧
            read.logicalTag? key = (lastGiven calls key).join) ∧
      ∀ value : String, TagValue.unescapeText (TagValue.escapeText value) = value ∧
        TagValue.Paired (TagValue.escapeText value).toList ∧
        ∀ c ∈ (TagValue.escapeText value).toList, c ≠ ' ' ∧ c ≠ ';' ∧ c ≠ '\r' ∧ c ≠ '\n' := by
  have hwritten := isWritten_withTags htags hkeys
  -- Either the message is well formed, or its line is not read.
  have hreads : ∀ read, parse (m.withTags calls).text = .ok read →
      ∀ tag ∈ (m.withTags calls).tags.entries, tag.IsFree := by
    intro read hread tag htag
    by_contra hnul
    exact parse_text_of_nul hwritten ⟨tag, htag, hnul⟩ read hread
  have hformed := (wellFormed_of_parse hback).withTags htags hkeys
  refine ⟨⟨?_, ?_⟩, ?_, fun value => ⟨TagValue.unescapeText_escapeText value, ?_, ?_⟩⟩
  · rintro ⟨read, hread⟩
    exact (isFree_withTags_iff htags hkeys).mp (hreads read hread)
  · intro hlast
    exact ⟨_, (hformed ((isFree_withTags_iff htags hkeys).mpr hlast)).parse_text⟩
  · intro read hread
    obtain rfl : m.withTags calls = read :=
      Except.ok.inj ((hformed (hreads read hread)).parse_text.symm.trans hread)
    refine ⟨rfl, fun key => ⟨?_, ?_⟩⟩
    · rw [hasTag, lookup_withTags htags hkeys, Option.isSome_map]
      exact isSome_lastGiven_iff
    · rw [logicalTag?, tag?, lookup_withTags htags hkeys]
      rcases lastGiven calls key with - | - | value
      · rfl
      · rfl
      · exact congrArg some (TagValue.unescapeText_escapeText value)
  · rw [TagValue.escapeText, String.toList_ofList]
    exact TagValue.paired_escape value.toList
  · intro c hc
    rw [TagValue.escapeText, String.toList_ofList] at hc
    have hnul := TagValue.eq_nul_of_mem_escape hc
    refine ⟨?_, ?_, ?_, ?_⟩ <;> rintro rfl <;> exact absurd (hnul (by decide)) (by decide)

/-- A value given in place of an earlier one, a tag without a value and an empty value come back,
and what is full of backslashes keeps to its own tag. -/
theorem overwritten_value_survives :
    let calls := [("a", some "first"), ("+v.org/k", none), ("b", some ""), ("a", some "\\\\; \\")]
    (∀ call ∈ calls, ∃ key, TagKey.parse call.1 = .ok key) ∧
      ∃ read, parse ((ofVerb "PING").withTags calls).text = .ok read ∧
        read.logicalTag? "a" = some "\\\\; \\" ∧ read.logicalTag? "b" = some "" ∧
        read.hasTag "+v.org/k" = true ∧ read.logicalTag? "+v.org/k" = none := by
  intro calls
  have hkeys : ∀ call ∈ calls, ∃ key, TagKey.parse call.1 = .ok key := by
    simp only [calls, List.forall_mem_cons, List.not_mem_nil, false_implies, implies_true,
      and_true]
    exact ⟨⟨_, rfl⟩, ⟨_, rfl⟩, ⟨_, rfl⟩, ⟨_, rfl⟩⟩
  obtain ⟨hparses, hvalues, -⟩ :=
    logical_values_survive (m := ofVerb "PING") rfl (by decide +kernel) hkeys
  have hclean : ∀ call ∈ calls, ∀ value ∈ call.2, '\x00' ∉ value.toList := by decide
  obtain ⟨read, hread⟩ := hparses.mpr fun key value hlast =>
    hclean (key, some value) (mem_of_lastGiven hlast) value rfl
  obtain ⟨-, hfound⟩ := hvalues read hread
  refine ⟨hkeys, read, hread, ?_, ?_, ?_, ?_⟩
  · rw [(hfound "a").2]
    rfl
  · rw [(hfound "b").2]
    rfl
  · exact (hfound "+v.org/k").1.mpr ⟨none, by decide⟩
  · rw [(hfound "+v.org/k").2]
    rfl

end Message

end RelayChat
