import RelayChat.Proofs.Message.Tagged

/-!
# Tags that are found again

A tag is given under a text and looked up by a text, and the two texts are not treated
alike.  Giving is lenient: a text that is no key becomes the name of a key as a whole, so
that every text names a key, and every key that was named is written as its text.  In the
table, then, the tag that was given under a text is the one that is written as that text
(`Message.exists_tag_withTags_iff`).  Looking up is strict, and what is no key finds nothing.

So a tag is found under the text that it was given under exactly if the text is a key
(`Message.tags_found_iff`).  A tag under any other text is in the table, is written into the
line, and cannot be asked for.
-/

namespace RelayChat.Message

variable {m : Message} {calls : List (String × Option String)} {s : String} {key : TagKey}
  {value : Option String}

/-! ### The keys in the table -/

/-- What the table has was there, or is at a key that some text names. -/
theorem key_of_mem_withTags (htags : m.tags = ∅) (calls : List (String × Option String)) :
    ∀ tag ∈ (m.withTags calls).tags.entries, TagKey.named tag.1.text = tag.1 := by
  induction calls using List.reverseRecOn with
  | nil =>
      intro tag htag
      rw [withTags, List.foldl_nil, htags] at htag
      exact absurd htag List.not_mem_nil
  | append_singleton calls call ih =>
      intro tag htag
      rw [withTags_concat] at htag
      rcases Tags.mem_put htag with rfl | htag
      · rw [TagKey.text_named]
      · exact ih tag htag

/-- **A tag is written as a text** exactly if one was given under that text. -/
theorem exists_tag_withTags_iff (htags : m.tags = ∅) :
    (∃ tag ∈ (m.withTags calls).tags.entries, tag.1.text = s) ↔ ∃ value, (s, value) ∈ calls := by
  rw [← isSome_lastGiven_iff]
  constructor
  · rintro ⟨⟨key, written⟩, htag, rfl⟩
    have hget := get?_named_withTags htags calls key.text
    rw [key_of_mem_withTags htags calls _ htag, Tags.get?_eq_some_iff.mpr htag] at hget
    rw [← Option.isSome_map, ← hget]
    rfl
  · intro hgiven
    obtain ⟨value, hvalue⟩ := Option.isSome_iff_exists.mp hgiven
    have hget := get?_named_withTags htags calls s
    rw [hvalue, Option.map_some] at hget
    exact ⟨_, Tags.get?_eq_some_iff.mp hget, TagKey.text_named s⟩

/-! ### Looking up -/

/-- What is no key finds nothing. -/
theorem lookup_of_not_parse (h : ¬ ∃ key, TagKey.parse s = .ok key) (m : Message) :
    m.lookup s = none := by
  rcases hread : TagKey.ofChars? s.toList with - | key
  · rw [lookup, hread]
    rfl
  · exact absurd ⟨key, TagKey.ofChars?_iff_parse.mp hread⟩ h

/-- What is a key finds what was given last under it. -/
theorem logicalTag?_withTags (htags : m.tags = ∅) (h : TagKey.parse s = .ok key) :
    (m.withTags calls).logicalTag? s = (lastGiven calls s).join := by
  rw [logicalTag?, tag?, lookup_of_parse h, get?_named_withTags htags]
  rcases lastGiven calls s with - | - | value
  · rfl
  · rfl
  · exact congrArg some (TagValue.unescapeText_escapeText value)

/-- **A tag is found under the text that it was given under** exactly if the text is a key.  A
message without tags is given values under texts, one after another.  It then has a tag that is
written as `s` if one was given under `s`, and the tag is found by `s` if `s` is a key; in that
case, and only then, the value that is found is the one that was given last, with none for a tag
without a value. -/
theorem tags_found_iff (htags : m.tags = ∅) (calls : List (String × Option String)) (s : String) :
    ((∃ tag ∈ (m.withTags calls).tags.entries, tag.1.text = s) ↔ ∃ value, (s, value) ∈ calls) ∧
      ((m.withTags calls).hasTag s = true ↔
        (∃ key, TagKey.parse s = .ok key) ∧
          ∃ tag ∈ (m.withTags calls).tags.entries, tag.1.text = s) ∧
      ((∃ key, TagKey.parse s = .ok key) → ∀ value, lastGiven calls s = some value →
        (m.withTags calls).logicalTag? s = value) ∧
      ((¬ ∃ key, TagKey.parse s = .ok key) → (m.withTags calls).logicalTag? s = none) := by
  refine ⟨exists_tag_withTags_iff htags, ?_, ?_, ?_⟩
  · rw [exists_tag_withTags_iff htags, ← isSome_lastGiven_iff]
    by_cases hkey : ∃ key, TagKey.parse s = .ok key
    · obtain ⟨key, hread⟩ := hkey
      rw [hasTag, lookup_of_parse hread, get?_named_withTags htags, Option.isSome_map]
      exact (and_iff_right ⟨key, hread⟩).symm
    · refine iff_of_false ?_ fun h => hkey h.1
      rw [hasTag, lookup_of_not_parse hkey]
      exact Bool.false_ne_true
  · rintro ⟨key, hread⟩ value hlast
    rw [logicalTag?_withTags htags hread, hlast, Option.join_some]
  · intro hkey
    rw [logicalTag?, tag?, lookup_of_not_parse hkey]
    rfl

/-- Under a key with a vendor the value is found that was given in place of an earlier one. -/
theorem overwritten_tag_is_found :
    let calls := [("+v.org/k", some "first"), ("a b", some "no key"), ("+v.org/k", some "; ")]
    (ofVerb "PING").tags = ∅ ∧ (∃ key, TagKey.parse "+v.org/k" = .ok key) ∧
      lastGiven calls "+v.org/k" = some (some "; ") ∧
      ((ofVerb "PING").withTags calls).hasTag "+v.org/k" = true ∧
      ((ofVerb "PING").withTags calls).logicalTag? "+v.org/k" = some "; " := by
  intro calls
  have hkey : ∃ key, TagKey.parse "+v.org/k" = .ok key := ⟨_, rfl⟩
  have hlast : lastGiven calls "+v.org/k" = some (some "; ") := by decide
  obtain ⟨hin, hfound, hvalue, -⟩ := tags_found_iff (m := ofVerb "PING") rfl calls "+v.org/k"
  exact ⟨rfl, hkey, hlast, hfound.mpr ⟨hkey, hin.mpr ⟨_, mem_of_lastGiven hlast⟩⟩,
    hvalue hkey _ hlast⟩

/-- **A tag under a text that is no key is lost to look-ups**, though it is in the table and is
written as the text. -/
theorem malformed_key_finds_nothing :
    (¬ ∀ calls s, ((ofVerb "PING").withTags calls).hasTag s = true ↔
        ∃ tag ∈ ((ofVerb "PING").withTags calls).tags.entries, tag.1.text = s) ∧
      ¬ ∀ calls s value, lastGiven calls s = some value →
        ((ofVerb "PING").withTags calls).logicalTag? s = value := by
  have hnone : ((ofVerb "PING").withTags [("a b", some "1")]).lookup "a b" = none := by decide
  constructor
  · intro h
    have hin : ∃ tag ∈ ((ofVerb "PING").withTags [("a b", some "1")]).tags.entries,
        tag.1.text = "a b" :=
      (exists_tag_withTags_iff rfl).mpr ⟨some "1", List.mem_singleton_self _⟩
    have hfound := (h _ _).mpr hin
    rw [hasTag, hnone] at hfound
    cases hfound
  · intro h
    have hvalue := h [("a b", some "1")] "a b" (some "1") rfl
    rw [logicalTag?, tag?, hnone] at hvalue
    cases hvalue

end RelayChat.Message
