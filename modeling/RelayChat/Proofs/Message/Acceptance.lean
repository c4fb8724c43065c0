import RelayChat.Proofs.Tag.Reading

/-!
# The lines that are read are those of the grammar

Reading is greedy and takes no choice back, so two things could go wrong with it: a
line of the grammar could be cut in the wrong places, or a text outside the grammar
could be let through.  Each section of a line has a statement against either, named
`…_complete` and `…_sound`.

The complete half of a section asks what comes next.  Read from the right, a line
answers this: its end begins with nothing or a carriage return, what follows a verb
with that or a space, and what follows the tags with a colon or the verb.  The sound
half needs nothing of the kind, except that a list of tags must not be the last
thing in the text; the space that a line has after them sees to it.
-/

namespace RelayChat

/-- What a sequence of two steps gives, each of which can fail. -/
theorem bind_eq_ok_iff {ε α β : Type} {x : Except ε α} {f : α → Except ε β} {b : β} :
    x >>= f = .ok b ↔ ∃ a, x = .ok a ∧ f a = .ok b := by
  cases x with
  | error e => simp [bind, Except.bind]
  | ok a => simp [bind, Except.bind]

theorem bind_eq_error_iff {ε α β : Type} {x : Except ε α} {f : α → Except ε β} {e : ε} :
    x >>= f = .error e ↔ x = .error e ∨ ∃ a, x = .ok a ∧ f a = .error e := by
  cases x with
  | error e => simp [bind, Except.bind]
  | ok a => simp [bind, Except.bind]

/-- Two steps that succeed are one that does. -/
theorem bind_of_ok {ε α β : Type} {x : Except ε α} {f : α → Except ε β} {a : α} {b : β}
    (hx : x = .ok a) (hf : f a = .ok b) : x >>= f = .ok b :=
  bind_eq_ok_iff.mpr ⟨a, hx, hf⟩

namespace Line

open Text Grammar

variable {cs left spaces : List Char}

/-! ### Spaces -/

theorem isSpaces_takeWhile (cs : List Char) : IsSpaces (' ' :: cs.takeWhile (· == ' ')) := by
  refine ⟨by simp, fun c hc => ?_⟩
  rcases List.mem_cons.mp hc with rfl | hc
  · rfl
  · simpa using List.mem_takeWhile_imp hc

theorem exists_isSpaces_append (rest : List Char) :
    ∃ spaces, IsSpaces spaces ∧ ' ' :: rest = spaces ++ rest.dropWhile (· == ' ') := by
  refine ⟨_, isSpaces_takeWhile rest, ?_⟩
  rw [List.cons_append, List.takeWhile_append_dropWhile]

/-- Spaces before something else: one space, and all those after it. -/
theorem exists_dropWhile_eq (h : IsSpaces spaces) (hleft : Stops (· == ' ') left) :
    ∃ rest, spaces ++ left = ' ' :: rest ∧ rest.dropWhile (· == ' ') = left := by
  obtain ⟨c, more, rfl⟩ := List.exists_cons_of_ne_nil h.1
  refine ⟨more ++ left, by rw [h.2 c List.mem_cons_self, List.cons_append], ?_⟩
  refine dropWhile_append_of_stops (fun d hd => ?_) hleft
  simpa using h.2 d (List.mem_cons_of_mem _ hd)

/-- Spaces are read to the last of them. -/
theorem readSpaces_complete (h : IsSpaces spaces) (hleft : Stops (· == ' ') left) :
    readSpaces (spaces ++ left) = .ok ((), left) := by
  obtain ⟨rest, happ, hdrop⟩ := exists_dropWhile_eq h hleft
  rw [happ, readSpaces, hdrop]

theorem readSpaces_sound (h : readSpaces cs = .ok ((), left)) :
    ∃ spaces, cs = spaces ++ left ∧ IsSpaces spaces := by
  unfold readSpaces at h
  split at h
  · next rest =>
    obtain rfl := by simpa using h
    obtain ⟨spaces, hvalid, happ⟩ := exists_isSpaces_append rest
    exact ⟨spaces, happ, hvalid⟩
  · exact absurd h (by simp)

/-! ### Tags -/

section Tags

variable {tag : Tag} {tags : List Tag}

/-- What may follow a tag: another one, or the spaces after all of them. -/
def AtTagEnd (left : List Char) : Prop :=
  Stops (fun c => !(c == ';' || c == ' ')) left

private theorem AtTagEnd.stops {p : Char → Bool} (h : AtTagEnd left) (hnext : p ';' = false)
    (hspace : p ' ' = false) : Stops p left :=
  h.mono fun c hc => by
    simp only [Bool.not_eq_false', Bool.or_eq_true, beq_iff_eq] at hc
    rcases hc with rfl | rfl
    · exact hnext
    · exact hspace

/-- A tag with a value is read up to what ends the value, be it within a line or not. -/
theorem readTag_valued {value : List Char} {key : TagKey} (form : KeyText cs key)
    (valid : IsValue value) (hleft : Stops (!TagValue.isDelimiter ·) left) :
    readTag (cs ++ '=' :: (value ++ left)) = .ok ((key, some (String.ofList value)), left) := by
  have hend : TagKey.AtKeyEnd ('=' :: (value ++ left)) := stops_cons.mpr (by decide)
  rw [readTag, TagKey.read_complete form hend]
  simp [TagValue.read_complete valid hleft]

/-- A tag is read to where it ends. -/
theorem readTag_complete (h : TagText cs tag) (hleft : AtTagEnd left) :
    readTag (cs ++ left) = .ok (tag, left) := by
  cases h with
  | bare form =>
      rw [readTag, TagKey.read_complete form (hleft.stops (by decide) (by decide))]
      cases left with
      | nil => rfl
      | cons c rest =>
          have hstop : Stops (· == '=') (c :: rest) := hleft.stops (by decide) (by decide)
          have hc : c ≠ '=' := by simpa using hstop
          simp [hc]
  | valued form valid =>
      rw [List.append_assoc, List.cons_append]
      exact readTag_valued form valid (hleft.stops (by decide) (by decide))

/-- What is read as a tag is written by the grammar of it. -/
theorem readTag_sound (h : readTag cs = .ok (tag, left)) (hleft : left ≠ []) :
    ∃ text, cs = text ++ left ∧ TagText text tag := by
  unfold readTag at h
  split at h
  · exact absurd h (by simp)
  · next key rest hkey =>
    obtain ⟨text, rfl, htext⟩ := TagKey.read_sound hkey
    obtain ⟨rfl, rfl⟩ := by simpa using h
    refine ⟨text ++ '=' :: (TagValue.read rest).1, ?_,
      .valued htext (TagValue.read_sound hleft).1⟩
    rw [List.append_assoc, List.cons_append, TagValue.read_append]
  · next key left' _ hkey =>
    obtain ⟨text, rfl, htext⟩ := TagKey.read_sound hkey
    obtain ⟨rfl, rfl⟩ := by simpa using h
    exact ⟨text, rfl, .bare htext⟩

/-- At a space there are no more tags. -/
theorem readMoreTags_of_space (hleft : left.head? = some ' ') :
    readMoreTags left = ([], left) := by
  cases left with
  | nil => simp at hleft
  | cons c rest =>
      obtain rfl : c = ' ' := by simpa using hleft
      rw [readMoreTags]
      simp

/-- Tags are read one after the other up to the space after them. -/
theorem readMoreTags_complete (h : TagsText cs tags) (hleft : left.head? = some ' ') :
    ∃ first more rest, tags = first :: more ∧ readTag (cs ++ left) = .ok (first, rest) ∧
      readMoreTags rest = (more, left) := by
  induction h with
  | @single cs tag form =>
      have hend : AtTagEnd left := fun c hc => by
        obtain rfl : ' ' = c := by simpa [hleft] using hc
        rfl
      exact ⟨tag, [], left, rfl, readTag_complete form hend, readMoreTags_of_space hleft⟩
  | @cons cs more tag tags form next ih =>
      obtain ⟨first, others, rest, rfl, hfirst, hothers⟩ := ih
      have hend : AtTagEnd (';' :: (more ++ left)) := stops_cons.mpr (by decide)
      refine ⟨tag, first :: others, ';' :: (more ++ left), rfl, ?_, ?_⟩
      · rw [List.append_assoc, List.cons_append]
        exact readTag_complete form hend
      · -- The reader tries a tag after the semicolon, and `ih` says that it finds one.
        rw [readMoreTags]
        split
        · next tag' left' hread =>
          obtain ⟨rfl, rfl⟩ := by simpa using hfirst.symm.trans hread
          rw [hothers]
        · next hread => exact absurd (hfirst.symm.trans hread) (by simp)

/-- What is read after a tag continues a list of tags. -/
theorem readMoreTags_sound (h : readMoreTags cs = (tags, left)) (hleft : left ≠ []) :
    ∃ text, cs = text ++ left ∧ ∀ {first : List Char} {tag : Tag}, TagText first tag →
      TagsText (first ++ text) (tag :: tags) := by
  fun_induction readMoreTags cs generalizing tags with
  | case1 rest tag left' hread tags' left'' heq ih =>
      obtain ⟨rfl, rfl⟩ := by simpa using h
      obtain ⟨text, rfl, hmore⟩ := ih heq
      have hne : text ++ left'' ≠ [] := by simp [hleft]
      obtain ⟨one, rfl, hone⟩ := readTag_sound hread hne
      exact ⟨';' :: (one ++ text), by simp, fun hfirst => .cons hfirst (hmore hone)⟩
  | case2 rest stop hread =>
      -- A semicolon without a tag is left for the spaces to fail on.
      obtain ⟨rfl, rfl⟩ := by simpa using h
      exact ⟨[], rfl, fun hfirst => by rw [List.append_nil]; exact .single hfirst⟩
  | case3 cs hsemicolon =>
      obtain ⟨rfl, rfl⟩ := by simpa using h
      exact ⟨[], rfl, fun hfirst => by rw [List.append_nil]; exact .single hfirst⟩

/-- The tags of a line are read with the spaces after them, up to what is neither a space nor their
sign. -/
theorem readTags_complete (h : TagSection cs tags)
    (hleft : Stops (fun c => c == '@' || c == ' ') left) :
    readTags (cs ++ left) = .ok (tags, left) := by
  cases h with
  | absent =>
      cases left with
      | nil => rfl
      | cons c rest =>
          have hc : c ≠ '@' := by
            rintro rfl
            exact absurd (stops_cons.mp hleft) (by simp)
          simp [readTags, hc]
  | @present cs spaces tags form delimiter =>
      have hspace : Stops (· == ' ') left := hleft.mono fun c hc => by
        rw [Bool.or_eq_false_iff] at hc
        exact hc.2
      have hhead : (spaces ++ left).head? = some ' ' := by
        obtain ⟨rest, happ, -⟩ := exists_dropWhile_eq delimiter hspace
        rw [happ]
        rfl
      obtain ⟨first, more, rest, rfl, hfirst, hmore⟩ := readMoreTags_complete form hhead
      rw [List.cons_append, List.cons_append, List.append_assoc, readTags, hfirst]
      simp only [hmore, readSpaces_complete delimiter hspace]

/-- What is read as tags is written by the grammar of them. -/
theorem readTags_sound (h : readTags cs = .ok (tags, left)) :
    ∃ text, cs = text ++ left ∧ TagSection text tags := by
  unfold readTags at h
  split at h
  · next rest =>
    split at h
    · exact absurd h (by simp)
    · next tag after htag =>
      rcases hmore : readMoreTags after with ⟨more, last⟩
      simp only [hmore] at h
      split at h
      · next rest' hspaces =>
        obtain ⟨rfl, rfl⟩ := by simpa using h
        obtain ⟨spaces, rfl, hvalid⟩ := readSpaces_sound hspaces
        -- The spaces after the tags are what their reading needs to stop at.
        have hlast : spaces ++ rest' ≠ [] := List.append_ne_nil_of_left_ne_nil hvalid.1 _
        obtain ⟨text, rfl, htext⟩ := readMoreTags_sound hmore hlast
        have hafter : text ++ (spaces ++ rest') ≠ [] :=
          List.append_ne_nil_of_right_ne_nil _ hlast
        obtain ⟨first, rfl, hfirst⟩ := readTag_sound htag hafter
        exact ⟨'@' :: (first ++ text) ++ spaces, by simp, .present (htext hfirst) hvalid⟩
      · exact absurd h (by simp)
  · obtain ⟨rfl, rfl⟩ := by simpa using h
    exact ⟨[], rfl, .absent⟩

end Tags

/-! ### Source and verb -/

section Source

variable {source : Option RelayChat.Source}

theorem atBoundary_of_atSpace (left : List Char) (h : atSpace left = true) : AtBoundary left := by
  cases left with
  | nil => exact stops_nil
  | cons c rest =>
      obtain rfl : c = ' ' := by simpa [atSpace] using h
      exact stops_cons.mpr (by decide)

/-- The source of a line is read with the spaces after it, up to what is neither a space nor its
sign. -/
theorem readSource_complete (h : SourceSection cs source)
    (hleft : Stops (fun c => c == ':' || c == ' ') left) :
    readSource (cs ++ left) = .ok (source, left) := by
  cases h with
  | absent =>
      cases left with
      | nil => rfl
      | cons c rest =>
          have hc : c ≠ ':' := by
            rintro rfl
            exact absurd (stops_cons.mp hleft) (by simp)
          simp [readSource, hc]
  | @present cs spaces source form delimiter =>
      have hspace : Stops (· == ' ') left := hleft.mono fun c hc => by
        rw [Bool.or_eq_false_iff] at hc
        exact hc.2
      obtain ⟨rest, happ, hdrop⟩ := exists_dropWhile_eq delimiter hspace
      have hread := Source.read_complete atBoundary_of_atSpace form
        (by simp [atSpace, happ] : atSpace (spaces ++ left) = true)
      rw [List.cons_append, List.cons_append, List.append_assoc, readSource, hread]
      simp [happ, hdrop]

/-- What is read as a source is written by the grammar of it. -/
theorem readSource_sound (h : readSource cs = .ok (source, left)) :
    ∃ text, cs = text ++ left ∧ SourceSection text source := by
  unfold readSource at h
  split at h
  · next rest =>
    split at h
    · exact absurd h (by simp)
    · next source' after hread =>
      obtain ⟨rfl, rfl⟩ := by simpa using h
      obtain ⟨text, rfl, htext, hspace⟩ := Source.read_sound atBoundary_of_atSpace hread
      cases after with
      | nil => exact absurd hspace (by simp [atSpace])
      | cons c rest =>
          obtain rfl : c = ' ' := by simpa [atSpace] using hspace
          obtain ⟨spaces, hvalid, happ⟩ := exists_isSpaces_append rest
          refine ⟨':' :: text ++ spaces, ?_, .present htext hvalid⟩
          rw [List.dropWhile_cons_of_pos rfl, List.append_assoc, List.cons_append, happ]
  · obtain ⟨rfl, rfl⟩ := by simpa using h
    exact ⟨[], rfl, .absent⟩

end Source

/-- The test of a verb and its grammar agree on what is not empty. -/
theorem isVerb_iff (hne : cs ≠ []) : isVerb cs = true ↔ IsVerb cs := by
  simp [isVerb, isNumeric, IsVerb, hne]

/-- A verb is letters and digits, one at least. -/
theorem alphanum_of_isVerb (h : IsVerb cs) : cs ≠ [] ∧ ∀ c ∈ cs, c.isAlphanum = true := by
  rcases h with ⟨hne, hclass⟩ | ⟨hlen, hclass⟩
  · exact ⟨hne, fun c hc => by simp [Char.isAlphanum, hclass c hc]⟩
  · refine ⟨fun hnil => by simp [hnil] at hlen, fun c hc => ?_⟩
    simp [Char.isAlphanum, hclass c hc]

/-- A verb is read to where letters and digits stop. -/
theorem readVerb_complete (h : IsVerb cs) (hleft : Stops Char.isAlphanum left) :
    readVerb (cs ++ left) = .ok (cs, left) := by
  obtain ⟨hne, hclass⟩ := alphanum_of_isVerb h
  rw [readVerb, readRun_eq_some_iff.mpr ⟨rfl, hne, hclass, hleft⟩]
  exact if_pos ((isVerb_iff hne).mpr h)

theorem readVerb_sound {verb : List Char} (h : readVerb cs = .ok (verb, left)) :
    cs = verb ++ left ∧ IsVerb verb := by
  unfold readVerb at h
  split at h
  · next run rest hrun =>
    obtain ⟨rfl, hne, -⟩ := readRun_eq_some_iff.mp hrun
    split at h
    · next hverb =>
      obtain ⟨rfl, rfl⟩ := by simpa using h
      exact ⟨rfl, (isVerb_iff hne).mp hverb⟩
    · exact absurd h (by simp)
  · exact absurd h (by simp)

/-! ### Parameters -/

section Params

variable {room : Nat} {params : List String} {trailing : Option String}
  {middles ending : List Char} {full : Prop}

/-- What may follow the parameters: the end of the text, or a line break. -/
def AtBreak (left : List Char) : Prop :=
  Stops (!isBreak ·) left

theorem AtBreak.stops {p : Char → Bool} (h : AtBreak left) (hreturn : p '\r' = false)
    (hfeed : p '\n' = false) : Stops p left :=
  h.mono fun c hc => by
    simp only [isBreak, Bool.not_eq_false', Bool.or_eq_true, beq_iff_eq] at hc
    rcases hc with rfl | rfl
    · exact hreturn
    · exact hfeed

/-- What may follow a word: the end of the text, a line break or a space. -/
def AtGap (left : List Char) : Prop :=
  Stops (fun c => !(c == ' ' || isBreak c)) left

theorem AtGap.stops {p : Char → Bool} (h : AtGap left) (hspace : p ' ' = false)
    (hreturn : p '\r' = false) (hfeed : p '\n' = false) : Stops p left :=
  h.mono fun c hc => by
    simp only [isBreak, Bool.not_eq_false', Bool.or_eq_true, beq_iff_eq] at hc
    rcases hc with rfl | rfl | rfl
    · exact hspace
    · exact hreturn
    · exact hfeed

theorem isUnbroken_iff : IsUnbroken cs ↔ ∀ c ∈ cs, (!isBreak c) = true := by
  simp [IsUnbroken]

/-- What comes before the first line break has none. -/
theorem isUnbroken_takeWhile (cs : List Char) : IsUnbroken (cs.takeWhile (!isBreak ·)) :=
  isUnbroken_iff.mpr fun _ hc => List.mem_takeWhile_imp (p := (!isBreak ·)) hc

/-- Nothing but spaces before a break. -/
theorem readParams_blank (hblank : ∀ c ∈ spaces, c = ' ') (hleft : AtBreak left) :
    readParams room (spaces ++ left) = .ok (([], none), left) := by
  by_cases hne : spaces = []
  · subst hne
    cases left with
    | nil => simp [readParams]
    | cons c rest =>
        have hc : c ≠ ' ' := by
          rintro rfl
          exact absurd (stops_cons.mp hleft) (by decide)
        rw [List.nil_append, readParams.eq_def]
        simp [hc]
  · obtain ⟨rest, happ, hdrop⟩ :=
      exists_dropWhile_eq ⟨hne, hblank⟩ (hleft.stops (by decide) (by decide))
    rw [happ, readParams.eq_def]
    simp only [hdrop]
    cases left with
    | nil => rfl
    | cons c rest =>
        have hc : isBreak c = true := by simpa using stops_cons.mp hleft
        simp [hc]

/-- The trailing parameter with its sign. -/
theorem readParams_marked (hspaces : IsSpaces spaces) (hvalid : IsUnbroken cs)
    (hleft : AtBreak left) :
    readParams room (spaces ++ ':' :: (cs ++ left)) =
      .ok (([], some (String.ofList cs)), left) := by
  have hall := isUnbroken_iff.mp hvalid
  obtain ⟨rest, happ, hdrop⟩ := exists_dropWhile_eq hspaces
    (stops_cons.mpr (by decide) : Stops (· == ' ') (':' :: (cs ++ left)))
  have hcolon : isBreak ':' = false := by decide
  rw [happ, readParams.eq_def]
  simp [hdrop, hcolon, takeWhile_append_of_stops cs hleft, List.takeWhile_eq_self_iff.mpr hall,
    dropWhile_append_of_stops hall hleft]

/-- The trailing parameter without its sign. -/
theorem readParams_unmarked (hspaces : IsSpaces spaces) (hne : cs ≠ [])
    (hspace : cs.head? ≠ some ' ') (hcolon : cs.head? ≠ some ':') (hvalid : IsUnbroken cs)
    (hleft : AtBreak left) :
    readParams 0 (spaces ++ (cs ++ left)) = .ok (([], some (String.ofList cs)), left) := by
  have hall := isUnbroken_iff.mp hvalid
  have htake : (cs ++ left).takeWhile (!isBreak ·) = cs := by
    rw [takeWhile_append_of_stops cs hleft, List.takeWhile_eq_self_iff.mpr hall]
  have hdropped := dropWhile_append_of_stops hall hleft
  obtain ⟨c, text, rfl⟩ := List.exists_cons_of_ne_nil hne
  obtain ⟨rest, happ, hdrop⟩ := exists_dropWhile_eq hspaces
    (stops_cons.mpr (by simpa using hspace) : Stops (· == ' ') (c :: (text ++ left)))
  have hbreak : isBreak c = false := hvalid c List.mem_cons_self
  have hsign : c ≠ ':' := by simpa using hcolon
  rw [List.cons_append] at htake hdropped ⊢
  rw [happ, readParams.eq_def]
  simp only [hdrop, hbreak, hsign, htake, hdropped, if_false, Bool.false_eq_true]

/-- A parameter before the trailing one. -/
theorem readParams_middle {rest : List Char} (hspaces : IsSpaces spaces) (hvalid : IsMiddle cs)
    (hleft : Stops isParamChar left)
    (hnext : readParams room left = .ok ((params, trailing), rest)) :
    readParams (room + 1) (spaces ++ (cs ++ left)) =
      .ok ((String.ofList cs :: params, trailing), rest) := by
  obtain ⟨hne, hcolon, hclass⟩ := hvalid
  have hrun : readRun isParamChar (cs ++ left) = some (cs, left) :=
    readRun_eq_some_iff.mpr ⟨rfl, hne, hclass, hleft⟩
  obtain ⟨c, text, rfl⟩ := List.exists_cons_of_ne_nil hne
  have hc := hclass c List.mem_cons_self
  have hbreak : isBreak c = false := by
    simp only [isParamChar, Bool.not_eq_true', Bool.or_eq_false_iff] at hc
    simp [isBreak, hc]
  have hspace : (c == ' ') = false := by
    simp only [isParamChar, Bool.not_eq_true', Bool.or_eq_false_iff] at hc
    exact hc.1.1.1
  have hsign : c ≠ ':' := by simpa using hcolon
  obtain ⟨more, happ, hdrop⟩ := exists_dropWhile_eq hspaces
    (stops_cons.mpr hspace : Stops (· == ' ') (c :: (text ++ left)))
  rw [List.cons_append] at hrun ⊢
  rw [happ, readParams.eq_def]
  simp only [hdrop, hbreak, hsign, hrun, hnext, if_false, Bool.false_eq_true]

theorem atGap_spaces (h : IsSpaces spaces) (rest : List Char) : AtGap (spaces ++ rest) := by
  obtain ⟨c, more, rfl⟩ := List.exists_cons_of_ne_nil h.1
  rw [h.2 c List.mem_cons_self]
  exact stops_cons.mpr (by decide)

/-- What comes after the parameters begins where one of them can end. -/
theorem atGap_ending (h : EndingText full ending trailing) (hleft : AtBreak left) :
    AtGap (ending ++ left) := by
  cases h with
  | absent blank =>
      by_cases hne : ending = []
      · rw [hne]
        exact hleft.mono fun c hc => by simp_all
      · exact atGap_spaces ⟨hne, blank⟩ left
  | marked delimiter _ =>
      rw [List.append_assoc]
      exact atGap_spaces delimiter _
  | unmarked _ delimiter _ _ _ _ =>
      rw [List.append_assoc]
      exact atGap_spaces delimiter _

/-- Where parameters begin, the word before them has ended. -/
theorem atGap_params (h : MiddlesText middles params) (he : EndingText full ending trailing)
    (hleft : AtBreak left) : AtGap (middles ++ (ending ++ left)) := by
  cases h with
  | nil =>
      rw [List.nil_append]
      exact atGap_ending he hleft
  | cons delimiter _ _ =>
      rw [List.append_assoc, List.append_assoc]
      exact atGap_spaces delimiter _

/-- **Parameters are read up to the break after them.** -/
theorem readParams_complete (h : MiddlesText middles params) (hroom : params.length ≤ room)
    (he : EndingText (params.length = room) ending trailing) (hleft : AtBreak left) :
    readParams room (middles ++ (ending ++ left)) = .ok ((params, trailing), left) := by
  induction h generalizing room with
  | nil =>
      rw [List.nil_append]
      cases he with
      | absent blank => exact readParams_blank blank hleft
      | marked delimiter valid =>
          rw [List.append_assoc, List.cons_append]
          exact readParams_marked delimiter valid hleft
      | unmarked noRoom delimiter nonempty unspaced unsigned valid =>
          obtain rfl : 0 = room := noRoom
          rw [List.append_assoc]
          exact readParams_unmarked delimiter nonempty unspaced unsigned valid hleft
  | @cons spaces cs more params delimiter valid next ih =>
      -- Each parameter takes one place, so `full` means the same for the ones after it.
      obtain ⟨room, rfl⟩ : ∃ n, room = n + 1 := ⟨room - 1, by simp at hroom; omega⟩
      rw [List.length_cons, Nat.add_right_cancel_iff] at he
      rw [List.append_assoc, List.append_assoc]
      have hgap : Stops isParamChar (more ++ (ending ++ left)) :=
        (atGap_params next he hleft).stops (by decide) (by decide) (by decide)
      exact readParams_middle delimiter valid hgap (ih (by simpa using hroom) he)

/-- **What is read are parameters.** -/
theorem readParams_sound (h : readParams room cs = .ok ((params, trailing), left)) :
    ∃ middles ending, cs = middles ++ (ending ++ left) ∧ MiddlesText middles params ∧
      params.length ≤ room ∧ EndingText (params.length = room) ending trailing := by
  fun_induction readParams room cs generalizing params trailing left with
  | case1 room spaced hdrop =>
      obtain ⟨⟨rfl, rfl⟩, rfl⟩ := by simpa using h
      obtain ⟨spaces, hspaces, happ⟩ := exists_isSpaces_append spaced
      rw [hdrop] at happ
      exact ⟨[], spaces, by simpa using happ, .nil, Nat.zero_le _, .absent hspaces.2⟩
  | case2 room spaced c rest hdrop hbreak =>
      obtain ⟨⟨rfl, rfl⟩, rfl⟩ := by simpa using h
      obtain ⟨spaces, hspaces, happ⟩ := exists_isSpaces_append spaced
      rw [hdrop] at happ
      exact ⟨[], spaces, happ, .nil, Nat.zero_le _, .absent hspaces.2⟩
  | case3 room spaced rest hdrop hbreak =>
      obtain ⟨⟨rfl, rfl⟩, rfl⟩ := by simpa using h
      obtain ⟨spaces, hspaces, happ⟩ := exists_isSpaces_append spaced
      rw [hdrop] at happ
      refine ⟨[], spaces ++ ':' :: rest.takeWhile (!isBreak ·), ?_, .nil, Nat.zero_le _,
        .marked hspaces (isUnbroken_takeWhile rest)⟩
      rw [happ, List.append_assoc, List.cons_append, List.takeWhile_append_dropWhile]
      rfl
  | case4 spaced c rest hdrop hbreak hsign =>
      obtain ⟨⟨rfl, rfl⟩, rfl⟩ := by simpa using h
      obtain ⟨spaces, hspaces, happ⟩ := exists_isSpaces_append spaced
      have hstop := stops_dropWhile (· == ' ') spaced
      rw [hdrop] at happ hstop
      -- There is no room, and what is left begins with neither space nor sign.
      have hhead : ((c :: rest).takeWhile (!isBreak ·)).head? = some c := by simp [hbreak]
      refine ⟨[], spaces ++ (c :: rest).takeWhile (!isBreak ·), ?_, .nil, Nat.le_refl _,
        .unmarked rfl hspaces (List.ne_nil_of_mem (List.mem_of_mem_head? hhead)) ?_ ?_
          (isUnbroken_takeWhile (c :: rest))⟩
      · rw [happ, List.append_assoc, List.takeWhile_append_dropWhile]
        rfl
      · simpa [hhead] using stops_cons.mp hstop
      · simpa [hhead] using hsign
  | case5 => exact absurd h (by simp)
  | case6 => exact absurd h (by simp)
  | case7 spaced c rest hdrop hbreak hsign room param after hrun params' trailing' _ hread ih =>
      obtain ⟨⟨rfl, rfl⟩, rfl⟩ := by simpa using h
      obtain ⟨spaces, hspaces, happ⟩ := exists_isSpaces_append spaced
      obtain ⟨hsplit, hne, hclass, -⟩ := readRun_eq_some_iff.mp hrun
      obtain ⟨middles, ending, rfl, hmiddles, hlen, hending⟩ := ih hread
      obtain ⟨d, more, rfl⟩ := List.exists_cons_of_ne_nil hne
      obtain ⟨rfl, -⟩ := List.cons.inj hsplit
      refine ⟨spaces ++ (c :: more) ++ middles, ending, ?_,
        .cons hspaces ⟨hne, by simpa using hsign, hclass⟩ hmiddles, by simpa using hlen, ?_⟩
      · rw [happ, hdrop, hsplit]
        simp
      · rw [List.length_cons, Nat.succ_eq_add_one, Nat.add_right_cancel_iff]
        exact hending
  | case8 room cs hspace =>
      obtain ⟨⟨rfl, rfl⟩, rfl⟩ := by simpa using h
      exact ⟨[], [], rfl, .nil, Nat.zero_le _, .absent (by simp)⟩

end Params

/-! ### Lines -/

/-- A line is over at a CRLF, or at the end of the text. -/
theorem readEnd_eq_ok_iff : readEnd cs = .ok () ↔ IsLineEnd cs := by
  unfold readEnd IsLineEnd
  split <;> simp_all

theorem atBreak_of_isLineEnd (h : IsLineEnd cs) : AtBreak cs := by
  rcases h with rfl | rfl
  · exact stops_nil
  · exact stops_cons.mpr (by decide)

/-- Where a verb begins, the sections with a sign have ended. -/
theorem stops_verb {p : Char → Bool} {verb : List Char} (h : IsVerb verb) (rest : List Char)
    (hp : ∀ c, c.isAlphanum = true → p c = false) : Stops p (verb ++ rest) := by
  obtain ⟨hne, hclass⟩ := alphanum_of_isVerb h
  obtain ⟨c, more, rfl⟩ := List.exists_cons_of_ne_nil hne
  exact stops_cons.mpr (hp c (hclass c List.mem_cons_self))

/-- No letter and no digit is taken for the sign of a section. -/
theorem not_sign_of_alphanum {sign c : Char} (hsign : sign.isAlphanum = false)
    (hc : c.isAlphanum = true) : (c == sign || c == ' ') = false := by
  rw [Bool.or_eq_false_iff, beq_eq_false_iff_ne, beq_eq_false_iff_ne]
  constructor
  · rintro rfl
    rw [hsign] at hc
    exact absurd hc (by simp)
  · rintro rfl
    exact absurd hc (by decide)

/-- **The lines of the grammar are read**, as the messages that they are written forms of. -/
theorem read_complete {m : Message} (h : LineText cs m) : read cs = .ok m := by
  obtain ⟨body, ending, rfl, hbody, hend⟩ := h
  cases hbody with
  | @parts tagged sourced verb _ tags source params trailing labels sender word arguments =>
  cases arguments with
  | @parts middles after _ _ before room rest =>
  -- From the right: what each section needs to see is the first character of the next.
  have hbreak := atBreak_of_isLineEnd hend
  have hparams := readParams_complete before room rest hbreak
  have hgap : Stops Char.isAlphanum (middles ++ (after ++ ending)) :=
    (atGap_params before rest hbreak).stops (by decide) (by decide) (by decide)
  have hverb := readVerb_complete word hgap
  have hcolon := stops_verb word (middles ++ (after ++ ending))
    fun c => not_sign_of_alphanum (by decide : ':'.isAlphanum = false)
  have hsource := readSource_complete sender hcolon
  have hat : Stops (fun c => c == '@' || c == ' ')
      (sourced ++ (verb ++ (middles ++ (after ++ ending)))) := by
    cases sender with
    | absent =>
        exact stops_verb word _ fun c => not_sign_of_alphanum (by decide : '@'.isAlphanum = false)
    | present form delimiter => exact stops_cons.mpr (by decide)
  have htags := readTags_complete labels hat
  have happ : tagged ++ sourced ++ verb ++ (middles ++ after) ++ ending =
      tagged ++ (sourced ++ (verb ++ (middles ++ (after ++ ending)))) := by simp
  rw [happ, read]
  refine bind_of_ok htags (bind_of_ok hsource (bind_of_ok hverb (bind_of_ok hparams ?_)))
  exact bind_of_ok (readEnd_eq_ok_iff.mpr hend) rfl

/-- **What is read is a line of the grammar.** -/
theorem read_sound {m : Message} (h : read cs = .ok m) : LineText cs m := by
  obtain ⟨⟨tags, afterTags⟩, htags, h⟩ := bind_eq_ok_iff.mp h
  obtain ⟨⟨source, afterSource⟩, hsource, h⟩ := bind_eq_ok_iff.mp h
  obtain ⟨⟨verb, afterVerb⟩, hverb, h⟩ := bind_eq_ok_iff.mp h
  obtain ⟨⟨⟨params, trailing⟩, ending⟩, hparams, h⟩ := bind_eq_ok_iff.mp h
  obtain ⟨⟨⟩, hend, h⟩ := bind_eq_ok_iff.mp h
  obtain rfl := Except.ok.inj h
  obtain ⟨tagged, rfl, labels⟩ := readTags_sound htags
  obtain ⟨sourced, rfl, sender⟩ := readSource_sound hsource
  obtain ⟨rfl, word⟩ := readVerb_sound hverb
  obtain ⟨middles, after, rfl, before, room, rest⟩ := readParams_sound hparams
  exact ⟨tagged ++ sourced ++ verb ++ (middles ++ after), ending, by simp,
    .parts labels sender word (.parts before room rest), readEnd_eq_ok_iff.mp hend⟩

end Line

namespace Message

open Grammar

variable {line : String} {m : Message}

/-- A text is read as its characters are. -/
theorem parse_eq_ok_iff_read : parse line = .ok m ↔ Line.read line.toList = .ok m := by
  unfold parse
  cases Line.read line.toList <;> simp

/-- **A line is read exactly if it is a line of the grammar**, and then as the message that it is
a written form of. -/
theorem parse_eq_ok_iff_lineText (line : String) (m : Message) :
    parse line = .ok m ↔ LineText line.toList m := by
  rw [parse_eq_ok_iff_read]
  exact ⟨Line.read_sound, Line.read_complete⟩

/-- A carriage return by itself does not end a line. -/
theorem lone_return_is_no_end :
    ¬ ∀ (line : String) (m : Message), parse line = .ok m ↔
      ∃ body ending, line.toList = body ++ ending ∧ BodyText body m ∧
        (ending = [] ∨ ending = ['\r']) := by
  intro h
  have hparams : ParamsText ([] ++ []) ([], none) :=
    .parts .nil (Nat.zero_le _) (.absent (by simp))
  have hbody : BodyText ([] ++ [] ++ ['P', 'I', 'N', 'G'] ++ ([] ++ [])) (ofVerb "PING") :=
    .parts .absent .absent (.inl ⟨by simp, List.all_eq_true.mp (by decide)⟩) hparams
  have hread := (h "PING\r" (ofVerb "PING")).mpr
    ⟨['P', 'I', 'N', 'G'], ['\r'], by decide, hbody, .inr rfl⟩
  exact absurd hread (by decide)

end Message

end RelayChat
