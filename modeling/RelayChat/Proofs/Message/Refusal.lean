import RelayChat.Proofs.Message.Acceptance

/-!
# Where reading a line stops

A text that is no line of the grammar is refused at one place, under the rule that
could not be followed there.  `Refuses` has the ways in which this can happen, one for
each thing that the grammar asks for: what was read up to the place, and what is wrong
with the text from there on.  A reader that fails does so in one of these ways
(`refuses_of_read`).

What was read is the beginning of a line in every one of them (`Refuses.viable`).  It
needs no more than the thing that was missing, and a verb.  Only after tags that go on
to the end of the text there is a second case: the last value may end in a backslash,
which pairs with whatever comes next and so wants one character more.

Places are told in bytes.  They count the text that was read, which is made of whole
characters.
-/

namespace RelayChat

open Text Grammar

/-! ### Bytes -/

namespace Line

theorem byteCount_append (front back : List Char) :
    byteCount (front ++ back) = byteCount front + byteCount back := by
  induction front with
  | nil => simp [byteCount]
  | cons c front ih => rw [List.cons_append, byteCount, byteCount, ih, Nat.add_assoc]

theorem utf8ByteSize_ofList (cs : List Char) :
    (String.ofList cs).utf8ByteSize = byteCount cs := by
  induction cs with
  | nil => rfl
  | cons c cs ih =>
      rw [String.ofList_cons, String.utf8ByteSize_append, String.utf8ByteSize_singleton, ih,
        byteCount]

end Line

/-- After the bytes of the first characters come the other ones. -/
theorem LineError.afterBytes_append (front back : List Char) :
    afterBytes (Line.byteCount front) (front ++ back) = some back := by
  induction front with
  | nil => simp [Line.byteCount, afterBytes]
  | cons c front ih =>
      have hpos : c.utf8Size + Line.byteCount front ≠ 0 := by
        have := c.utf8Size_pos
        omega
      rw [List.cons_append, Line.byteCount, afterBytes]
      · rw [if_neg (by omega), Nat.add_sub_cancel_left, ih]
      · exact hpos

/-! ### Tags that go on to the end of the text -/

/-- What is read as a value can become one. -/
theorem TagValue.read_begun (cs : List Char) : ∃ more, IsValue ((read cs).1 ++ more) := by
  fun_induction read cs with
  | case1 => exact ⟨[], .nil⟩
  | case2 => exact ⟨['s'], .pair .nil⟩
  | case3 c rest value left heq ih =>
      rw [heq] at ih
      obtain ⟨more, hmore⟩ := ih
      exact ⟨more, .pair hmore⟩
  | case4 c rest => exact ⟨[], .nil⟩
  | case5 c rest hlone hpair hc value left heq ih =>
      rw [heq] at ih
      obtain ⟨more, hmore⟩ := ih
      have hne : c ≠ '\\' := by
        rintro rfl
        cases rest with
        | nil => exact hlone rfl rfl
        | cons d rest => exact hpair d rest rfl rfl
      exact ⟨more, .plain hne (by simpa using hc) hmore⟩

namespace Line

variable {cs left : List Char}

/-- What is read as a tag can become one. -/
theorem readTag_begun {tag : Tag} (h : readTag cs = .ok (tag, left)) :
    ∃ text more tag', cs = text ++ left ∧ TagText (text ++ more) tag' := by
  unfold readTag at h
  split at h
  · exact absurd h (by simp)
  · next key rest hkey =>
    obtain ⟨text, rfl, htext⟩ := TagKey.read_sound hkey
    obtain ⟨-, rfl⟩ := by simpa using h
    obtain ⟨more, hmore⟩ := TagValue.read_begun rest
    have happ : text ++ '=' :: rest =
        text ++ '=' :: (TagValue.read rest).1 ++ (TagValue.read rest).2 := by
      rw [List.append_assoc, List.cons_append, TagValue.read_append]
    have htag := TagText.valued htext hmore
    rw [← List.cons_append, ← List.append_assoc] at htag
    exact ⟨_, more, _, happ, htag⟩
  · next key left' _ hkey =>
    obtain ⟨text, rfl, htext⟩ := TagKey.read_sound hkey
    obtain ⟨-, rfl⟩ := by simpa using h
    exact ⟨text, [], _, rfl, by rw [List.append_nil]; exact .bare htext⟩

/-- What is read as a list of tags can become one. -/
theorem readMoreTags_begun {tag : Tag} {tags : List Tag} {after : List Char}
    (hfirst : readTag cs = .ok (tag, after)) (h : readMoreTags after = (tags, left)) :
    ∃ text more tags', cs = text ++ left ∧ TagsText (text ++ more) tags' := by
  have hlast : ∀ {cs tag}, readTag cs = .ok (tag, left) →
      ∃ text more tags', cs = text ++ left ∧ TagsText (text ++ more) tags' := by
    intro cs tag htag
    obtain ⟨text, more, tag', happ, htext⟩ := readTag_begun htag
    exact ⟨text, more, [tag'], happ, .single htext⟩
  fun_induction readMoreTags after generalizing cs tag tags with
  | case1 rest next left' hread tags' left'' heq ih =>
      obtain ⟨-, rfl⟩ := by simpa using h
      obtain ⟨text, more, others, rfl, hmore⟩ := ih hread heq
      -- A semicolon follows the tag, so it is whole.
      obtain ⟨one, rfl, hone⟩ := readTag_sound hfirst (List.cons_ne_nil _ _)
      refine ⟨one ++ ';' :: text, more, tag :: others, by simp, ?_⟩
      rw [List.append_assoc, List.cons_append]
      exact .cons hone hmore
  | case2 rest stop hread =>
      obtain ⟨-, rfl⟩ := by simpa using h
      exact hlast hfirst
  | case3 after hsemicolon =>
      obtain ⟨-, rfl⟩ := by simpa using h
      exact hlast hfirst

/-! ### The ways in which a line is refused -/

/-- **How a line is refused**: the text that was read, the text that is left, and the rule that
is named. -/
inductive Refuses : List Char → List Char → Option LineRule → Prop
  /-- The first tag has no name, whatever sign and vendor there are. -/
  | tags {plus slashed left : List Char} {clientOnly : Bool} {vendor : Option String}
      (sign : PlusText plus clientOnly) (owner : VendorText slashed vendor)
      (noName : Stops TagKey.isNameChar left) :
      Refuses ('@' :: (plus ++ slashed)) left (some .tags)
  /-- No space follows the tags, of which the last may not be whole. -/
  | afterTags {text more left : List Char} {tags : List Tag} (begun : TagsText (text ++ more) tags)
      (noSpace : Stops (· == ' ') left) : Refuses ('@' :: text) left none
  /-- The source begins like no nickname. -/
  | source {tagged left : List Char} {tags : List Tag} (labels : TagSection tagged tags)
      (noNick : Stops Source.isNickStart left) : Refuses (tagged ++ [':']) left (some .source)
  /-- No space follows the source. -/
  | afterSource {tagged text left : List Char} {tags : List Tag} {source : RelayChat.Source}
      (labels : TagSection tagged tags) (sender : SourceText text source)
      (noSpace : atSpace left = false) : Refuses (tagged ++ ':' :: text) left (some .source)
  /-- The letters and digits that come next are no verb. -/
  | verb {tagged sourced left : List Char} {tags : List Tag} {source : Option RelayChat.Source}
      (labels : TagSection tagged tags) (sender : SourceSection sourced source)
      (noVerb : ∀ word rest, left = word ++ rest → Stops Char.isAlphanum rest → ¬ IsVerb word) :
      Refuses (tagged ++ sourced) left (some .verb)
  /-- Where a parameter may begin there is a NUL. -/
  | param {tagged sourced verb middles spaces left : List Char} {tags : List Tag}
      {source : Option RelayChat.Source} {params : List String}
      (labels : TagSection tagged tags) (sender : SourceSection sourced source)
      (word : IsVerb verb) (before : MiddlesText middles params)
      (room : params.length < maxParams) (delimiter : IsSpaces spaces) :
      Refuses (tagged ++ sourced ++ verb ++ (middles ++ spaces)) ('\x00' :: left) (some .param)
  /-- Something follows what would be a line by itself. -/
  | lineEnd {body ending left : List Char} {m : Message} (line : BodyText body m)
      (ended : IsLineEnd ending) (more : left ≠ []) :
      Refuses (body ++ ending) left (some .lineEnd)

variable {before : List Char} {rule : Option LineRule} {stop : Stop}
  {tagged sourced : List Char} {tags : List Tag} {source : Option RelayChat.Source}

/-! ### What was read is the beginning of a line -/

/-- A verb is all that tags and a source want. -/
theorem lineText_ping (labels : TagSection tagged tags) (sender : SourceSection sourced source) :
    ∃ m, LineText (tagged ++ sourced ++ "PING".toList) m := by
  have hverb : IsVerb "PING".toList := by decide
  have hparams : ParamsText ([] ++ []) ([], none) :=
    .parts .nil (Nat.zero_le _) (.absent (by simp))
  exact ⟨_, _, [], by simp, .parts labels sender hverb hparams, .inl rfl⟩

/-- **What was read is the beginning of a line.** -/
theorem Refuses.viable (h : Refuses before left rule) : ∃ more m, LineText (before ++ more) m := by
  cases h with
  | @tags plus slashed _ clientOnly vendor sign owner noName =>
      have hname : ∀ c ∈ ['k'], TagKey.isNameChar c = true :=
        List.forall_mem_singleton.mpr (by decide)
      have hkey : KeyText (plus ++ slashed ++ ['k']) _ := .parts sign owner ⟨by simp, hname⟩
      obtain ⟨m, hm⟩ := lineText_ping (.present (.single (.bare hkey)) isSpaces_space) .absent
      exact ⟨"k PING".toList, m, by simpa using hm⟩
  | @afterTags text more _ tags begun noSpace =>
      obtain ⟨m, hm⟩ := lineText_ping (.present begun isSpaces_space) .absent
      exact ⟨more ++ " PING".toList, m, by simpa using hm⟩
  | @source tagged _ tags labels noNick =>
      have hhost : IsHost ['k'] := .inl (.single (by decide) (by simp))
      obtain ⟨m, hm⟩ := lineText_ping labels (.present (.server hhost) isSpaces_space)
      exact ⟨"k PING".toList, m, by simpa using hm⟩
  | afterSource labels sender noSpace =>
      obtain ⟨m, hm⟩ := lineText_ping labels (.present sender isSpaces_space)
      exact ⟨" PING".toList, m, by simpa using hm⟩
  | verb labels sender noVerb =>
      obtain ⟨m, hm⟩ := lineText_ping labels sender
      exact ⟨_, m, hm⟩
  | param labels sender word before room delimiter =>
      refine ⟨[], _, _, [], ?_, .parts labels sender word (.parts before room.le
        (.absent delimiter.2)), .inl rfl⟩
      simp
  | lineEnd line ended more => exact ⟨[], _, _, _, by simp, line, ended⟩

/-! ### A reader that fails refuses -/

end Line

/-- A key is given up where its name should begin. -/
theorem TagKey.refused {cs left : List Char} (h : read cs = .error left) :
    ∃ plus slashed clientOnly vendor, cs = plus ++ slashed ++ left ∧
      PlusText plus clientOnly ∧ VendorText slashed vendor ∧ Stops isNameChar left := by
  unfold read at h
  obtain ⟨plus, hplus, hsign⟩ := splitPlus_sound cs
  obtain ⟨slashed, hslashed, howner⟩ := splitVendor_sound (splitPlus cs).2
  simp only at h
  split at h
  · cases h
  · next hrun =>
    obtain rfl := Except.error.inj h
    refine ⟨plus, slashed, _, _, ?_, hsign, howner, stops_of_readRun_eq_none hrun⟩
    rw [List.append_assoc, ← hslashed, ← hplus]

/-- A source is given up where it begins like no nickname, or after what is a source by itself. -/
theorem Source.refused {ends : List Char → Bool} {cs left : List Char}
    (h : read ends cs = .error left) :
    (cs = left ∧ Stops isNickStart left) ∨
      ∃ text source, cs = text ++ left ∧ SourceText text source ∧ ends left = false := by
  have huser : readUser ends cs = .error left := by
    unfold read at h
    split at h
    · split at h
      · cases h
      · exact h
    · exact h
  rw [readUser] at huser
  cases hnick : readNick cs with
  | none =>
      simp only [hnick] at huser
      obtain rfl := Except.error.inj huser
      refine .inl ⟨rfl, ?_⟩
      cases cs with
      | nil => exact stops_nil
      | cons c rest =>
          refine stops_cons.mpr (Bool.eq_false_iff.mpr fun hc => ?_)
          simp [readNick, hc] at hnick
  | some taken =>
      obtain ⟨nick, rest⟩ := taken
      obtain ⟨rfl, hvalid, -⟩ := readNick_eq_some_iff.mp hnick
      refine .inr ?_
      cases hmask : readMask rest with
      | none =>
          simp only [hnick, hmask] at huser
          split at huser
          · cases huser
          · next hends =>
            obtain rfl := Except.error.inj huser
            have hends : ends rest = false := Bool.eq_false_iff.mpr hends
            by_cases hname : IsHostName nick
            · exact ⟨nick, _, rfl, .server (.inl hname), hends⟩
            · exact ⟨nick, _, rfl, .nick hvalid hname, hends⟩
      | some taken =>
          obtain ⟨u?, host, rest'⟩ := taken
          simp only [hnick, hmask] at huser
          split at huser
          · cases huser
          · next hends =>
            obtain rfl := Except.error.inj huser
            have hends : ends rest' = false := Bool.eq_false_iff.mpr hends
            obtain ⟨hhost, ⟨rfl, rfl⟩ | ⟨user, rfl, hname, rfl⟩⟩ := readMask_sound hmask
            · exact ⟨_, _, by simp, .atHost hvalid hhost, hends⟩
            · exact ⟨_, _, by simp, .mask hvalid hname hhost, hends⟩

namespace Line

theorem stops_of_readSpaces (h : readSpaces cs = .error stop) :
    stop = ⟨cs, none⟩ ∧ Stops (· == ' ') cs := by
  unfold readSpaces at h
  split at h
  · cases h
  · next hspace =>
    obtain rfl := Except.error.inj h
    refine ⟨rfl, ?_⟩
    cases cs with
    | nil => exact stops_nil
    | cons c rest =>
        refine stops_cons.mpr (beq_eq_false_iff_ne.mpr ?_)
        rintro rfl
        exact hspace rest rfl

theorem key_of_readTag (h : readTag cs = .error left) : TagKey.read cs = .error left := by
  unfold readTag at h
  split at h
  · next hkey => rw [hkey, Except.error.inj h]
  · cases h
  · cases h

theorem refuses_of_readTags (h : readTags cs = .error stop) :
    ∃ before, cs = before ++ stop.left ∧ Refuses before stop.left stop.rule := by
  unfold readTags at h
  split at h
  · next rest =>
    split at h
    · next left hread =>
      obtain rfl := Except.error.inj h
      obtain ⟨plus, slashed, clientOnly, vendor, rfl, hsign, howner, hname⟩ :=
        TagKey.refused (key_of_readTag hread)
      exact ⟨'@' :: (plus ++ slashed), by simp, .tags hsign howner hname⟩
    · next tag after htag =>
      rcases hmore : readMoreTags after with ⟨more, last⟩
      simp only [hmore] at h
      split at h
      · cases h
      · next stop' hspaces =>
        obtain rfl := Except.error.inj h
        obtain ⟨rfl, hspace⟩ := stops_of_readSpaces hspaces
        obtain ⟨text, more, tags, rfl, htext⟩ := readMoreTags_begun htag hmore
        exact ⟨'@' :: text, rfl, .afterTags htext hspace⟩
  · cases h

theorem refuses_of_readSource (labels : TagSection tagged tags) (h : readSource cs = .error stop) :
    ∃ before, cs = before ++ stop.left ∧ Refuses (tagged ++ before) stop.left stop.rule := by
  unfold readSource at h
  split at h
  · next rest =>
    split at h
    · next left hread =>
      obtain rfl := Except.error.inj h
      obtain ⟨rfl, hnick⟩ | ⟨text, source, rfl, hsource, hspace⟩ := Source.refused hread
      · exact ⟨[':'], rfl, .source labels hnick⟩
      · exact ⟨':' :: text, rfl, .afterSource labels hsource hspace⟩
    · cases h
  · cases h

theorem refuses_of_readVerb (labels : TagSection tagged tags)
    (sender : SourceSection sourced source) (h : readVerb cs = .error stop) :
    Refuses (tagged ++ sourced) cs stop.rule ∧ stop.left = cs := by
  have hstop : stop = ⟨cs, some .verb⟩ := by
    unfold readVerb at h
    split at h
    · split at h
      · cases h
      · exact (Except.error.inj h).symm
    · exact (Except.error.inj h).symm
  subst hstop
  refine ⟨.verb labels sender ?_, rfl⟩
  rintro word rest rfl hrest hverb
  rw [readVerb_complete hverb hrest] at h
  cases h

/-- Only a NUL can stand in the way of the parameters. -/
theorem readParams_refused {room : Nat} (h : readParams room cs = .error stop) :
    ∃ middles spaces params rest, cs = middles ++ spaces ++ '\x00' :: rest ∧
      MiddlesText middles params ∧ params.length < room ∧ IsSpaces spaces ∧
      stop = ⟨'\x00' :: rest, some .param⟩ := by
  fun_induction readParams room cs with
  | case1 | case2 | case3 | case4 => cases h
  | case5 spaced c rest hdrop hbreak hsign room hrun =>
      obtain rfl := Except.error.inj h
      obtain ⟨spaces, hspaces, happ⟩ := exists_isSpaces_append spaced
      have hstop := stops_dropWhile (· == ' ') spaced
      rw [hdrop] at happ hstop
      have hspace : (c == ' ') = false := (stops_cons (p := (· == ' '))).mp hstop
      have hparam : isParamChar c = false := stops_cons.mp (stops_of_readRun_eq_none hrun)
      obtain rfl : c = '\x00' := by
        simp only [isBreak, Bool.not_eq_true] at hbreak
        simp only [isParamChar, hspace, Bool.false_or, hbreak, Bool.not_eq_false'] at hparam
        exact eq_of_beq hparam
      exact ⟨[], spaces, [], rest, happ, .nil, Nat.succ_pos _, hspaces, rfl⟩
  | case6 spaced c rest hdrop hbreak hsign room param left hrun stop' hread ih =>
      obtain rfl := Except.error.inj h
      obtain ⟨spaces, hspaces, happ⟩ := exists_isSpaces_append spaced
      obtain ⟨hsplit, hne, hclass, -⟩ := readRun_eq_some_iff.mp hrun
      obtain ⟨middles, more, params, after, rfl, hmiddles, hlen, hmore, hstop⟩ := ih hread
      obtain ⟨d, others, rfl⟩ := List.exists_cons_of_ne_nil hne
      obtain ⟨rfl, -⟩ := List.cons.inj hsplit
      refine ⟨spaces ++ (c :: others) ++ middles, more, _, after, ?_,
        .cons hspaces ⟨hne, by simpa using hsign, hclass⟩ hmiddles, by simpa using hlen, hmore,
        hstop⟩
      rw [happ, hdrop, hsplit]
      simp
  | case7 => cases h
  | case8 => cases h

theorem readEnd_refused (h : readEnd cs = .error stop) :
    ∃ ending, cs = ending ++ stop.left ∧ IsLineEnd ending ∧ stop.left ≠ [] ∧
      stop.rule = some .lineEnd := by
  unfold readEnd at h
  split at h
  · cases h
  · cases h
  · next left hleft =>
    obtain rfl := Except.error.inj h
    exact ⟨['\r', '\n'], rfl, .inr rfl, hleft, rfl⟩
  · next left hends hnil hleft =>
    obtain rfl := Except.error.inj h
    exact ⟨[], rfl, .inl rfl, hnil, rfl⟩

/-- **A reader that fails refuses**, at the place and under the rule that it answers with. -/
theorem refuses_of_read (h : read cs = .error stop) :
    ∃ before, cs = before ++ stop.left ∧ Refuses before stop.left stop.rule := by
  rcases bind_eq_error_iff.mp h with htags | ⟨⟨tags, afterTags⟩, htags, hsections⟩
  · exact refuses_of_readTags htags
  obtain ⟨tagged, rfl, labels⟩ := readTags_sound htags
  rcases bind_eq_error_iff.mp hsections with hsource | ⟨⟨source, afterSource⟩, hsource, hwords⟩
  · obtain ⟨before, rfl, hrefuses⟩ := refuses_of_readSource labels hsource
    exact ⟨tagged ++ before, by simp, hrefuses⟩
  obtain ⟨sourced, rfl, sender⟩ := readSource_sound hsource
  rcases bind_eq_error_iff.mp hwords with hverb | ⟨⟨verb, afterVerb⟩, hverb, harguments⟩
  · obtain ⟨hrefuses, hleft⟩ := refuses_of_readVerb labels sender hverb
    exact ⟨tagged ++ sourced, by simp [hleft], by rwa [hleft]⟩
  obtain ⟨rfl, word⟩ := readVerb_sound hverb
  rcases bind_eq_error_iff.mp harguments with
    hparams | ⟨⟨⟨params, trailing⟩, afterParams⟩, hparams, hending⟩
  · obtain ⟨middles, spaces, params, rest, rfl, before, room, delimiter, rfl⟩ :=
      readParams_refused hparams
    exact ⟨tagged ++ sourced ++ verb ++ (middles ++ spaces), by simp,
      .param labels sender word before room delimiter⟩
  obtain ⟨middles, after, rfl, before, room, rest⟩ := readParams_sound hparams
  rcases bind_eq_error_iff.mp hending with hend | ⟨⟨⟩, -, hdone⟩
  · obtain ⟨ending, rfl, hended, hmore, hrule⟩ := readEnd_refused hend
    refine ⟨tagged ++ sourced ++ verb ++ (middles ++ after) ++ ending, by simp, ?_⟩
    rw [hrule]
    exact .lineEnd (.parts labels sender word (.parts before room rest)) hended hmore
  · cases hdone

end Line

namespace Message

/-- **An error points at a real place**: up to it the line is the beginning of one that can be
read, and there it is refused. -/
theorem parse_error_place {line : String} {e : LineError} (h : parse line = .error e) :
    e.line = line ∧ e.offset ≤ line.utf8ByteSize ∧ String.Pos.Raw.IsValid line ⟨e.offset⟩ ∧
      ∃ before : String, before ++ e.remainder = line ∧ before.utf8ByteSize = e.offset ∧
        Line.Refuses before.toList e.remainder.toList e.rule ∧
          ∃ more m, parse (before ++ more) = .ok m := by
  unfold parse at h
  split at h
  · cases h
  · next stop hread =>
    obtain rfl := Except.error.inj h
    obtain ⟨before, happ, hrefuses⟩ := Line.refuses_of_read hread
    have hoffset : Line.byteCount line.toList - Line.byteCount stop.left =
        Line.byteCount before := by
      rw [happ, Line.byteCount_append, Nat.add_sub_cancel]
    have hremainder : LineError.remainder ⟨line, Line.byteCount before, stop.rule⟩ =
        String.ofList stop.left := by
      rw [LineError.remainder, happ, LineError.afterBytes_append, Option.getD_some]
    have hline : String.ofList before ++ String.ofList stop.left = line := by
      rw [← String.ofList_append, ← happ, String.ofList_toList]
    obtain ⟨more, m, hm⟩ := hrefuses.viable
    rw [hoffset, hremainder]
    refine ⟨rfl, ?_, ?_, String.ofList before, hline, Line.utf8ByteSize_ofList before, ?_,
      String.ofList more, m, ?_⟩
    · rw [← hline, String.utf8ByteSize_append, Line.utf8ByteSize_ofList]
      exact Nat.le_add_right _ _
    · refine String.Pos.Raw.isValid_iff_exists_append.mpr ⟨_, _, hline.symm, ?_⟩
      exact String.Pos.Raw.ext (Line.utf8ByteSize_ofList before).symm
    · rw [String.toList_ofList, String.toList_ofList]
      exact hrefuses
    · rw [parse_eq_ok_iff_read, String.toList_append, String.toList_ofList, String.toList_ofList]
      exact Line.read_complete hm

/-- A list of tags that breaks off after a character of two bytes. -/
theorem tags_break_off_place :
    let e : LineError := ⟨"@k=é;!x PING", 5, none⟩
    parse "@k=é;!x PING" = .error e ∧ e.remainder = ";!x PING" ∧
      String.Pos.Raw.IsValid "@k=é;!x PING" ⟨5⟩ ∧
        ∃ before : String, before ++ e.remainder = "@k=é;!x PING" ∧ before.utf8ByteSize = 5 ∧
          ∃ more m, parse (before ++ more) = .ok m := by
  intro e
  have he : parse "@k=é;!x PING" = .error e := by decide +kernel
  obtain ⟨-, -, hvalid, before, hline, hbytes, -, hviable⟩ := parse_error_place he
  exact ⟨he, by decide +kernel, hvalid, before, hline, hbytes, hviable⟩

end Message

end RelayChat
