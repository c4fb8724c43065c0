import RelayChat.Proofs.Grammar

/-!
# Sources are read by their grammar

Where a source ends is decided by what stands around it: in a line a space ends it,
by itself the end of the text does.  `AtBoundary` is what the two have in common,
and the reader of sources is exact at every such place (`read_sound`,
`read_complete`).

The reader tries a server first and gives it up when it does not reach the boundary.
Nothing is lost by this: up to a boundary a text has one reading as a host at most
(`append_inj_of_boundary`), so a source that is no host is left to the reader of
users, and there the first sign after the nickname decides which form it is.
-/

namespace RelayChat

open Text Grammar

variable {cs left name host nick user : List Char} {c : Char}

/-- What follows a source: the end of the text, or a space. -/
def AtBoundary (left : List Char) : Prop :=
  Stops (· != ' ') left

theorem AtBoundary.stops {p : Char → Bool} (h : AtBoundary left) (hp : p ' ' = false) :
    Stops p left :=
  h.mono fun c hc => by
    have hspace : c = ' ' := by simpa using hc
    rw [hspace, hp]

/-- Up to a boundary there is one text without spaces. -/
theorem append_inj_of_boundary {a b x y : List Char} (ha : ' ' ∉ a) (hb : ' ' ∉ b)
    (hx : AtBoundary x) (hy : AtBoundary y) (h : a ++ x = b ++ y) : a = b := by
  have hself : ∀ {l : List Char}, ' ' ∉ l → l.takeWhile (· != ' ') = l := by
    intro l hl
    refine List.takeWhile_eq_self_iff.mpr fun c hc => ?_
    simpa using fun hspace : c = ' ' => hl (hspace ▸ hc)
  calc a = (a ++ x).takeWhile (· != ' ') := by rw [takeWhile_append_of_stops a hx, hself ha]
    _ = (b ++ y).takeWhile (· != ' ') := by rw [h]
    _ = b := by rw [takeWhile_append_of_stops b hy, hself hb]

/-! ### Hosts -/

namespace Host

private theorem dot_not_inside (c : Char) (h : (c == '.') = true) : isLabelChar c = false := by
  rw [eq_of_beq h]
  decide

theorem readName_eq_some_iff :
    readName cs = some (name, left) ↔
      cs = name ++ left ∧ IsHostName name ∧ LabelsStop isLabelChar (· == '.') left :=
  readLabels_eq_some_iff dot_not_inside

theorem readAddress_eq_some_iff :
    readAddress cs = some (name, left) ↔
      cs = name ++ left ∧ IsAddress name ∧ Stops isAddressChar left := by
  unfold readAddress
  constructor
  · intro h
    split at h
    · next run rest hrun =>
      obtain ⟨rfl, -, hclass, hstop⟩ := readRun_eq_some_iff.mp hrun
      split at h
      · next hcolon =>
        obtain ⟨rfl, rfl⟩ := by simpa using h
        exact ⟨rfl, ⟨hcolon, hclass⟩, hstop⟩
      · exact absurd h (by simp)
    · exact absurd h (by simp)
  · rintro ⟨rfl, ⟨hcolon, hclass⟩, hstop⟩
    rw [readRun_eq_some_iff.mpr ⟨rfl, List.ne_nil_of_mem hcolon, hclass, hstop⟩]
    exact if_pos hcolon

theorem isLabelChar_or_dot (h : IsHostName name) (hc : c ∈ name) :
    isLabelChar c = true ∨ c = '.' := by
  rcases Labels.mem h hc with hc | hc | hc
  · exact .inl (by simp [isLabelChar, hc])
  · exact .inl hc
  · exact .inr (by simpa using hc)

/-- A sign that is in no label and in no address is in no host. -/
theorem not_mem_of_isHost (h : IsHost name) (hlabel : isLabelChar c = false)
    (haddress : isAddressChar c = false) : c ∉ name := by
  intro hc
  rcases h with h | h
  · rcases isLabelChar_or_dot h hc with hin | rfl
    · rw [hlabel] at hin
      exact absurd hin (by simp)
    · exact absurd haddress (by decide)
  · rw [h.2 c hc] at haddress
    exact absurd haddress (by simp)

theorem colon_not_mem (h : IsHostName name) : ':' ∉ name := by
  intro hc
  rcases isLabelChar_or_dot h hc with hin | hin
  · exact absurd hin (by decide)
  · exact absurd hin (by decide)

/-- A host name is not taken for an address. -/
theorem readAddress_eq_none (h : IsHostName name) (hleft : AtBoundary left) :
    readAddress (name ++ left) = none := by
  rw [readAddress]
  split
  · next run rest hrun =>
    obtain ⟨happ, -, hclass, -⟩ := readRun_eq_some_iff.mp hrun
    refine if_neg fun hcolon => ?_
    have htake : (name ++ left).takeWhile isAddressChar = name.takeWhile isAddressChar :=
      takeWhile_append_of_stops name (hleft.stops (by decide))
    have hmem : ':' ∈ name.takeWhile isAddressChar := by
      rw [← htake, happ, List.takeWhile_append_of_pos hclass]
      exact List.mem_append_left _ hcolon
    exact colon_not_mem h (List.takeWhile_subset _ hmem)
  · rfl

/-- A host is read up to the boundary after it. -/
theorem read_complete (h : IsHost host) (hleft : AtBoundary left) :
    read (host ++ left) = some (host, left) := by
  rw [read]
  rcases h with h | h
  · have hstop : LabelsStop isLabelChar (· == '.') left := by
      cases left with
      | nil => trivial
      | cons c rest =>
          have hc : c = ' ' := by simpa [AtBoundary] using hleft
          rw [hc]
          exact ⟨by decide, fun hdot => absurd hdot (by decide)⟩
    rw [readAddress_eq_none h hleft]
    exact readName_eq_some_iff.mpr ⟨rfl, h, hstop⟩
  · rw [readAddress_eq_some_iff.mpr ⟨rfl, h, hleft.stops (by decide)⟩]

theorem read_sound (h : read cs = some (host, left)) : cs = host ++ left ∧ IsHost host := by
  rw [read] at h
  split at h
  · next taken haddress =>
    obtain rfl := by simpa using h
    obtain ⟨happ, hhost, -⟩ := readAddress_eq_some_iff.mp haddress
    exact ⟨happ, .inr hhost⟩
  · obtain ⟨happ, hhost, -⟩ := readName_eq_some_iff.mp h
    exact ⟨happ, .inl hhost⟩

end Host

namespace Source

/-! ### Nicknames and masks -/

theorem readNick_eq_some_iff :
    readNick cs = some (nick, left) ↔
      cs = nick ++ left ∧ IsNick nick ∧ Stops isNickChar left := by
  constructor
  · intro h
    unfold readNick at h
    split at h
    · exact absurd h (by simp)
    · next c rest =>
      split at h
      · next hc =>
        obtain ⟨rfl, rfl⟩ := by simpa using h
        refine ⟨?_, ⟨c, _, rfl, hc, fun d hd => List.mem_takeWhile_imp hd⟩, stops_dropWhile _ _⟩
        rw [List.cons_append, List.takeWhile_append_dropWhile]
      · exact absurd h (by simp)
  · rintro ⟨rfl, ⟨c, rest, rfl, hc, hrest⟩, hstop⟩
    rw [List.cons_append, readNick, if_pos hc, takeWhile_append_of_stops rest hstop,
      dropWhile_append_of_stops hrest hstop, List.takeWhile_eq_self_iff.mpr hrest]

theorem not_mem_of_isNick (h : IsNick nick) (hc : isNickChar c = false) : c ∉ nick := by
  obtain ⟨d, rest, rfl, hd, hrest⟩ := h
  intro hmem
  rcases List.mem_cons.mp hmem with rfl | hmem
  · simp [isNickChar, hd] at hc
  · simp [hrest c hmem] at hc

/-- Without `@` or `!` there is no mask. -/
theorem readMask_eq_none (h : AtBoundary left) : readMask left = none := by
  cases left with
  | nil => rfl
  | cons c rest =>
      have hc : c = ' ' := by simpa [AtBoundary] using h
      rw [hc]
      rfl

theorem readMask_host (h : IsHost host) (hleft : AtBoundary left) :
    readMask ('@' :: host ++ left) = some (none, host, left) := by
  rw [List.cons_append, readMask, Host.read_complete h hleft]
  rfl

theorem readMask_user (hu : IsUserName user) (h : IsHost host) (hleft : AtBoundary left) :
    readMask ('!' :: user ++ '@' :: host ++ left) = some (some user, host, left) := by
  have hstop : Stops isUserChar ('@' :: host ++ left) := stops_cons.mpr (by decide)
  have hrun : readRun isUserChar (user ++ ('@' :: host ++ left)) =
      some (user, '@' :: host ++ left) := readRun_eq_some_iff.mpr ⟨rfl, hu.1, hu.2, hstop⟩
  rw [List.append_assoc, List.cons_append, readMask, hrun]
  simp only [List.cons_append, Host.read_complete h hleft]
  rfl

/-- What a mask is made of. -/
theorem readMask_sound {u? : Option (List Char)} (h : readMask cs = some (u?, host, left)) :
    IsHost host ∧
      ((u? = none ∧ cs = '@' :: host ++ left) ∨
        ∃ user, u? = some user ∧ IsUserName user ∧ cs = '!' :: user ++ '@' :: host ++ left) := by
  unfold readMask at h
  split at h
  · next rest =>
    obtain ⟨⟨host', left'⟩, hread, heq⟩ := Option.map_eq_some_iff.mp h
    obtain ⟨rfl, rfl, rfl⟩ := by simpa using heq
    obtain ⟨rfl, hhost⟩ := Host.read_sound hread
    exact ⟨hhost, .inl ⟨rfl, rfl⟩⟩
  · next rest =>
    split at h
    · next user rest' hrun =>
      obtain ⟨rfl, hne, hclass, -⟩ := readRun_eq_some_iff.mp hrun
      obtain ⟨⟨host', left'⟩, hread, heq⟩ := Option.map_eq_some_iff.mp h
      obtain ⟨rfl, rfl, rfl⟩ := by simpa using heq
      obtain ⟨rfl, hhost⟩ := Host.read_sound hread
      exact ⟨hhost, .inr ⟨user, rfl, ⟨hne, hclass⟩, by simp⟩⟩
    · exact absurd h (by simp)
  · exact absurd h (by simp)

/-! ### Sources -/

/-- A sign that is in no part of a source, and does not stand between two, is in no source. -/
theorem not_mem_of_sourceText {c : Char} {source : Source} (h : SourceText cs source)
    (hlabel : Host.isLabelChar c = false) (haddress : Host.isAddressChar c = false)
    (hnick : isNickChar c = false) (huser : isUserChar c = false) (hsign : c ≠ '@' ∧ c ≠ '!') :
    c ∉ cs := by
  have hhost : ∀ {name : List Char}, IsHost name → c ∉ name := fun h =>
    Host.not_mem_of_isHost h hlabel haddress
  have hnick : ∀ {nick : List Char}, IsNick nick → c ∉ nick := fun h =>
    not_mem_of_isNick h hnick
  cases h with
  | server host => exact hhost host
  | nick valid _ => exact hnick valid
  | atHost valid host => simp [hnick valid, hhost host, hsign]
  | @mask nick user name valid named host =>
      have huser : c ∉ user := by
        intro hmem
        rw [named.2 c hmem] at huser
        cases huser
      simp [hnick valid, huser, hhost host, hsign]

theorem space_not_mem {source : Source} (h : SourceText cs source) : ' ' ∉ cs :=
  not_mem_of_sourceText h (by decide) (by decide) (by decide) (by decide) (by decide)

section Ends

variable {ends : List Char → Bool} {source : Source}

/-- A source that is not a host is left to the reader of users. -/
theorem read_eq_readUser (hends : ∀ left, ends left = true → AtBoundary left)
    (hhost : ¬ IsHost cs) (hspace : ' ' ∉ cs) (hleft : ends left = true) :
    read ends (cs ++ left) = readUser ends (cs ++ left) := by
  rw [read]
  split
  · next name rest hread =>
    obtain ⟨happ, hname⟩ := Host.read_sound hread
    -- A host that reaches a boundary would be all of `cs`, which is none.
    refine if_neg fun hrest => hhost ?_
    have hfree : ' ' ∉ name := Host.not_mem_of_isHost hname (by decide) (by decide)
    rw [append_inj_of_boundary hspace hfree (hends _ hleft) (hends _ hrest) happ]
    exact hname
  · rfl

/-- A nickname without a mask. -/
theorem readUser_nick (hnick : IsNick nick) (hbound : AtBoundary left)
    (hleft : ends left = true) :
    readUser ends (nick ++ left) = .ok (.nickname (String.ofList nick) none none, left) := by
  rw [readUser, readNick_eq_some_iff.mpr ⟨rfl, hnick, hbound.stops (by decide)⟩]
  simp only [readMask_eq_none hbound]
  exact if_pos hleft

/-- A nickname with a mask. -/
theorem readUser_mask {u? : Option (List Char)} {rest : List Char} (hnick : IsNick nick)
    (hstop : Stops isNickChar rest) (hmask : readMask rest = some (u?, host, left))
    (hleft : ends left = true) :
    readUser ends (nick ++ rest) =
      .ok (.nickname (String.ofList nick) (u?.map String.ofList) (some (String.ofList host)),
        left) := by
  rw [readUser, readNick_eq_some_iff.mpr ⟨rfl, hnick, hstop⟩]
  simp only [hmask]
  exact if_pos hleft

/-- What is read as a user is a source, unless it is a host name by itself. -/
theorem readUser_sound
    (hfree : ∀ nick left, cs = nick ++ left → ends left = true → ¬ IsHostName nick)
    (h : readUser ends cs = .ok (source, left)) :
    ∃ text, cs = text ++ left ∧ SourceText text source ∧ ends left = true := by
  rw [readUser] at h
  cases hnick : readNick cs with
  | none => simp [hnick] at h
  | some taken =>
      obtain ⟨nick, rest⟩ := taken
      obtain ⟨rfl, hvalid, -⟩ := readNick_eq_some_iff.mp hnick
      cases hmask : readMask rest with
      | none =>
          simp only [hnick, hmask] at h
          split at h
          · next hends =>
            obtain ⟨rfl, rfl⟩ := by simpa using h
            exact ⟨nick, rfl, .nick hvalid (hfree nick rest rfl hends), hends⟩
          · exact absurd h (by simp)
      | some taken =>
          obtain ⟨u?, host, rest'⟩ := taken
          simp only [hnick, hmask] at h
          split at h
          · next hends =>
            obtain ⟨rfl, rfl⟩ := by simpa using h
            obtain ⟨hhost, ⟨rfl, rfl⟩ | ⟨user, rfl, huser, rfl⟩⟩ := readMask_sound hmask
            · exact ⟨_, by simp, .atHost hvalid hhost, hends⟩
            · exact ⟨_, by simp, .mask hvalid huser hhost, hends⟩
          · exact absurd h (by simp)

/-- **A source is read up to the place where it ends.** -/
theorem read_complete (hends : ∀ left, ends left = true → AtBoundary left)
    (h : SourceText cs source) (hleft : ends left = true) :
    read ends (cs ++ left) = .ok (source, left) := by
  have hspace := space_not_mem h
  have hbound := hends left hleft
  have hat : ∀ {name : List Char}, '@' ∈ name → ¬ IsHost name := fun hmem h =>
    Host.not_mem_of_isHost h (by decide) (by decide) hmem
  cases h with
  | server host =>
      rw [read, Host.read_complete host hbound]
      exact if_pos hleft
  | nick valid noHost =>
      -- No nickname is an address, for want of a colon.
      have hhost : ¬ IsHost cs := fun h => h.elim noHost fun haddress =>
        not_mem_of_isNick valid (by decide) haddress.1
      rw [read_eq_readUser hends hhost hspace hleft]
      exact readUser_nick valid hbound hleft
  | @atHost nick name valid host =>
      rw [read_eq_readUser hends (hat (by simp)) hspace hleft, List.append_assoc]
      exact readUser_mask valid (stops_cons.mpr (by decide)) (readMask_host host hbound) hleft
  | @mask nick user name valid named host =>
      rw [read_eq_readUser hends (hat (by simp)) hspace hleft]
      have happ : (nick ++ '!' :: user ++ '@' :: name) ++ left =
          nick ++ ('!' :: user ++ '@' :: name ++ left) := by simp
      rw [happ]
      exact readUser_mask valid (stops_cons.mpr (by decide)) (readMask_user named host hbound)
        hleft

/-- **What is read is a source**, and it ends where it may. -/
theorem read_sound (hends : ∀ left, ends left = true → AtBoundary left)
    (h : read ends cs = .ok (source, left)) :
    ∃ text, cs = text ++ left ∧ SourceText text source ∧ ends left = true := by
  rw [read] at h
  cases hread : Host.read cs with
  | none =>
      simp only [hread] at h
      -- A nickname that were a host name would have been read as a host.
      refine readUser_sound (fun nick left' happ hleft hhost => ?_) h
      have hcomplete := Host.read_complete (.inl hhost) (hends left' hleft)
      rw [← happ, hread] at hcomplete
      exact absurd hcomplete (by simp)
  | some taken =>
      obtain ⟨name, rest⟩ := taken
      simp only [hread] at h
      split at h
      · next hrest =>
        obtain ⟨rfl, rfl⟩ := by simpa using h
        obtain ⟨rfl, hhost⟩ := Host.read_sound hread
        exact ⟨name, rfl, .server hhost, hrest⟩
      · next hrest =>
        refine readUser_sound (fun nick left' happ hleft hhost => hrest ?_) h
        have hcomplete := Host.read_complete (.inl hhost) (hends left' hleft)
        rw [← happ, hread] at hcomplete
        obtain ⟨rfl, rfl⟩ := by simpa using hcomplete
        exact hleft

end Ends

/-- **The sources by themselves** are those of the grammar. -/
theorem parse_eq_ok_iff {s : String} {source : Source} :
    parse s = .ok source ↔ SourceText s.toList source := by
  have hends : ∀ left : List Char, left.isEmpty = true → AtBoundary left := by
    intro left h
    rw [List.isEmpty_iff.mp h]
    exact stops_nil
  unfold parse ofChars?
  constructor
  · intro h
    split at h
    · next source' hsource =>
      obtain rfl := by simpa using h
      split at hsource
      · next source'' left hread =>
        obtain rfl := by simpa using hsource
        obtain ⟨text, happ, htext, hleft⟩ := read_sound hends hread
        rw [happ, List.isEmpty_iff.mp hleft, List.append_nil]
        exact htext
      · exact absurd hsource (by simp)
    · exact absurd h (by simp)
  · intro h
    have hread := read_complete hends h List.isEmpty_nil
    rw [List.append_nil] at hread
    simp [hread]

/-- A source is printed as it is written. -/
theorem chars_of_sourceText {source : Source} (h : SourceText cs source) : source.chars = cs := by
  cases h <;> simp [chars]

end Source

end RelayChat
