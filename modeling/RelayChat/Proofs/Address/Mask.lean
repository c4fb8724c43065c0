import RelayChat.Proofs.Message.RoundTrip

/-!
# Sources and their texts

The text of a source does not say where its parts end, and a source can be built
from any parts.  What is written can therefore be cut in another way when it is
read: an `@` inside a user name ends it, a user name without a host is not written
at all, and a nickname that is a host name by itself is read as a server.
`Source.Unambiguous` is the condition under which nothing of the kind happens, said of
the parts alone.

A text has one reading at most, so the condition is exact: the sources that come back
from their texts are the unambiguous ones (`Source.printed_comes_back_iff`).

The second subject is where a text stands.  By itself a source ends where the text
does, in a line before the first space.  The two places are told apart only by the
condition that the reader is given, and a source never holds a space, so that a text
is a source by itself exactly if it is one in a line (`Source.read_alike_in_line`).
-/

namespace RelayChat

open Grammar

variable {cs rest : List Char} {nick user name p verb : String} {source : Source} {m : Message}

/-! ### Parts -/

/-- **Well-formed parts of a mask.**  A user name stands only beside a host. -/
structure User.IsMask (u : User) : Prop where
  /-- The nickname is one. -/
  nickname : IsNick u.nickname.toList
  /-- The user name is not empty, and has no character that would end it. -/
  user : ∀ user ∈ u.user, IsUserName user.toList
  /-- The host is a dotted host name or an IPv6 address. -/
  host : ∀ host ∈ u.host, IsHost host.toList
  /-- Without a host there is no user name. -/
  beside : u.host = none → u.user = none

namespace Source

/-- **A source whose text can be read in one way only.** -/
def Unambiguous : Source → Prop
  | .server name => IsHost name.toList
  | .nickname nick user host =>
    User.IsMask ⟨nick, user, host⟩ ∧ (host = none → ¬ IsHostName nick.toList)

theorem toList_text (source : Source) : source.text.toList = source.chars :=
  String.toList_ofList

/-- **The sources of the grammar** are the unambiguous ones, each under its own text. -/
theorem sourceText_iff : SourceText cs source ↔ source.Unambiguous ∧ source.chars = cs := by
  constructor
  · intro h
    refine ⟨?_, chars_of_sourceText h⟩
    cases h with
    | server host => simpa [Unambiguous] using host
    | nick valid noHost =>
        refine ⟨⟨?_, by simp, by simp, by simp⟩, fun _ => ?_⟩
        · simpa using valid
        · simpa using noHost
    | atHost valid host =>
        refine ⟨⟨?_, by simp, ?_, by simp⟩, by simp⟩
        · simpa using valid
        · simpa using host
    | mask valid named host =>
        refine ⟨⟨?_, ?_, ?_, by simp⟩, by simp⟩
        · simpa using valid
        · simpa using named
        · simpa using host
  · rintro ⟨h, rfl⟩
    match source, h with
    | .server name, host =>
        have hform := SourceText.server host
        rwa [String.ofList_toList] at hform
    | .nickname nick none none, ⟨valid, noHost⟩ =>
        have hform := SourceText.nick valid.nickname (noHost rfl)
        rwa [String.ofList_toList] at hform
    | .nickname nick none (some host), ⟨valid, _⟩ =>
        have hform := SourceText.atHost valid.nickname (valid.host host rfl)
        rwa [String.ofList_toList, String.ofList_toList] at hform
    | .nickname nick (some user) (some host), ⟨valid, _⟩ =>
        have hform := SourceText.mask valid.nickname (valid.user user rfl) (valid.host host rfl)
        rwa [String.ofList_toList, String.ofList_toList, String.ofList_toList] at hform
    | .nickname nick (some user) none, ⟨valid, _⟩ => exact absurd (valid.beside rfl) (by simp)

theorem parse_eq_ok_iff_unambiguous :
    parse p = .ok source ↔ source.Unambiguous ∧ source.text = p := by
  rw [parse_eq_ok_iff, sourceText_iff, ← toList_text, String.toList_inj]

/-- **The sources that come back from their texts** are the unambiguous ones. -/
theorem printed_comes_back_iff (source : Source) :
    parse source.text = .ok source ↔ source.Unambiguous :=
  parse_eq_ok_iff_unambiguous.trans (and_iff_left rfl)

/-! ### Servers and users by their texts -/

/-- A mask is a host only where it is a nickname that is a host name. -/
theorem isHost_chars_iff {u : User} (h : u.IsMask) :
    IsHost u.chars ↔ u.host = none ∧ IsHostName u.nickname.toList := by
  obtain ⟨nick, user, host⟩ := u
  cases host with
  | none =>
      obtain rfl : user = none := h.beside rfl
      have haddress : ¬ IsAddress nick.toList := fun haddress =>
        not_mem_of_isNick h.nickname (by decide) haddress.1
      simp [User.chars, IsHost, haddress]
  | some host =>
      refine iff_of_false (fun hhost => ?_) (by simp)
      -- The sign before the host is in no host.
      exact Host.not_mem_of_isHost (c := '@') hhost (by decide) (by decide) (by simp [User.chars])

/-- A well-formed mask is written as a source in the same way. -/
theorem chars_of_isMask {u : User} (h : u.IsMask) :
    (Source.nickname u.nickname u.user u.host).chars = u.chars := by
  obtain ⟨nick, user, host⟩ := u
  cases host with
  | none =>
      obtain rfl : user = none := h.beside rfl
      simp [chars, User.chars]
  | some host => cases user <;> simp [chars, User.chars]

theorem parse_eq_server_iff : parse p = .ok (.server name) ↔ IsHost p.toList ∧ name = p := by
  rw [parse_eq_ok_iff_unambiguous]
  have htext : (Source.server name).text = name := String.ofList_toList
  rw [htext]
  refine and_congr_left fun h => ?_
  rw [h]
  rfl

theorem parse_eq_nickname_iff {u : User} :
    parse p = .ok (.nickname u.nickname u.user u.host) ↔
      ¬ IsHost p.toList ∧ u.IsMask ∧ u.text = p := by
  rw [parse_eq_ok_iff_unambiguous]
  constructor
  · rintro ⟨⟨hmask, hnick⟩, rfl⟩
    rw [toList_text, chars_of_isMask hmask, isHost_chars_iff hmask]
    refine ⟨fun h => hnick h.1 h.2, hmask, ?_⟩
    rw [User.text, ← chars_of_isMask hmask, Source.text]
  · rintro ⟨hhost, hmask, rfl⟩
    rw [User.text, String.toList_ofList, isHost_chars_iff hmask] at hhost
    refine ⟨⟨hmask, fun hnone hname => hhost ⟨hnone, hname⟩⟩, ?_⟩
    rw [Source.text, chars_of_isMask hmask, User.text]

/-! ### In a line -/

/-- **The source of a line** is what stands between the colon and the first space. -/
theorem sourceText_of_lineText (h : LineText (':' :: cs ++ ' ' :: rest) m) (hcs : ' ' ∉ cs) :
    ∃ source, m.source = some source ∧ SourceText cs source := by
  obtain ⟨body, ending, happ, hbody, -⟩ := h
  cases hbody with
  | @parts tagged sourced verb arguments _ source _ _ labels sender word _ =>
  cases labels with
  | present form delimiter => exact absurd happ (by simp)
  | absent =>
  cases sender with
  | absent =>
      -- Without a source the line would begin with its verb.
      obtain ⟨hne, hclass⟩ := Line.alphanum_of_isVerb word
      obtain ⟨c, more, rfl⟩ := List.exists_cons_of_ne_nil hne
      obtain ⟨rfl, -⟩ := by simpa using happ
      exact absurd (hclass ':' List.mem_cons_self) (by decide)
  | @present text spaces source form delimiter =>
      obtain ⟨c, more, rfl⟩ := List.exists_cons_of_ne_nil delimiter.1
      obtain rfl : c = ' ' := delimiter.2 c List.mem_cons_self
      have hrest : cs ++ ' ' :: rest = text ++ ' ' :: (more ++ (verb ++ (arguments ++ ending))) := by
        simpa using happ
      have hspace : ∀ left, AtBoundary (' ' :: left) := fun _ => Text.stops_cons.mpr (by decide)
      rw [append_inj_of_boundary hcs (space_not_mem form) (hspace _) (hspace _) hrest]
      exact ⟨source, rfl, form⟩

/-- A line of a source and a verb. -/
theorem text_withSource (verb : String) (source : Source) :
    ((Message.ofVerb verb).withSource source).text = ":" ++ source.text ++ " " ++ verb := by
  apply String.toList_inj.mp
  simp [Message.text, Message.chars, Message.tagsChars, Message.sourceChars,
    Message.trailingChars, Message.ofVerb, Message.withSource, Source.text]

theorem wellFormed_withSource (hverb : IsVerb verb.toList)
    (hsource : parse source.text = .ok source) :
    ((Message.ofVerb verb).withSource source).WellFormed := by
  refine ⟨⟨?_, ?_, ?_, hverb⟩, Nat.zero_le _, ?_, ?_⟩
  all_goals simp [Message.ofVerb, Message.withSource, hsource]

/-- **A source by itself is a source in a line**, and the other way round if the text has no
space.  A source prints as the text it was read from; it is a server exactly if the whole text
is a host, and otherwise the user whose mask the text is. -/
theorem read_alike_in_line (hverb : IsVerb verb.toList) (p : String) (source : Source) :
    (parse p = .ok source ↔
        ' ' ∉ p.toList ∧
          ∃ m, Message.parse (":" ++ p ++ " " ++ verb) = .ok m ∧ m.source = some source) ∧
      (parse p = .ok source →
        source.text = p ∧
          (∀ name, source = .server name ↔ IsHost p.toList ∧ name = p) ∧
          ∀ u : User, source = .nickname u.nickname u.user u.host ↔
            ¬ IsHost p.toList ∧ u.IsMask ∧ u.text = p) := by
  have hline : (":" ++ p ++ " " ++ verb).toList = ':' :: p.toList ++ ' ' :: verb.toList := by simp
  refine ⟨⟨fun h => ?_, ?_⟩, fun h => ?_⟩
  · obtain ⟨hsource, rfl⟩ := parse_eq_ok_iff_unambiguous.mp h
    refine ⟨space_not_mem (parse_eq_ok_iff.mp h), (Message.ofVerb verb).withSource source, ?_, rfl⟩
    rw [← text_withSource]
    exact (wellFormed_withSource hverb h).parse_text
  · rintro ⟨hspace, m, hparse, hsource⟩
    have hm := Line.read_sound (Message.parse_eq_ok_iff_read.mp hparse)
    rw [hline] at hm
    obtain ⟨other, hother, hform⟩ := sourceText_of_lineText hm hspace
    obtain rfl := Option.some.inj (hsource.symm.trans hother)
    exact parse_eq_ok_iff.mpr hform
  · have hunique : ∀ other, source = other ↔ parse p = .ok other := fun other => by
      rw [h, Except.ok.injEq]
    refine ⟨(parse_eq_ok_iff_unambiguous.mp h).2, fun name => ?_, fun u => ?_⟩
    · rw [hunique, parse_eq_server_iff]
    · rw [hunique, parse_eq_nickname_iff]

/-- A user name that holds a `!` is read alike in both places. -/
theorem mask_read_alike :
    let source : Source := .nickname "bob" (some "~b!c") (some "host.example")
    IsVerb "QUIT".toList ∧ parse "bob!~b!c@host.example" = .ok source ∧
      ∃ m, Message.parse (":" ++ "bob!~b!c@host.example" ++ " " ++ "QUIT") = .ok m ∧
        m.source = some source := by
  intro source
  have hverb : IsVerb "QUIT".toList := by decide
  have hparse : parse "bob!~b!c@host.example" = .ok source := by decide +kernel
  exact ⟨hverb, hparse, ((read_alike_in_line hverb _ source).1.mp hparse).2⟩

end Source

end RelayChat
