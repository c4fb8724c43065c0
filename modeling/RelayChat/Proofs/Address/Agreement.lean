import RelayChat.Proofs.Address.Mask
import RelayChat.Proofs.Address.User

/-!
# Masks as sources and as users

There are two readers of masks.  A source is read by the grammar of its parts, with a
second try where the first does not reach the end; a user is cut at the first `@`, and
what comes before at the first `!`, whatever the parts are made of.

They agree because the parts of a well-formed mask keep their signs to themselves.  There
is none in a nickname or in a host, and no `@` in a user name, so that the first `@` is
the one before the host.  A user name may hold a `!`, but the nickname before it does not,
and the first `!` is the one between them (`User.userText_of_isMask`).  A server's name
holds neither sign and is all nickname (`User.userText_of_isHost`).

The other way round there is less to say: a user is cut from many texts that are no
source, since its parts are not looked into.
-/

namespace RelayChat

open Grammar

variable {cs : List Char} {u : User} {source : Source} {s : String}

namespace Host

theorem ne_nil_of_isHost (h : IsHost cs) : cs ≠ [] := by
  rcases h with h | h
  · obtain ⟨c, rest, rfl, -⟩ := h.exists_cons
    simp
  · exact List.ne_nil_of_mem h.1

end Host

namespace User

theorem parse_eq_ok_iff : parse s = .ok u ↔ UserText s.toList u := by
  rw [← ofChars?_eq_some_iff]
  unfold parse
  split <;> simp_all

/-- The characters of a mask, each part behind its sign. -/
theorem chars_eq (u : User) :
    u.chars = u.nickname.toList ++ signed '!' (u.user.map String.toList) ++
      signed '@' (u.host.map String.toList) := by
  obtain ⟨nickname, user, host⟩ := u
  cases user <;> cases host <;> rfl

/-- A character that is in no part of a mask and is not the sign is not in the part behind it. -/
theorem not_mem_signed {sep c : Char} {part : Option (List Char)} (hsep : c ≠ sep)
    (hpart : ∀ cs ∈ part, c ∉ cs) : c ∉ signed sep part := by
  cases part with
  | none => exact List.not_mem_nil
  | some cs => simp [signed, hsep, hpart cs rfl]

/-- **A well-formed mask is cut into its own parts.** -/
theorem userText_of_isMask (h : u.IsMask) : UserText u.chars u := by
  have hnick : ∀ c, Source.isNickChar c = false → c ∉ u.nickname.toList :=
    fun c hc => Source.not_mem_of_isNick h.nickname hc
  have huser : ∀ c, Source.isUserChar c = false → ∀ cs ∈ u.user.map String.toList, c ∉ cs := by
    intro c hc cs hcs hmem
    obtain ⟨user, huser, rfl⟩ := Option.map_eq_some_iff.mp hcs
    exact absurd ((h.user user huser).2 c hmem) (by simp [hc])
  have hhost : ∀ c, Host.isLabelChar c = false → Host.isAddressChar c = false →
      ∀ cs ∈ u.host.map String.toList, c ∉ cs := by
    intro c hlabel haddress cs hcs
    obtain ⟨host, hhost, rfl⟩ := Option.map_eq_some_iff.mp hcs
    exact Host.not_mem_of_isHost (h.host host hhost) hlabel haddress
  have hparts : UserText u.chars ⟨String.ofList u.nickname.toList,
      (u.user.map String.toList).map String.ofList,
      (u.host.map String.toList).map String.ofList⟩ := by
    rw [chars_eq]
    refine .mask ?_ ?_ ?_ (hnick '!' (by decide)) ?_ ?_
    · obtain ⟨c, rest, hcons, -⟩ := h.nickname
      simp [hcons]
    · intro hempty
      obtain ⟨user, huser, hnil⟩ := Option.map_eq_some_iff.mp hempty
      exact (h.user user huser).1 hnil
    · intro hempty
      obtain ⟨host, hhost, hnil⟩ := Option.map_eq_some_iff.mp hempty
      exact Host.ne_nil_of_isHost (h.host host hhost) hnil
    · rw [List.mem_append, not_or]
      exact ⟨hnick '@' (by decide), not_mem_signed (by decide) (huser '@' (by decide))⟩
    · rw [List.mem_append, List.mem_append, not_or, not_or]
      exact ⟨⟨hnick ' ' (by decide), not_mem_signed (by decide) (huser ' ' (by decide))⟩,
        not_mem_signed (by decide) (hhost ' ' (by decide) (by decide))⟩
  simpa using hparts

/-- **A host is the nickname of a user without further parts.** -/
theorem userText_of_isHost (h : IsHost s.toList) : UserText s.toList (plain s) := by
  have hfree : ∀ c, Host.isLabelChar c = false → Host.isAddressChar c = false → c ∉ s.toList :=
    fun c => Host.not_mem_of_isHost h
  have hparts : UserText (s.toList ++ signed '!' none ++ signed '@' none)
      ⟨String.ofList s.toList, none, none⟩ := by
    refine .mask (Host.ne_nil_of_isHost h) (by simp) (by simp) (hfree '!' (by decide) (by decide))
      ?_ ?_
    · simpa [signed] using hfree '@' (by decide) (by decide)
    · simpa [signed] using hfree ' ' (by decide) (by decide)
  simpa [signed, plain] using hparts

end User

namespace Source

/-- **The readers of masks agree.**  What is a source is a user too, which prints as the same
text.  If the source is a user, then it is this one, part by part; if it is a server, then the
user is the whole text as a nickname. -/
theorem masks_read_alike (h : parse s = .ok source) :
    ∃ u, User.parse s = .ok u ∧ u.text = s ∧
      (∀ nick user host, source = .nickname nick user host →
        source.toUser? = some u ∧ u = ⟨nick, user, host⟩) ∧
      ∀ name, source = .server name → source.toUser? = none ∧ u = User.plain s := by
  cases source with
  | server name =>
      obtain ⟨hhost, -⟩ := parse_eq_server_iff.mp h
      have hplain : (User.plain s).text = s := by
        simp [User.text, User.chars, User.plain]
      refine ⟨User.plain s, User.parse_eq_ok_iff.mpr (User.userText_of_isHost hhost), hplain,
        ?_, fun _ _ => ⟨rfl, rfl⟩⟩
      intro nick user host heq
      cases heq
  | nickname nick user host =>
      obtain ⟨-, hmask, htext⟩ := parse_eq_nickname_iff (u := ⟨nick, user, host⟩).mp h
      refine ⟨⟨nick, user, host⟩, ?_, htext, ?_, ?_⟩
      · rw [User.parse_eq_ok_iff, ← htext, User.text, String.toList_ofList]
        exact User.userText_of_isMask hmask
      · intro nick' user' host' heq
        cases heq
        exact ⟨rfl, rfl⟩
      · intro name heq
        cases heq

/-- A user name with a `!` in it is cut from its nickname at the first one. -/
theorem banged_mask_reads_alike :
    let source : Source := .nickname "bob" (some "~b!c") (some "::1")
    parse "bob!~b!c@::1" = .ok source ∧
      ∃ u, User.parse "bob!~b!c@::1" = .ok u ∧ u.text = "bob!~b!c@::1" ∧
        source.toUser? = some u ∧ u = ⟨"bob", some "~b!c", some "::1"⟩ := by
  intro source
  have hparse : parse "bob!~b!c@::1" = .ok source := by decide
  obtain ⟨u, hu, htext, huser, -⟩ := masks_read_alike hparse
  exact ⟨hparse, u, hu, htext, huser _ _ _ rfl⟩

/-- A nickname that is a host name is a server as a source. -/
example : parse "bob" = .ok (.server "bob") ∧ User.parse "bob" = .ok (User.plain "bob") := by
  decide

end Source

end RelayChat
