import RelayChat.Address.User
import RelayChat.Proofs.Text.Reading

/-!
# Users are read by their grammar

A mask `nick!user@host` has no escapes, so that its parts can only be told apart by
where the signs stand.  The first `@` ends what comes before the host, and the first
`!` of that ends the nickname.  So a host may hold both signs and a user name may hold
a `!`, and a `!` after the first `@` is a character of the host.

A cut at the first sign is one equation (`User.cut_eq_iff`): there is no such sign in
front, and front, sign and rest make up the text.  `UserText` is what two cuts one
after the other come to.
-/

namespace RelayChat

open Text

namespace User

variable {cs before : List Char} {after : Option (List Char)} {sep : Char}

/-- A part behind its sign, or nothing. -/
def signed (sep : Char) : Option (List Char) → List Char
  | some part => sep :: part
  | none => []

/-- **What a cut is**: the sign is not in front of it, and the two sides make up the text. -/
theorem cut_eq_iff :
    cut sep cs = (before, after) ↔ sep ∉ before ∧ cs = before ++ signed sep after := by
  have hclass : ∀ {run : List Char}, sep ∉ run → ∀ c ∈ run, (c != sep) = true :=
    fun hfree c hc => bne_iff_ne.mpr fun heq => hfree (heq ▸ hc)
  constructor
  · intro h
    unfold cut at h
    split at h
    · next hnone =>
      obtain ⟨rfl, rfl⟩ := Prod.mk.inj h
      refine ⟨fun hsep => ?_, (List.append_nil _).symm⟩
      exact absurd (List.dropWhile_eq_nil_iff.mp hnone sep hsep) (by simp)
    · next c rest hrest =>
      obtain ⟨rfl, rfl⟩ := Prod.mk.inj h
      -- What stopped the search is the sign itself.
      have hsep := List.head?_dropWhile_not (· != sep) cs
      rw [hrest] at hsep
      obtain rfl : c = sep := by simpa using hsep
      refine ⟨fun hc => absurd (List.mem_takeWhile_imp hc) (by simp), ?_⟩
      rw [signed, ← hrest, List.takeWhile_append_dropWhile]
  · rintro ⟨hfree, rfl⟩
    have htake := List.takeWhile_eq_self_iff.mpr (hclass hfree)
    unfold cut
    cases after with
    | none =>
        rw [signed, List.append_nil, List.dropWhile_eq_nil_iff.mpr (hclass hfree)]
    | some rest =>
        have hstop : Stops (· != sep) (sep :: rest) := stops_cons.mpr (by simp)
        rw [signed, dropWhile_append_of_stops (hclass hfree) hstop,
          takeWhile_append_of_stops before hstop, htake]

end User

/-- **The written form of a user**: no space anywhere, a nickname up to the first `!` or `@`, a
user name up to the first `@`, and a host. -/
inductive UserText : List Char → User → Prop
  | mask {nickname : List Char} {user host : Option (List Char)} (named : nickname ≠ [])
      (userNamed : user ≠ some []) (hostNamed : host ≠ some []) (noBang : '!' ∉ nickname)
      (noAt : '@' ∉ nickname ++ User.signed '!' user)
      (unspaced : ' ' ∉ nickname ++ User.signed '!' user ++ User.signed '@' host) :
      UserText (nickname ++ User.signed '!' user ++ User.signed '@' host)
        ⟨String.ofList nickname, user.map String.ofList, host.map String.ofList⟩

namespace User

variable {cs : List Char} {u : User}

/-- **The users that are read** are those of the grammar. -/
theorem ofChars?_eq_some_iff : ofChars? cs = some u ↔ UserText cs u := by
  constructor
  · intro h
    rcases hat : cut '@' cs with ⟨before, host⟩
    rcases hbang : cut '!' before with ⟨nickname, user⟩
    simp only [ofChars?, hat, hbang] at h
    split at h
    · exact absurd h (by simp)
    · next hgood =>
      obtain ⟨hnoAt, rfl⟩ := cut_eq_iff.mp hat
      obtain ⟨hnoBang, rfl⟩ := cut_eq_iff.mp hbang
      obtain rfl := Option.some.inj h
      simp only [not_or] at hgood
      obtain ⟨hnickname, huser, hhost, hspace⟩ := hgood
      exact .mask hnickname huser hhost hnoBang hnoAt hspace
  · intro h
    cases h with
    | @mask nickname user host named userNamed hostNamed noBang noAt unspaced =>
        have hat : cut '@' (nickname ++ signed '!' user ++ signed '@' host) =
            (nickname ++ signed '!' user, host) := cut_eq_iff.mpr ⟨noAt, rfl⟩
        have hbang : cut '!' (nickname ++ signed '!' user) = (nickname, user) :=
          cut_eq_iff.mpr ⟨noBang, rfl⟩
        simp only [ofChars?, hat, hbang]
        rw [if_neg]
        simp only [not_or]
        exact ⟨named, userNamed, hostNamed, unspaced⟩

/-- A user is printed as it is written. -/
theorem chars_of_userText (h : UserText cs u) : u.chars = cs := by
  cases h with
  | @mask nickname user host =>
      -- The parts that are known are the ones that a sign was found for.
      cases user <;> cases host <;> simp [chars, signed]

theorem text_of_ofChars? {s : String} (h : ofChars? s.toList = some u) : u.text = s := by
  rw [text, chars_of_userText (ofChars?_eq_some_iff.mp h), String.ofList_toList]

end User

end RelayChat
