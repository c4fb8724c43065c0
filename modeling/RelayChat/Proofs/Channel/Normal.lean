import Mathlib.Data.Bool.AllAny
import RelayChat.Channel.Normal
import RelayChat.Proofs.Channel.Reading
import RelayChat.Proofs.Text.LowerCase

/-!
# Which channel a name means

A name is lower-cased before it is read, and lower case can undo a marker: the number
of a safe channel is made of capital letters and digits, and a number with a letter in
it is none any more.  Nothing else of a channel can be lost
(`Channel.ofChars?_lowerCase_eq_some_iff`), because lower case neither makes nor takes
away a delimiter, and the signs and the digits of a marker have no case.

What is no channel in lower case becomes the name of a channel of the whole network,
be it a name without a marker, a safe channel whose number was undone, or a marker
without a name.  So the name that a caller gives is answered by one of three cases, and
`Channel.normalChars?_eq_some_iff` says which.

Whichever case it was, the text of the channel is in lower case (`Channel.lowerCase_chars`),
the `#` that was put before it included, and so it is the name of that channel and of no
other (`Channel.normalize_is_stable`).
-/

namespace RelayChat

open Text

variable {cs : List Char} {marker : Marker} {c d : Channel} {s : String}

/-- A marker without capital letters. -/
def Marker.IsSmall (marker : Marker) : Prop :=
  ∀ c ∈ marker.chars, c.isUpper = false

instance (marker : Marker) : Decidable marker.IsSmall :=
  List.decidableBAll _ marker.chars

namespace Channel

/-! ### Names and markers in lower case -/

/-- **Lower case makes a name of a name only.** -/
theorem isName_lowerCase_iff : IsName (lowerCase cs) ↔ IsName cs := by
  have hclass : ∀ c : Char, 65 ≤ c.toNat → isNameChar c = true := fun c hc =>
    isNameChar_of_class (p := fun c => decide (65 ≤ c.toNat)) (by decide) (decide_eq_true hc)
  rw [IsName, IsName, lowerCase, forall_mem_lowerAfter_iff hclass, ne_eq, ne_eq,
    lowerAfter_eq_nil_iff]

/-- Without capital letters a marker is made of characters without case. -/
theorem isUncased_of_isSmall (h : marker.IsValid) (hsmall : marker.IsSmall) :
    ∀ c ∈ marker.chars, IsUncased c := by
  intro c hc
  rcases mem_of_isValid h c hc with hsign | hsafe
  · have hall : ∀ c ∈ signs, c.toNat < 65 ∧ c.toNat ∉ wordMarks :=
      List.all_iff_forall_prop.mp (by decide)
    exact isUncased_of_lt (hall c hsign).1 (hall c hsign).2
  · have hdigit : c.isDigit = true := by simpa [isSafeChar, hsmall c hc] using hsafe
    exact isUncased_of_isDigit hdigit

/-- A marker has no character from `a` on. -/
theorem toNat_lt_of_mem_marker (h : marker.IsValid) : ∀ c ∈ marker.chars, c.toNat < 97 := by
  intro c hc
  rcases mem_of_isValid h c hc with hsign | hsafe
  · have hall : ∀ c ∈ signs, c.toNat < 97 := List.all_iff_forall_prop.mp (by decide)
    exact hall c hsign
  · rcases Bool.or_eq_true_iff.mp hsafe with hupper | hdigit
    · have := (isUpper_iff.mp hupper).2
      omega
    · have := (Char.isDigit_iff_toNat.mp hdigit).2
      have hnine : '9'.toNat = 57 := rfl
      omega

/-! ### Channels in lower case -/

/-- The channel with its name in lower case. -/
def lowered (c : Channel) : Channel :=
  ⟨c.marker, String.ofList (lowerCase c.name.toList)⟩

/-- **What lower case leaves of a channel**: all but a marker with capital letters in it. -/
theorem ofChars?_lowerCase_eq_some_iff :
    ofChars? (lowerCase cs) = some d ↔
      ∃ c, ofChars? cs = some c ∧ c.marker.IsSmall ∧ d = c.lowered := by
  constructor
  · intro h
    obtain ⟨⟨hmarker, -⟩, happ⟩ := ofChars?_eq_some_iff.mp h
    obtain ⟨rest, rfl, -⟩ := lowerAfter_eq_append (toNat_lt_of_mem_marker hmarker) happ.symm
    have hsmall : d.marker.IsSmall := by
      intro c hc
      have hlower : c ∈ lowerCase (d.marker.chars ++ rest) :=
        happ ▸ List.mem_append_left d.name.toList hc
      exact isUpper_of_mem_lowerAfter hlower
    -- The marker is passed over, so what is left is the name in lower case.
    rw [lowerCase_append_of_uncased (isUncased_of_isSmall hmarker hsmall),
      ofChars?_append hmarker, isName_lowerCase_iff] at h
    refine ⟨⟨d.marker, String.ofList rest⟩, (ofChars?_append hmarker).mpr ⟨h.1, rfl⟩, hsmall, ?_⟩
    rw [lowered, String.toList_ofList]
    exact h.2
  · rintro ⟨c, h, hsmall, rfl⟩
    obtain ⟨⟨hmarker, hname⟩, rfl⟩ := ofChars?_eq_some_iff.mp h
    rw [chars, lowerCase_append_of_uncased (isUncased_of_isSmall hmarker hsmall),
      ofChars?_append hmarker, isName_lowerCase_iff]
    exact ⟨hname, rfl⟩

/-! ### What a name means -/

/-- The channel of the whole network under this name, in lower case. -/
def ofName (cs : List Char) : Channel :=
  ⟨.network, String.ofList (lowerCase cs)⟩

theorem ofChars?_hash : ofChars? ('#' :: lowerCase cs) = some d ↔ IsName cs ∧ d = ofName cs := by
  have hvalid : Marker.network.IsValid := trivial
  have happ : '#' :: lowerCase cs = Marker.network.chars ++ lowerCase cs := rfl
  rw [happ, ofChars?_append hvalid, isName_lowerCase_iff, ofName]

theorem normalChars?_eq (cs : List Char) :
    normalChars? cs = (ofChars? (lowerCase cs)).or (ofChars? ('#' :: lowerCase cs)) := by
  rw [normalChars?]
  cases ofChars? (lowerCase cs) with
  | some c => rfl
  | none => rfl

/-- **What a name means**: the channel that it is, in lower case, if lower case leaves the marker
as it is; and otherwise a channel of the whole network under all of the name. -/
theorem normalChars?_eq_some_iff :
    normalChars? cs = some d ↔
      (∃ c, ofChars? cs = some c ∧ c.marker.IsSmall ∧ d = c.lowered) ∨
        (¬ ∃ c, ofChars? cs = some c ∧ c.marker.IsSmall) ∧ IsName cs ∧ d = ofName cs := by
  rw [normalChars?_eq]
  cases hlowered : ofChars? (lowerCase cs) with
  | some e =>
      obtain ⟨c, hc, hsmall, rfl⟩ := ofChars?_lowerCase_eq_some_iff.mp hlowered
      simp [hc, hsmall, eq_comm]
  | none =>
      have hnone : ¬ ∃ c, ofChars? cs = some c ∧ c.marker.IsSmall := by
        rintro ⟨c, hc, hsmall⟩
        rw [ofChars?_lowerCase_eq_some_iff.mpr ⟨c, hc, hsmall, rfl⟩] at hlowered
        cases hlowered
      have hleft : ¬ ∃ c, ofChars? cs = some c ∧ c.marker.IsSmall ∧ d = c.lowered := by
        rintro ⟨c, hc, hsmall, -⟩
        exact hnone ⟨c, hc, hsmall⟩
      rw [or_iff_right hleft, and_iff_right hnone, Option.none_or, ofChars?_hash]

/-- A name means a channel exactly if it can stand behind a marker. -/
theorem isSome_normalChars?_iff : (normalChars? cs).isSome ↔ IsName cs := by
  rw [Option.isSome_iff_exists]
  constructor
  · rintro ⟨d, hd⟩
    rcases normalChars?_eq_some_iff.mp hd with ⟨c, hc, -, -⟩ | ⟨-, hname, -⟩
    · exact isName_of_ofChars? hc
    · exact hname
  · intro hname
    by_cases h : ∃ c, ofChars? cs = some c ∧ c.marker.IsSmall
    · obtain ⟨c, hc, hsmall⟩ := h
      exact ⟨_, normalChars?_eq_some_iff.mpr (.inl ⟨c, hc, hsmall, rfl⟩)⟩
    · exact ⟨_, normalChars?_eq_some_iff.mpr (.inr ⟨h, hname, rfl⟩)⟩

theorem normalize_eq_ok_iff : normalize s = .ok d ↔ normalChars? s.toList = some d := by
  unfold normalize
  split
  · next other hother => simp [hother]
  · next hnone => simp [hnone]

/-- A name is refused exactly if it cannot stand behind a marker. -/
theorem normalize_eq_error_iff : normalize s = .error (.channel s) ↔ ¬ IsName s.toList := by
  rw [← isSome_normalChars?_iff]
  unfold normalize
  split
  · next c hc => simp [hc]
  · next hnone => simp [hnone]

/-- A channel with a small marker keeps it, and any other one loses it. -/
theorem normalize_of_parse (h : parse s = .ok c) :
    normalize s = .ok (if c.marker.IsSmall then c.lowered else ofName s.toList) := by
  have hc := parse_eq_ok_iff_ofChars?.mp h
  rw [normalize_eq_ok_iff, normalChars?_eq_some_iff]
  split
  · next hsmall => exact .inl ⟨c, hc, hsmall, rfl⟩
  · next hsmall =>
    refine .inr ⟨?_, isName_of_ofChars? hc, rfl⟩
    rintro ⟨other, hother, hsmall'⟩
    obtain rfl := Option.some.inj (hc.symm.trans hother)
    exact hsmall hsmall'

/-- A marker by itself is the name of a channel of the whole network. -/
theorem normalize_marker (h : marker.IsValid) (hsmall : marker.IsSmall)
    (hs : s.toList = marker.chars) : normalize s = .ok ⟨.network, s⟩ := by
  have hlower : lowerCase marker.chars = marker.chars := by
    simpa [lowerCase] using lowerCase_append_of_uncased (isUncased_of_isSmall h hsmall) []
  have hnone : ∀ c, ofChars? marker.chars ≠ some c := by
    intro c hc
    rw [← List.append_nil marker.chars, ofChars?_append h] at hc
    exact hc.1.1 rfl
  rw [normalize_eq_ok_iff, normalChars?_eq_some_iff, hs]
  refine .inr ⟨?_, isName_marker h, ?_⟩
  · rintro ⟨c, hc, -⟩
    exact hnone c hc
  · rw [ofName, hlower, ← hs, String.ofList_toList]

/-- **Which names keep their marker.**  A channel is always answered with a channel, which has
the same marker exactly if there is no capital letter in it.  A name that begins with one of the
signs of a marker is refused, or answered with that marker and the rest in lower case, exactly
if there is a rest. -/
theorem normalize_keeps_marker_iff (s : String) :
    (∀ c, parse s = .ok c →
        ∃ d, normalize s = .ok d ∧ (d.marker = c.marker ↔ c.marker.IsSmall) ∧
          d = if c.marker.IsSmall then c.lowered else ofName s.toList) ∧
      ∀ marker ∈ [Marker.network, .modeless, .onServer], ∀ rest,
        s.toList = marker.chars ++ rest →
          ((normalize s = .error (.channel s) ∨
              normalize s = .ok ⟨marker, String.ofList (lowerCase rest)⟩) ↔ rest ≠ []) ∧
            (rest = [] → normalize s = .ok ⟨.network, s⟩) := by
  refine ⟨fun c hc => ⟨_, normalize_of_parse hc, ?_, rfl⟩, fun marker hmarker rest hs => ?_⟩
  · split
    · next hsmall => exact iff_of_true rfl hsmall
    · next hsmall =>
      refine iff_of_false (fun hnetwork => hsmall ?_) hsmall
      rw [← hnetwork]
      exact (by decide : Marker.network.IsSmall)
  · obtain ⟨hvalid, hsmall⟩ : marker.IsValid ∧ marker.IsSmall := by
      simp only [List.mem_cons, List.not_mem_nil, or_false] at hmarker
      rcases hmarker with rfl | rfl | rfl
      all_goals exact ⟨trivial, by decide⟩
    by_cases hrest : rest = []
    · rw [hrest, List.append_nil] at hs
      have hsign := normalize_marker hvalid hsmall hs
      refine ⟨iff_of_false ?_ (not_not_intro hrest), fun _ => hsign⟩
      rw [hsign, hrest]
      rintro (h | h)
      · cases h
      · -- The name that is answered is the sign, and not empty.
        obtain ⟨-, rfl⟩ := Channel.mk.inj (Except.ok.inj h)
        exact (isName_marker hvalid).1 hs.symm
    · refine ⟨iff_of_true ?_ hrest, fun hnil => absurd hnil hrest⟩
      by_cases hname : IsName rest
      · have hc : parse s = .ok ⟨marker, String.ofList rest⟩ := by
          rw [parse_eq_ok_iff_ofChars?, hs]
          exact (ofChars?_append hvalid).mpr ⟨hname, rfl⟩
        right
        rw [normalize_of_parse hc, if_pos hsmall, lowered, String.toList_ofList]
      · left
        rw [normalize_eq_error_iff, hs]
        exact fun h => hname ⟨hrest, fun c hc => h.2 c (List.mem_append_right _ hc)⟩

/-- A safe channel keeps a number without letters. -/
theorem digits_keep_marker :
    let c : Channel := ⟨.safe "12345", "Room"⟩
    parse "!12345Room" = .ok c ∧ c.marker.IsSmall ∧
      ∃ d, normalize "!12345Room" = .ok d ∧ d.marker = c.marker := by
  intro c
  have hparse : parse "!12345Room" = .ok c := by decide
  have hsmall : c.marker.IsSmall := by decide
  obtain ⟨d, hd, hmarker, -⟩ := (normalize_keeps_marker_iff "!12345Room").1 c hparse
  exact ⟨hparse, hsmall, d, hd, hmarker.mpr hsmall⟩

/-- **A marker can be lost**: the number of a safe channel, if it has a letter in it, and a sign
that no name follows. -/
theorem marker_can_be_lost :
    (¬ ∀ s c, parse s = .ok c → ∃ d, normalize s = .ok d ∧ d.marker = c.marker) ∧
      ¬ ∀ s, ∀ marker ∈ [Marker.network, .modeless, .onServer], ∀ rest,
        s.toList = marker.chars ++ rest →
          (∃ e, normalize s = .error e) ∨
            normalize s = .ok ⟨marker, String.ofList (lowerCase rest)⟩ := by
  constructor
  · intro h
    have hparse : parse "!ABCDEroom" = .ok ⟨.safe "ABCDE", "room"⟩ := by decide
    have hcapital : ¬ (Marker.safe "ABCDE").IsSmall := by decide
    obtain ⟨d, hd, hmarker⟩ := h _ _ hparse
    rw [normalize_of_parse hparse, if_neg hcapital] at hd
    obtain rfl := Except.ok.inj hd
    cases hmarker
  · intro h
    have hvalid : Marker.modeless.IsValid := trivial
    have hnormal := normalize_marker hvalid (by decide) (s := "+") (by decide)
    rcases h "+" .modeless (by simp) [] (by decide) with ⟨e, he⟩ | hok
    · cases hnormal.symm.trans he
    · cases hnormal.symm.trans hok

/-! ### The text of a channel as its name -/

/-- **What a name means is in lower case.** -/
theorem lowerCase_chars (h : normalChars? cs = some c) : lowerCase c.chars = c.chars := by
  have hlowered : ∀ d ∈ lowerCase cs, IsLower d := fun d => isLower_of_mem_lowerAfter
  rw [normalChars?_eq, Option.or_eq_some_iff] at h
  rcases h with h | ⟨-, h⟩
  · rw [chars_of_ofChars? h]
    exact lowerAfter_of_isLower hlowered
  · rw [chars_of_ofChars? h]
    have hhash : IsLower '#' := (isUncased_of_lt (by decide) (by decide)).isLower
    exact lowerAfter_of_isLower (List.forall_mem_cons.mpr ⟨hhash, hlowered⟩)

/-- What a name means is a well-formed channel. -/
theorem isValid_of_normalChars? (h : normalChars? cs = some c) : c.IsValid := by
  rw [normalChars?_eq, Option.or_eq_some_iff] at h
  rcases h with h | ⟨-, h⟩
  · exact (ofChars?_eq_some_iff.mp h).1
  · exact (ofChars?_eq_some_iff.mp h).1

/-- The case of ASCII letters does not matter to what a name means. -/
theorem normalChars?_map_toLower (cs : List Char) :
    normalChars? (cs.map Char.toLower) = normalChars? cs := by
  rw [normalChars?_eq, normalChars?_eq, lowerCase_map_toLower]

/-- **What a name means is stable.**  The channel that is answered for a name is what its own
text means, and what every name means that differs from that one in the case of ASCII letters
only. -/
theorem normalize_is_stable (h : normalize s = .ok c) :
    normalize c.text = .ok c ∧
      ∀ t : String, t.toList.map Char.toLower = s.toList.map Char.toLower →
        normalize t = .ok c := by
  rw [normalize_eq_ok_iff] at h
  constructor
  · have hself : ofChars? c.chars = some c :=
      ofChars?_eq_some_iff.mpr ⟨isValid_of_normalChars? h, rfl⟩
    rw [normalize_eq_ok_iff, text, String.toList_ofList, normalChars?_eq, lowerCase_chars h, hself,
      Option.some_or]
  · intro t ht
    rw [normalize_eq_ok_iff, ← normalChars?_map_toLower, ht, normalChars?_map_toLower, h]

/-- A name without a marker that ends in a sigma: put behind the `#` and read again, and with its
other letter in the other case, it ends in the same sigma. -/
theorem final_sigma_is_stable :
    let c : Channel := ⟨.network, "i\u0307oς"⟩
    normalize "İOΣ" = .ok c ∧ normalize c.text = .ok c ∧ normalize "İoΣ" = .ok c := by
  intro c
  have hname : normalize "İOΣ" = .ok c := by
    set_option maxRecDepth 20000 in decide
  obtain ⟨hself, hcase⟩ := normalize_is_stable hname
  exact ⟨hname, hself, hcase "İoΣ" (by decide)⟩

end Channel

end RelayChat
