import RelayChat.Proofs.Address.Source

/-!
# Keys and values of tags are read by their grammar

A key is read without a look at what follows: the vendor is tried first, and given
up if no slash comes after it.  `AtKeyEnd` names the places where this is exact: the
next character is in no host name and is no slash, so that the name of a key cannot
be the beginning of a vendor.  In a line such a place is the sign before a value, or
the end of the tag.

A value ends at the first delimiter that no backslash is paired with.  A backslash
before the end of the text pairs with nothing, so only a value with something after
it is sure to be well formed (`TagValue.read_sound`).
-/

namespace RelayChat

open Text Grammar

variable {cs left name plus slashed : List Char} {key : TagKey}

namespace TagKey

/-- What may follow a key. -/
def AtKeyEnd (left : List Char) : Prop :=
  Stops (fun c => Host.isLabelChar c || c == '.' || c == '/') left

private theorem label_of_nameChar {c : Char} (h : isNameChar c = true) :
    Host.isLabelChar c = true := by
  rw [isNameChar, Bool.or_eq_true] at h
  rcases h with h | h <;> simp [Host.isLabelChar, h]

/-- The sign is split off where there is one. -/
theorem splitPlus_append {clientOnly : Bool} {rest : List Char} (hplus : PlusText plus clientOnly)
    (hrest : Stops (· == '+') rest) : splitPlus (plus ++ rest) = (clientOnly, rest) := by
  cases hplus with
  | absent =>
      cases rest with
      | nil => rfl
      | cons c rest =>
          have hc : c ≠ '+' := by simpa using hrest
          simp [splitPlus, hc]
  | present => rfl

/-- What is split off as the sign is one, or nothing. -/
theorem splitPlus_sound (cs : List Char) :
    ∃ plus, cs = plus ++ (splitPlus cs).2 ∧ PlusText plus (splitPlus cs).1 := by
  unfold splitPlus
  split
  · exact ⟨['+'], rfl, .present⟩
  · exact ⟨[], rfl, .absent⟩

/-- A slash after the name of a key would stand inside the name. -/
theorem slash_not_next {vendor rest : List Char} (hname : ∀ c ∈ name, isNameChar c = true)
    (hleft : AtKeyEnd left) (hvendor : IsHostName vendor) :
    name ++ left ≠ vendor ++ '/' :: rest := by
  intro h
  have hself : name.takeWhile (fun c => Host.isLabelChar c || c == '.' || c == '/') = name := by
    refine List.takeWhile_eq_self_iff.mpr fun c hc => ?_
    simp [label_of_nameChar (hname c hc)]
  have hmem : '/' ∈ name := by
    rw [← hself, ← takeWhile_append_of_stops name hleft, h, List.takeWhile_append_of_pos]
    · simp
    · intro c hc
      rcases Host.isLabelChar_or_dot hvendor hc with hc | rfl
      · simp [hc]
      · decide
  exact absurd (hname '/' hmem) (by decide)

/-- A vendor is split off with its slash, if a name comes after it. -/
theorem splitVendor_append {vendor : Option String} (howner : VendorText slashed vendor)
    (hname : ∀ c ∈ name, isNameChar c = true) (hleft : AtKeyEnd left) :
    ∃ owner, splitVendor (slashed ++ (name ++ left)) = (owner, name ++ left) ∧
      owner.map String.ofList = vendor := by
  unfold splitVendor
  cases howner with
  | absent =>
      refine ⟨none, ?_, rfl⟩
      split
      · next vendor rest hread =>
        obtain ⟨happ, hvendor, -⟩ := Host.readName_eq_some_iff.mp hread
        rw [List.nil_append] at happ
        exact absurd happ (slash_not_next hname hleft hvendor)
      · rfl
  | @present vendor host =>
      refine ⟨some vendor, ?_, rfl⟩
      have hread : Host.readName (vendor ++ ['/'] ++ (name ++ left)) =
          some (vendor, '/' :: (name ++ left)) :=
        Host.readName_eq_some_iff.mpr
          ⟨by simp, host, by decide, fun hdot => absurd hdot (by decide)⟩
      rw [hread]
      rfl

/-- What is split off as the vendor is one with its slash, or nothing. -/
theorem splitVendor_sound (cs : List Char) :
    ∃ slashed, cs = slashed ++ (splitVendor cs).2 ∧
      VendorText slashed ((splitVendor cs).1.map String.ofList) := by
  unfold splitVendor
  split
  · next vendor rest hread =>
    obtain ⟨rfl, hvendor, -⟩ := Host.readName_eq_some_iff.mp hread
    exact ⟨vendor ++ ['/'], by simp, .present hvendor⟩
  · exact ⟨[], rfl, .absent⟩

/-- Without its sign, a key begins with a letter, a digit or a hyphen. -/
theorem stops_plus {vendor : Option String} (howner : VendorText slashed vendor)
    (hname : IsKeyName name) : Stops (· == '+') (slashed ++ (name ++ left)) := by
  cases howner with
  | absent =>
      obtain ⟨c, rest, rfl⟩ := List.exists_cons_of_ne_nil hname.1
      refine stops_cons.mpr (beq_eq_false_iff_ne.mpr fun hc => ?_)
      exact absurd (hname.2 c List.mem_cons_self) (by rw [hc]; decide)
  | present host =>
      obtain ⟨c, rest, rfl, hhead⟩ := Labels.exists_cons host
      refine stops_cons.mpr (beq_eq_false_iff_ne.mpr fun hc => ?_)
      exact absurd hhead (by rw [hc]; decide)

/-- **A key is read up to where it ends.** -/
theorem read_complete (h : KeyText cs key) (hleft : AtKeyEnd left) :
    read (cs ++ left) = .ok (key, left) := by
  cases h with
  | @parts plus slashed name clientOnly vendor sign owner valid =>
      have hplus : splitPlus (plus ++ slashed ++ name ++ left) =
          (clientOnly, slashed ++ (name ++ left)) := by
        rw [List.append_assoc, List.append_assoc]
        exact splitPlus_append sign (stops_plus owner valid)
      obtain ⟨split, hsplit, rfl⟩ := splitVendor_append owner valid.2 hleft
      have hrun : readRun isNameChar (name ++ left) = some (name, left) := by
        refine readRun_eq_some_iff.mpr ⟨rfl, valid.1, valid.2, hleft.mono fun c hc => ?_⟩
        simp only [Bool.or_eq_false_iff] at hc
        exact Bool.eq_false_iff.mpr fun hname => absurd (label_of_nameChar hname) (by simp [hc.1.1])
      rw [read, hplus]
      simp only [hsplit, hrun]

/-- **What is read is a key.** -/
theorem read_sound (h : read cs = .ok (key, left)) :
    ∃ text, cs = text ++ left ∧ KeyText text key := by
  rw [read] at h
  obtain ⟨plus, hplus, hsign⟩ := splitPlus_sound cs
  obtain ⟨slashed, hslashed, howner⟩ := splitVendor_sound (splitPlus cs).2
  simp only at h
  split at h
  · next name left' hrun =>
    obtain ⟨hname, hne, hclass, -⟩ := readRun_eq_some_iff.mp hrun
    obtain ⟨rfl, rfl⟩ := by simpa using h
    refine ⟨plus ++ slashed ++ name, ?_, .parts hsign howner ⟨hne, hclass⟩⟩
    rw [List.append_assoc, List.append_assoc, ← hname, ← hslashed, ← hplus]
  · exact absurd h (by simp)

/-- **The keys by themselves** are those of the grammar. -/
theorem ofChars?_eq_some_iff : ofChars? cs = some key ↔ KeyText cs key := by
  unfold ofChars?
  constructor
  · intro h
    split at h
    · next read hread =>
      obtain rfl := Option.some.inj h
      obtain ⟨text, happ, htext⟩ := read_sound hread
      rwa [happ, List.append_nil]
    · cases h
  · intro h
    have hread := read_complete h stops_nil
    rw [List.append_nil] at hread
    rw [hread]

theorem parse_eq_ok_iff {s : String} : parse s = .ok key ↔ KeyText s.toList key := by
  rw [← ofChars?_eq_some_iff]
  unfold parse
  split <;> simp_all

/-- A key is printed as it is written. -/
theorem chars_of_keyText (h : KeyText cs key) : key.chars = cs := by
  cases h with
  | parts sign owner valid => cases sign <;> cases owner <;> simp [chars]

end TagKey

namespace TagValue

theorem read_cons {c : Char} (h : c ≠ '\\') (rest : List Char) :
    read (c :: rest) =
      if isDelimiter c then ([], c :: rest) else (c :: (read rest).1, (read rest).2) := by
  simp [read, h]

/-- **A value is read up to the delimiter after it.** -/
theorem read_complete (h : IsValue cs) (hleft : Stops (!isDelimiter ·) left) :
    read (cs ++ left) = (cs, left) := by
  induction h with
  | nil =>
      cases left with
      | nil => rfl
      | cons c rest =>
          have hc : isDelimiter c = true := by simpa using hleft
          have hne : c ≠ '\\' := fun he => absurd hc (by rw [he]; decide)
          rw [List.nil_append, read_cons hne, if_pos hc]
  | plain unpaired inside next ih =>
      rw [List.cons_append, read_cons unpaired, if_neg (by simp [inside]), ih]
  | pair next ih => simp [read, ih]

/-- **What is read before something else is a value**, and a delimiter follows it. -/
theorem read_sound (h : (read cs).2 ≠ []) :
    IsValue (read cs).1 ∧ Stops (!isDelimiter ·) (read cs).2 := by
  fun_induction read cs with
  | case1 => exact absurd rfl h
  | case2 => exact absurd rfl h
  | case3 c rest value left heq ih =>
      rw [heq] at ih
      obtain ⟨hvalue, hstop⟩ := ih h
      exact ⟨.pair hvalue, hstop⟩
  | case4 c rest _ _ hc => exact ⟨.nil, by simpa using hc⟩
  | case5 c rest hlone hpair hc value left heq ih =>
      rw [heq] at ih
      obtain ⟨hvalue, hstop⟩ := ih h
      have hne : c ≠ '\\' := by
        rintro rfl
        cases rest with
        | nil => exact hlone rfl rfl
        | cons d rest => exact hpair d rest rfl rfl
      exact ⟨.plain hne (by simpa using hc) hvalue, hstop⟩

end TagValue

end RelayChat
