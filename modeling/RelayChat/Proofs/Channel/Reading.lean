import RelayChat.Channel.Basic
import RelayChat.Proofs.Text.Reading

/-!
# Channels are read by their grammar

A channel is a marker and a name, and the marker says by itself how long it is: a sign,
or an exclamation mark and five characters.  So a text has one reading as a channel at
most, and the reader is exact: it finds the well-formed channels under their own texts
and nothing else (`Channel.ofChars?_eq_some_iff`).

The text of a channel is itself what may stand behind a marker
(`Channel.isName_of_ofChars?`), since neither the signs nor the number of a safe channel
hold a character that would end a name.
-/

namespace RelayChat

open Text

variable {cs rest : List Char} {marker : Marker} {c : Channel} {s : String}

/-- **A well-formed marker**: the number of a safe channel is five capital letters or digits. -/
def Marker.IsValid : Marker → Prop
  | .safe id => id.toList.length = 5 ∧ ∀ c ∈ id.toList, Channel.isSafeChar c = true
  | .network | .modeless | .onServer => True

namespace Channel

/-- What may follow the marker of a channel. -/
def IsName (cs : List Char) : Prop :=
  cs ≠ [] ∧ ∀ c ∈ cs, isNameChar c = true

/-- **A well-formed channel.** -/
structure IsValid (c : Channel) : Prop where
  /-- The marker is one. -/
  marker : c.marker.IsValid
  /-- The name is not empty, and has no character that would end it. -/
  name : IsName c.name.toList

/-! ### Reading -/

/-- **What a marker is read from**: its own characters, whatever follows. -/
theorem readMarker_eq_some_iff :
    readMarker cs = some (marker, rest) ↔ marker.IsValid ∧ cs = marker.chars ++ rest := by
  constructor
  · intro h
    unfold readMarker at h
    split at h
    · obtain ⟨rfl, rfl⟩ := Prod.mk.inj (Option.some.inj h)
      exact ⟨trivial, rfl⟩
    · obtain ⟨rfl, rfl⟩ := Prod.mk.inj (Option.some.inj h)
      exact ⟨trivial, rfl⟩
    · obtain ⟨rfl, rfl⟩ := Prod.mk.inj (Option.some.inj h)
      exact ⟨trivial, rfl⟩
    · split at h
      · next hsafe =>
        obtain ⟨rfl, rfl⟩ := Prod.mk.inj (Option.some.inj h)
        rw [Marker.IsValid, Marker.chars, String.toList_ofList]
        exact ⟨⟨rfl, List.all_eq_true.mp hsafe⟩, rfl⟩
      · exact absurd h (by simp)
    · exact absurd h (by simp)
  · rintro ⟨h, rfl⟩
    match marker, h with
    | .network, _ => rfl
    | .modeless, _ => rfl
    | .onServer, _ => rfl
    | .safe id, ⟨hlength, hclass⟩ =>
        match hid : id.toList, hlength with
        | [v, w, x, y, z], _ =>
            rw [hid, ← List.all_eq_true] at hclass
            rw [Marker.chars, hid]
            simp only [List.cons_append, List.nil_append, readMarker]
            rw [if_pos hclass, ← hid, String.ofList_toList]

/-- **The channels that are read** are the well-formed ones, each from its own text. -/
theorem ofChars?_eq_some_iff : ofChars? cs = some c ↔ c.IsValid ∧ c.chars = cs := by
  constructor
  · intro h
    unfold ofChars? at h
    split at h
    · next marker rest hmarker =>
      obtain ⟨hvalid, rfl⟩ := readMarker_eq_some_iff.mp hmarker
      split at h
      · next name hname =>
        obtain ⟨rfl, hne, hclass, -⟩ := readRun_eq_some_iff.mp hname
        obtain rfl := Option.some.inj h
        rw [chars, String.toList_ofList, List.append_nil]
        refine ⟨⟨hvalid, ?_⟩, rfl⟩
        rw [String.toList_ofList]
        exact ⟨hne, hclass⟩
      · exact absurd h (by simp)
    · exact absurd h (by simp)
  · rintro ⟨⟨hmarker, hne, hclass⟩, rfl⟩
    have hrun : readRun isNameChar c.name.toList = some (c.name.toList, []) :=
      readRun_eq_some_iff.mpr ⟨(List.append_nil _).symm, hne, hclass, stops_nil⟩
    rw [ofChars?, chars, readMarker_eq_some_iff.mpr ⟨hmarker, rfl⟩]
    simp only [hrun, String.ofList_toList]

/-- Behind a marker there is a channel exactly if there is a name. -/
theorem ofChars?_append (h : marker.IsValid) :
    ofChars? (marker.chars ++ cs) = some c ↔ IsName cs ∧ c = ⟨marker, String.ofList cs⟩ := by
  rw [ofChars?_eq_some_iff]
  constructor
  · rintro ⟨⟨hmarker, hname⟩, happ⟩
    have hread := readMarker_eq_some_iff.mpr ⟨hmarker, happ.symm⟩
    rw [readMarker_eq_some_iff.mpr ⟨h, rfl⟩] at hread
    obtain ⟨hsame, hrest⟩ := Prod.mk.inj (Option.some.inj hread)
    rw [hsame, hrest, String.ofList_toList]
    exact ⟨hname, rfl⟩
  · rintro ⟨hname, rfl⟩
    refine ⟨⟨h, ?_⟩, ?_⟩
    · rwa [String.toList_ofList]
    · rw [chars, String.toList_ofList]

theorem parse_eq_ok_iff_ofChars? : parse s = .ok c ↔ ofChars? s.toList = some c := by
  unfold parse
  split
  · next other hother => simp [hother]
  · next hnone => simp [hnone]

/-- A channel is printed as it was read. -/
theorem chars_of_ofChars? (h : ofChars? cs = some c) : c.chars = cs :=
  (ofChars?_eq_some_iff.mp h).2

theorem text_of_ofChars? (h : ofChars? s.toList = some c) : c.text = s := by
  rw [text, chars_of_ofChars? h, String.ofList_toList]

/-! ### The characters of a channel -/

/-- The signs that markers begin with. -/
def signs : List Char := ['#', '+', '&', '!']

/-- A marker is made of a sign, capital letters and digits. -/
theorem mem_of_isValid (h : marker.IsValid) :
    ∀ c ∈ marker.chars, c ∈ signs ∨ isSafeChar c = true := by
  cases marker with
  | network => simp [Marker.chars, signs]
  | modeless => simp [Marker.chars, signs]
  | onServer => simp [Marker.chars, signs]
  | safe id =>
      rw [Marker.chars, List.forall_mem_cons]
      exact ⟨.inl (by simp [signs]), fun c hc => .inr (h.2 c hc)⟩

/-- The characters that end a name. -/
def nameEnds : List Char := [' ', '\x00', '\r', '\n', ':', ',', '\x07']

theorem isNameChar_eq_false_iff {c : Char} : isNameChar c = false ↔ c ∈ nameEnds := by
  simp only [isNameChar, nameEnds, Bool.not_eq_false', Bool.or_eq_true, beq_iff_eq,
    List.mem_cons, List.not_mem_nil, or_false, or_assoc]

/-- A class without the characters that end a name is a class of its characters. -/
theorem isNameChar_of_class {p : Char → Bool} {c : Char} (hp : nameEnds.all (!p ·) = true)
    (hc : p c = true) : isNameChar c = true := by
  rw [← Bool.not_eq_false, isNameChar_eq_false_iff]
  intro hmem
  have hnot := List.all_eq_true.mp hp c hmem
  rw [hc] at hnot
  cases hnot

/-- A marker may itself stand behind a marker. -/
theorem isName_marker (h : marker.IsValid) : IsName marker.chars := by
  refine ⟨by cases marker <;> simp [Marker.chars], fun c hc => ?_⟩
  rcases mem_of_isValid h c hc with hsign | hsafe
  · have hall : ∀ c ∈ signs, isNameChar c = true := List.all_eq_true.mp (by decide)
    exact hall c hsign
  · exact isNameChar_of_class (by decide) hsafe

/-- **A channel may itself stand behind a marker.** -/
theorem isName_of_ofChars? (h : ofChars? cs = some c) : IsName cs := by
  obtain ⟨⟨hmarker, hname⟩, rfl⟩ := ofChars?_eq_some_iff.mp h
  refine ⟨List.append_ne_nil_of_right_ne_nil _ hname.1, fun d hd => ?_⟩
  rcases List.mem_append.mp hd with hd | hd
  · exact (isName_marker hmarker).2 d hd
  · exact hname.2 d hd

end Channel

end RelayChat
