import RelayChat.Proofs.Address.User
import RelayChat.Proofs.Capability
import RelayChat.Proofs.Channel.Reading
import RelayChat.Proofs.Tag.Reading

/-!
# The text forms of values are exact

Channels, capabilities, tag keys and users are given as texts and printed as texts.
For each of them there is a grammar with no reader in it, and `ExactText` is what ties
the three together: what is read is what the grammar has, a text outside of it is
refused as such, and a value is printed as the text that it was read from.  So the
grammar is unambiguous in both directions, a text has one value and a value has one
text.

The readers take as much as they can, piece by piece, and give nothing back but a vendor
that no slash follows.  That this never refuses a text of the grammar, nor splits one in
another way, is in the lemmas about each reader; here they only have to be put side by
side.
-/

namespace RelayChat

open Text Grammar

/-! ### Channels -/

/-- The name of a channel: not empty, and free of spaces, NUL, line breaks, colons, commas and
BEL. -/
def IsChannelName (cs : List Char) : Prop :=
  cs ≠ [] ∧ ∀ c ∈ cs, c ∉ Channel.nameEnds

/-- **The written form of a channel.** -/
inductive ChannelText : List Char → Channel → Prop
  | network {name : List Char} (valid : IsChannelName name) :
      ChannelText ('#' :: name) ⟨.network, String.ofList name⟩
  | modeless {name : List Char} (valid : IsChannelName name) :
      ChannelText ('+' :: name) ⟨.modeless, String.ofList name⟩
  | onServer {name : List Char} (valid : IsChannelName name) :
      ChannelText ('&' :: name) ⟨.onServer, String.ofList name⟩
  | safe {id name : List Char} (five : id.length = 5)
      (capital : ∀ c ∈ id, c.isUpper = true ∨ c.isDigit = true) (valid : IsChannelName name) :
      ChannelText ('!' :: id ++ name) ⟨.safe (String.ofList id), String.ofList name⟩

namespace Channel

variable {cs : List Char} {c : Channel}

/-- The grammar of channel names is the test of the reader. -/
theorem isChannelName_iff : IsChannelName cs ↔ IsName cs := by
  rw [IsChannelName, IsName]
  refine and_congr_right fun _ => forall₂_congr fun c _ => ?_
  rw [← isNameChar_eq_false_iff, Bool.not_eq_false]

/-- The grammar of channels has the well-formed ones, each under its own text. -/
theorem channelText_iff : ChannelText cs c ↔ c.IsValid ∧ c.chars = cs := by
  constructor
  · intro h
    cases h with
    | network valid | modeless valid | onServer valid =>
        refine ⟨⟨trivial, ?_⟩, by simp [chars, Marker.chars]⟩
        rw [String.toList_ofList]
        exact isChannelName_iff.mp valid
    | @safe id name five capital valid =>
        refine ⟨⟨?_, ?_⟩, by simp [chars, Marker.chars]⟩
        · rw [Marker.IsValid, String.toList_ofList]
          exact ⟨five, fun d hd => by simpa [isSafeChar] using capital d hd⟩
        · rw [String.toList_ofList]
          exact isChannelName_iff.mp valid
  · rintro ⟨⟨hmarker, hname⟩, rfl⟩
    have hname := isChannelName_iff.mpr hname
    obtain ⟨marker, name⟩ := c
    cases marker with
    | network => simpa [chars, Marker.chars] using ChannelText.network hname
    | modeless => simpa [chars, Marker.chars] using ChannelText.modeless hname
    | onServer => simpa [chars, Marker.chars] using ChannelText.onServer hname
    | safe id =>
        obtain ⟨hlength, hclass⟩ := hmarker
        have hcapital : ∀ d ∈ id.toList, d.isUpper = true ∨ d.isDigit = true :=
          fun d hd => by simpa [isSafeChar] using hclass d hd
        simpa [chars, Marker.chars] using ChannelText.safe hlength hcapital hname

end Channel

/-! ### Exactness -/

/-- **A text form is exact**: `parse` reads and `text` prints what the grammar `form` says, and
what is no text of it is refused with `refusal`. -/
structure ExactText {α : Type} (parse : String → Except ValueError α) (text : α → String)
    (refusal : String → ValueError) (form : List Char → α → Prop) : Prop where
  /-- What is read is what the grammar has. -/
  read : ∀ s value, parse s = .ok value ↔ form s.toList value
  /-- A text is refused exactly if the grammar does not have it. -/
  refused : ∀ s, parse s = .error (refusal s) ↔ ¬ ∃ value, form s.toList value
  /-- What was read is printed as the same text. -/
  printed : ∀ s value, parse s = .ok value → text value = s
  /-- Two texts never have the same value. -/
  distinct : ∀ s t value, parse s = .ok value → parse t = .ok value → s = t

namespace ExactText

variable {α : Type} {parse : String → Except ValueError α} {text : α → String}
  {refusal : String → ValueError} {form : List Char → α → Prop}

/-- It is enough that the reader of the whole text follows the grammar, and that the grammar has
a value under its own characters only. -/
theorem of_ofChars? {ofChars? : List Char → Option α} {chars : α → List Char}
    (hparse : ∀ s, parse s = (ofChars? s.toList).elim (.error (refusal s)) .ok)
    (htext : ∀ value, text value = String.ofList (chars value))
    (hread : ∀ {cs value}, ofChars? cs = some value ↔ form cs value)
    (hchars : ∀ {cs value}, form cs value → chars value = cs) :
    ExactText parse text refusal form := by
  have hok : ∀ s value, parse s = .ok value ↔ form s.toList value := by
    intro s value
    rw [hparse, ← hread]
    cases ofChars? s.toList <;> simp
  have hprinted : ∀ s value, parse s = .ok value → text value = s := by
    intro s value h
    rw [htext, hchars ((hok s value).mp h), String.ofList_toList]
  refine ⟨hok, fun s => ?_, hprinted, fun s t value hs ht => ?_⟩
  · simp only [← hok]
    rw [hparse]
    cases ofChars? s.toList <;> simp
  · rw [← hprinted s value hs, hprinted t value ht]

end ExactText

/-- **Reading and printing are exact**, for channels and, below, for the three other types. -/
theorem Channel.exactText : ExactText Channel.parse Channel.text .channel ChannelText := by
  refine .of_ofChars? (fun s => ?_) (fun _ => rfl)
    (ofChars?_eq_some_iff.trans channelText_iff.symm) fun h => (channelText_iff.mp h).2
  rw [parse]
  cases ofChars? s.toList <;> rfl

theorem Capability.exactText :
    ExactText Capability.parse Capability.text .capability CapabilityText := by
  refine .of_ofChars? (fun s => ?_) (fun _ => rfl) ofChars?_eq_some_iff chars_of_capabilityText
  rw [parse]
  cases ofChars? s.toList <;> rfl

theorem TagKey.exactText : ExactText TagKey.parse TagKey.text .tagKey KeyText := by
  refine .of_ofChars? (fun s => ?_) (fun _ => rfl) ofChars?_eq_some_iff chars_of_keyText
  rw [parse]
  cases ofChars? s.toList <;> rfl

theorem User.exactText : ExactText User.parse User.text .user UserText := by
  refine .of_ofChars? (fun s => ?_) (fun _ => rfl) ofChars?_eq_some_iff chars_of_userText
  rw [parse]
  cases ofChars? s.toList <;> rfl

/-- **The text forms of values are exact**: a channel, a capability, a tag key and a user are read
from the texts of their grammars and from no others, and printed as they were read. -/
theorem value_texts_are_exact :
    ExactText Channel.parse Channel.text .channel ChannelText ∧
      ExactText Capability.parse Capability.text .capability CapabilityText ∧
      ExactText TagKey.parse TagKey.text .tagKey KeyText ∧
      ExactText User.parse User.text .user UserText :=
  ⟨Channel.exactText, Capability.exactText, TagKey.exactText, User.exactText⟩

/-- What looks like a vendor is the name if no slash comes after it, and a hyphen ends no label. -/
example : Capability.parse "a-b" = .ok ⟨none, "a-b"⟩ ∧
    Capability.parse "a-/b" = .error (.capability "a-/b") := by decide

/-- Behind the first `@` the signs are characters of the host. -/
example : User.parse "n@h!x@y" = .ok ⟨"n", none, some "h!x@y"⟩ := by decide

end RelayChat
