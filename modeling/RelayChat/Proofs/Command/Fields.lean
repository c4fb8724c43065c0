import Mathlib.Data.List.Forall2
import RelayChat.Command.Canonical
import RelayChat.Proofs.Address.User
import RelayChat.Proofs.Channel.Reading
import RelayChat.Proofs.Message.RoundTrip

/-!
# The fields of a command are the texts they were read from

Every field of a command is read off one text, and none of the readers rewrites
what it reads: printed again, a channel, a mask, an unwrapped action and a comma
list are the text that they came from.  A command can therefore be rebuilt from
its fields alone, and reading a field a second time needs no second argument.

The other fact about a field is where it may stand.  A channel may stand before the
trailing parameter wherever it was found (`isMiddle_of_ofChars?`), which is what
lets a command move it there out of the trailing one.
-/

namespace RelayChat

open Text Grammar

/-- A class without the four characters that end a parameter is a class of its characters. -/
theorem Line.isParamChar_of_class {p : Char → Bool} {c : Char} (hspace : p ' ' = false)
    (hreturn : p '\r' = false) (hfeed : p '\n' = false) (hnul : p '\x00' = false)
    (hc : p c = true) : isParamChar c = true := by
  have hne : ∀ d, p d = false → c ≠ d := by
    rintro d hd rfl
    rw [hd] at hc
    exact absurd hc (by simp)
  simp [isParamChar, hne _ hspace, hne _ hreturn, hne _ hfeed, hne _ hnul]

/-! ### Channels -/

/-- **A channel may stand before the trailing parameter.** -/
theorem Channel.isMiddle_of_ofChars? {cs : List Char} {c : Channel} (h : ofChars? cs = some c) :
    IsMiddle cs := by
  obtain ⟨hne, hclass⟩ := isName_of_ofChars? h
  refine ⟨hne, fun hcolon => ?_, fun d hd => ?_⟩
  · exact absurd (hclass ':' (List.mem_of_head? hcolon)) (by decide)
  · exact Line.isParamChar_of_class (by decide) (by decide) (by decide) (by decide) (hclass d hd)

/-! ### Targets -/

/-- A target is printed as it was read. -/
theorem Target.text_ofText (s : String) : (Target.ofText s).text = s := by
  unfold Target.ofText
  split
  · next c hchannel => exact Channel.text_of_ofChars? hchannel
  · rfl

/-! ### Actions -/

namespace Action

theorem append_isPrefixOf? {front cs rest : List Char} (h : front.isPrefixOf? cs = some rest) :
    front ++ rest = cs := by
  induction front generalizing cs with
  | nil =>
      obtain rfl := Option.some.inj h
      rfl
  | cons c front ih =>
      cases cs with
      | nil => exact absurd h (by simp [List.isPrefixOf?])
      | cons d cs =>
          rw [List.isPrefixOf?] at h
          split at h
          · next hcd =>
            rw [List.cons_append, ih h, eq_of_beq hcd]
          · exact absurd h (by simp)

/-- What was unwrapped is wrapped again as it was. -/
theorem wrap_of_unwrap? {body text : List Char} (h : unwrap? body = some text) :
    wrap text = body := by
  obtain ⟨rest, hopening, hclosing⟩ := Option.bind_eq_some_iff.mp h
  split at hclosing
  · next hlast =>
    obtain rfl := Option.some.inj hclosing
    obtain ⟨front, rfl⟩ := List.getLast?_eq_some_iff.mp hlast
    rw [wrap, List.dropLast_concat, List.append_assoc, append_isPrefixOf? hopening]
  · exact absurd hclosing (by simp)

theorem wrapText_of_unwrapText? {body text : String} (h : unwrapText? body = some text) :
    wrapText text = body := by
  obtain ⟨inner, hinner, rfl⟩ := Option.map_eq_some_iff.mp h
  rw [wrapText, String.toList_ofList, wrap_of_unwrap? hinner, String.ofList_toList]

end Action

/-! ### Comma lists -/

namespace Message

/-- A comma list joined again is the parameter. -/
theorem ofCommaList_commaList (param : String) : ofCommaList (commaList param) = param := by
  rw [ofCommaList, commaList, List.map_map]
  have hid : String.toList ∘ String.ofList = id := funext fun _ => String.toList_ofList
  rw [hid, List.map_id, intercalate_pieces, String.ofList_toList]

/-- Items that print as the texts they were read from join to the parameter. -/
theorem ofCommaList_of_forall₂ {α : Type} {read : String → α → Prop} {print : α → String}
    {param : String} {items : List α} (hprint : ∀ {s item}, read s item → print item = s)
    (h : List.Forall₂ read (commaList param) items) : ofCommaList (items.map print) = param := by
  have hmap : items.map print = commaList param := by
    generalize commaList param = texts at h
    induction h with
    | nil => rfl
    | cons hitem _ ih => rw [List.map_cons, hprint hitem, ih]
  rw [hmap, ofCommaList_commaList]

end Message

end RelayChat
