import RelayChat.Message.Line
import RelayChat.Proofs.Text.Reading

/-!
# The grammar of a line

A line by its grammar alone, with no reader in it:

```text
line    := tags source verb params [CRLF]
tags    := ['@' tag (';' tag)* SP+]
tag     := ['+'] [host-name '/'] name ['=' value]
source  := [':' (host | nick | nick '@' host | nick '!' user '@' host) SP+]
params  := (SP+ param)* ending
```

Each rule is a predicate on texts, or a relation between a text and the value that
it is a written form of.  No rule looks at what follows it, so the rules say nothing
about how far a reader goes; that a reader finds the parts again is what
`RelayChat.Proofs.Message.Acceptance` is about.

Two rules of the format are not in the shape of the grammar and are said here.
**A text that is a host is a server**, though it may be a nickname as well
(`SourceText.nick` asks for the opposite), and **of the tags under one key the last
is kept** (`BodyText` enters them one after the other).
-/

namespace RelayChat.Grammar

open Text

/-- One or more spaces, which are one delimiter. -/
def IsSpaces (cs : List Char) : Prop :=
  cs ≠ [] ∧ ∀ c ∈ cs, c = ' '

theorem isSpaces_space : IsSpaces [' '] :=
  ⟨by simp, fun _ hc => List.mem_singleton.mp hc⟩

/-! ### Hosts and sources -/

/-- A dotted host name: labels with dots between them. -/
def IsHostName : List Char → Prop :=
  Labels Host.isLabelChar (· == '.')

/-- An IPv6 address, in its loose form. -/
def IsAddress (cs : List Char) : Prop :=
  ':' ∈ cs ∧ ∀ c ∈ cs, Host.isAddressChar c = true

/-- A host. -/
def IsHost (cs : List Char) : Prop :=
  IsHostName cs ∨ IsAddress cs

/-- A nickname. -/
def IsNick (cs : List Char) : Prop :=
  ∃ c rest, cs = c :: rest ∧ Source.isNickStart c = true ∧
    ∀ d ∈ rest, Source.isNickChar d = true

/-- A user name. -/
def IsUserName (cs : List Char) : Prop :=
  cs ≠ [] ∧ ∀ c ∈ cs, Source.isUserChar c = true

/-- The written form of a source. -/
inductive SourceText : List Char → Source → Prop
  /-- A host is the name of a server. -/
  | server {name : List Char} (host : IsHost name) :
      SourceText name (.server (String.ofList name))
  /-- A nickname by itself, where it is no host name. -/
  | nick {nick : List Char} (valid : IsNick nick) (noHost : ¬ IsHostName nick) :
      SourceText nick (.nickname (String.ofList nick) none none)
  /-- A nickname and a host. -/
  | atHost {nick name : List Char} (valid : IsNick nick) (host : IsHost name) :
      SourceText (nick ++ '@' :: name)
        (.nickname (String.ofList nick) none (some (String.ofList name)))
  /-- A nickname, a user name and a host. -/
  | mask {nick user name : List Char} (valid : IsNick nick) (named : IsUserName user)
      (host : IsHost name) :
      SourceText (nick ++ '!' :: user ++ '@' :: name)
        (.nickname (String.ofList nick) (some (String.ofList user)) (some (String.ofList name)))

/-- The source of a line, sign and spaces included. -/
inductive SourceSection : List Char → Option Source → Prop
  | absent : SourceSection [] none
  | present {cs spaces : List Char} {source : Source} (form : SourceText cs source)
      (delimiter : IsSpaces spaces) : SourceSection (':' :: cs ++ spaces) (some source)

/-! ### Tags -/

/-- The sign of a tag that is for clients only. -/
inductive PlusText : List Char → Bool → Prop
  | absent : PlusText [] false
  | present : PlusText ['+'] true

/-- The vendor of a key, with the slash after it. -/
inductive VendorText : List Char → Option String → Prop
  | absent : VendorText [] none
  | present {vendor : List Char} (host : IsHostName vendor) :
      VendorText (vendor ++ ['/']) (some (String.ofList vendor))

/-- The name of a key. -/
def IsKeyName (cs : List Char) : Prop :=
  cs ≠ [] ∧ ∀ c ∈ cs, TagKey.isNameChar c = true

/-- The written form of a key. -/
inductive KeyText : List Char → TagKey → Prop
  | parts {plus slashed name : List Char} {clientOnly : Bool} {vendor : Option String}
      (sign : PlusText plus clientOnly) (owner : VendorText slashed vendor)
      (valid : IsKeyName name) :
      KeyText (plus ++ slashed ++ name) ⟨clientOnly, vendor, String.ofList name⟩

/-- A tag value as it is written: read from the left, a backslash pairs with the character after
it, and no character that ends a value stands unpaired.  No backslash is left without a pair. -/
inductive IsValue : List Char → Prop
  | nil : IsValue []
  | plain {c : Char} {rest : List Char} (unpaired : c ≠ '\\')
      (inside : TagValue.isDelimiter c = false) (next : IsValue rest) : IsValue (c :: rest)
  | pair {c : Char} {rest : List Char} (next : IsValue rest) : IsValue ('\\' :: c :: rest)

/-- The written form of a tag. -/
inductive TagText : List Char → Tag → Prop
  | bare {cs : List Char} {key : TagKey} (form : KeyText cs key) : TagText cs (key, none)
  | valued {cs value : List Char} {key : TagKey} (form : KeyText cs key)
      (valid : IsValue value) : TagText (cs ++ '=' :: value) (key, some (String.ofList value))

/-- Tags with semicolons between them. -/
inductive TagsText : List Char → List Tag → Prop
  | single {cs : List Char} {tag : Tag} (form : TagText cs tag) : TagsText cs [tag]
  | cons {cs more : List Char} {tag : Tag} {tags : List Tag} (form : TagText cs tag)
      (next : TagsText more tags) : TagsText (cs ++ ';' :: more) (tag :: tags)

/-- The tags of a line, sign and spaces included. -/
inductive TagSection : List Char → List Tag → Prop
  | absent : TagSection [] []
  | present {cs spaces : List Char} {tags : List Tag} (form : TagsText cs tags)
      (delimiter : IsSpaces spaces) : TagSection ('@' :: cs ++ spaces) tags

/-! ### Verb and parameters -/

/-- A verb: letters, or exactly three digits. -/
def IsVerb (cs : List Char) : Prop :=
  (cs ≠ [] ∧ ∀ c ∈ cs, c.isAlpha = true) ∨ (cs.length = 3 ∧ ∀ c ∈ cs, c.isDigit = true)

instance (cs : List Char) : Decidable (IsVerb cs) :=
  decidable_of_iff ((cs ≠ [] ∧ cs.all Char.isAlpha) ∨ (cs.length = 3 ∧ cs.all Char.isDigit))
    (by rw [IsVerb, List.all_eq_true, List.all_eq_true])

/-- A parameter that may stand before the trailing one. -/
def IsMiddle (cs : List Char) : Prop :=
  cs ≠ [] ∧ cs.head? ≠ some ':' ∧ ∀ c ∈ cs, Line.isParamChar c = true

instance (cs : List Char) : Decidable (IsMiddle cs) :=
  decidable_of_iff (cs ≠ [] ∧ cs.head? ≠ some ':' ∧ cs.all Line.isParamChar)
    (by rw [IsMiddle, List.all_eq_true])

/-- A text without a carriage return or a line feed. -/
def IsUnbroken (cs : List Char) : Prop :=
  ∀ c ∈ cs, Line.isBreak c = false

instance (cs : List Char) : Decidable (IsUnbroken cs) :=
  decidable_of_iff (cs.all (!Line.isBreak ·)) (by simp [IsUnbroken])

/-- The parameters before the trailing one, with the spaces before each. -/
inductive MiddlesText : List Char → List String → Prop
  | nil : MiddlesText [] []
  | cons {spaces cs more : List Char} {params : List String} (delimiter : IsSpaces spaces)
      (valid : IsMiddle cs) (next : MiddlesText more params) :
      MiddlesText (spaces ++ cs ++ more) (String.ofList cs :: params)

/-- What comes after those parameters, and the trailing parameter that it is; `full` says that
there was room for no more of them. -/
inductive EndingText (full : Prop) : List Char → Option String → Prop
  /-- Spaces before the end of a line mean nothing. -/
  | absent {spaces : List Char} (blank : ∀ c ∈ spaces, c = ' ') : EndingText full spaces none
  /-- With the sign, the trailing parameter may be any text, also empty. -/
  | marked {spaces cs : List Char} (delimiter : IsSpaces spaces) (valid : IsUnbroken cs) :
      EndingText full (spaces ++ ':' :: cs) (some (String.ofList cs))
  /-- Without the sign, it is what is left when there is no more room. -/
  | unmarked {spaces cs : List Char} (noRoom : full) (delimiter : IsSpaces spaces)
      (nonempty : cs ≠ []) (unspaced : cs.head? ≠ some ' ') (unsigned : cs.head? ≠ some ':')
      (valid : IsUnbroken cs) : EndingText full (spaces ++ cs) (some (String.ofList cs))

/-- The parameters of a line: at most fourteen, and what comes after them. -/
inductive ParamsText : List Char → Line.Params → Prop
  | parts {middles ending : List Char} {params : List String} {trailing : Option String}
      (before : MiddlesText middles params) (room : params.length ≤ Line.maxParams)
      (after : EndingText (params.length = Line.maxParams) ending trailing) :
      ParamsText (middles ++ ending) (params, trailing)

/-! ### Lines -/

/-- A line up to its end. -/
inductive BodyText : List Char → Message → Prop
  | parts {tagged sourced verb rest : List Char} {tags : List Tag} {source : Option Source}
      {params : List String} {trailing : Option String} (labels : TagSection tagged tags)
      (sender : SourceSection sourced source) (word : IsVerb verb)
      (arguments : ParamsText rest (params, trailing)) :
      BodyText (tagged ++ sourced ++ verb ++ rest)
        ⟨(∅ : Tags).insertAll tags, source, String.ofList verb, params, trailing⟩

/-- The end of a line, which may be left out. -/
def IsLineEnd (cs : List Char) : Prop :=
  cs = [] ∨ cs = ['\r', '\n']

/-- **A line of the grammar**, and the message that it is a written form of. -/
def LineText (cs : List Char) (m : Message) : Prop :=
  ∃ body ending, cs = body ++ ending ∧ BodyText body m ∧ IsLineEnd ending

/-! ### The characters of a section -/

section Characters

variable {cs front back : List Char} {params : List String} {trailing : Option String}
  {full : Prop} {s : String} {c : Char} {m : Message}

/-- Two texts without line breaks have none when they are put together. -/
theorem IsUnbroken.append (hfront : IsUnbroken front) (hback : IsUnbroken back) :
    IsUnbroken (front ++ back) :=
  List.forall_mem_append.mpr ⟨hfront, hback⟩

/-- There are two characters that break a line. -/
theorem isUnbroken_iff_not_mem : IsUnbroken cs ↔ '\r' ∉ cs ∧ '\n' ∉ cs := by
  constructor
  · exact fun h => ⟨fun hmem => absurd (h _ hmem) (by decide),
      fun hmem => absurd (h _ hmem) (by decide)⟩
  · rintro ⟨hreturn, hfeed⟩ c hc
    rw [Line.isBreak, Bool.or_eq_false_iff, beq_eq_false_iff_ne, beq_eq_false_iff_ne]
    constructor
    · rintro rfl
      exact hreturn hc
    · rintro rfl
      exact hfeed hc

/-- Characters of a class that has no break in it. -/
theorem isUnbroken_of_class {p : Char → Bool} (hreturn : p '\r' = false) (hfeed : p '\n' = false)
    (h : ∀ c ∈ cs, p c = true) : IsUnbroken cs :=
  isUnbroken_iff_not_mem.mpr
    ⟨fun hmem => absurd (h _ hmem) (by simp [hreturn]),
      fun hmem => absurd (h _ hmem) (by simp [hfeed])⟩

theorem isUnbroken_of_blank (h : ∀ c ∈ cs, c = ' ') : IsUnbroken cs := by
  intro c hc
  rw [h c hc]
  decide

/-- A parameter is without line breaks, since what may be in it is a narrower class. -/
theorem isUnbroken_of_isMiddle (h : IsMiddle cs) : IsUnbroken cs := by
  intro c hc
  have hchar := h.2.2 c hc
  simp only [Line.isParamChar, Bool.not_eq_true', Bool.or_eq_false_iff] at hchar
  simp [Line.isBreak, hchar]

/-- The parameters before the trailing one have no line breaks, with the spaces before each. -/
theorem isUnbroken_of_middlesText (h : MiddlesText cs params) : IsUnbroken cs := by
  induction h with
  | nil => exact fun _ hc => absurd hc List.not_mem_nil
  | cons delimiter valid next ih =>
      exact ((isUnbroken_of_blank delimiter.2).append (isUnbroken_of_isMiddle valid)).append ih

/-- What comes after those parameters has no line breaks either. -/
theorem isUnbroken_of_endingText (h : EndingText full cs trailing) : IsUnbroken cs := by
  cases h with
  | absent blank => exact isUnbroken_of_blank blank
  | @marked spaces text delimiter valid =>
      have hsign : IsUnbroken (':' :: text) := List.forall_mem_cons.mpr ⟨by decide, valid⟩
      exact (isUnbroken_of_blank delimiter.2).append hsign
  | unmarked noRoom delimiter nonempty unspaced unsigned valid =>
      exact (isUnbroken_of_blank delimiter.2).append valid

/-- The trailing parameter is written as it is. -/
theorem mem_of_endingText (h : EndingText full cs (some s)) (hc : c ∈ s.toList) : c ∈ cs := by
  cases h with
  | marked delimiter valid =>
      rw [String.toList_ofList] at hc
      exact List.mem_append_right _ (List.mem_cons_of_mem _ hc)
  | unmarked noRoom delimiter nonempty unspaced unsigned valid =>
      rw [String.toList_ofList] at hc
      exact List.mem_append_right _ hc

/-- The trailing parameter is part of the line. -/
theorem mem_of_lineText (h : LineText cs m) (hs : m.trailing = some s) (hc : c ∈ s.toList) :
    c ∈ cs := by
  obtain ⟨body, ending, rfl, hbody, -⟩ := h
  cases hbody with
  | @parts tagged sourced verb rest tags source params trailing labels sender word arguments =>
  obtain rfl : trailing = some s := hs
  cases arguments with
  | parts before room after =>
  simp [mem_of_endingText after hc]

end Characters

end RelayChat.Grammar
