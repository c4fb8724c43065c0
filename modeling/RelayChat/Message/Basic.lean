import RelayChat.Address.Source
import RelayChat.Tag.Table
import RelayChat.Tag.Value

/-!
# Messages

A message is what one line says: tags, a source, a verb, parameters and a
trailing parameter.  It is built from its parts without any check, so that a
message can be formed which no line can carry; reading a line gives only
messages that can be written back.

Tag values are kept in their written form.  `withTag` takes a logical value and
escapes it, `tag?` looks a tag up under the text of its key and gives the written
form, `logicalTag?` the logical value again.
-/

namespace RelayChat

/-- The parts of a line. -/
structure Message where
  /-- The tags, with values in written form. -/
  tags : Tags
  /-- Who sent the message, if the line says so. -/
  source : Option Source
  /-- The verb: a word, or a number of three digits. -/
  verb : String
  /-- The parameters before the trailing one. -/
  params : List String
  /-- The trailing parameter, which alone may be empty or hold spaces. -/
  trailing : Option String
deriving Repr, DecidableEq

namespace Message

/-! ### Building -/

/-- A message of a verb and nothing else. -/
def ofVerb (verb : String) : Message :=
  ⟨∅, none, verb, [], none⟩

/-- Adds a parameter after those there are. -/
def withParam (m : Message) (param : String) : Message :=
  { m with params := m.params ++ [param] }

/-- Sets the trailing parameter. -/
def withTrailing (m : Message) (trailing : String) : Message :=
  { m with trailing := some trailing }

/-- Sets the source. -/
def withSource (m : Message) (source : Source) : Message :=
  { m with source := some source }

/-- Sets the tag under `key` to a logical value, or to none. -/
def withTag (m : Message) (key : TagKey) (value : Option String) : Message :=
  { m with tags := m.tags.insert key (value.map TagValue.escapeText) }

/-- The same tags, source and verb, without parameters. -/
def envelope (m : Message) : Message :=
  { m with params := [], trailing := none }

/-! ### Looking up -/

/-- The parameter at a position, counted from zero and without the trailing one. -/
def param? (m : Message) (index : Nat) : Option String :=
  m.params[index]?

/-- The tag whose key has the text `key`: `some none` for a tag without a value.  A text that is
no key finds nothing. -/
def lookup (m : Message) (key : String) : Option (Option String) :=
  (TagKey.ofChars? key.toList).bind m.tags.get?

/-- Whether there is a tag whose key has the text `key`. -/
def hasTag (m : Message) (key : String) : Bool :=
  (m.lookup key).isSome

/-- The written value of the tag whose key has the text `key`. -/
def tag? (m : Message) (key : String) : Option String :=
  (m.lookup key).join

/-- The logical value of the tag whose key has the text `key`. -/
def logicalTag? (m : Message) (key : String) : Option String :=
  (m.tag? key).map TagValue.unescapeText

/-- The nickname of the user who sent the message. -/
def sender? (m : Message) : Option String :=
  m.source.bind Source.nick?

/-! ### Printing -/

/-- The characters of one tag. -/
def tagChars (tag : Tag) : List Char :=
  tag.1.chars ++ (match tag.2 with | some value => '=' :: value.toList | none => [])

/-- The characters of the tags, with the sign before and the space after them. -/
def tagsChars (tags : Tags) : List Char :=
  match tags.entries with
  | [] => []
  | entries => '@' :: [';'].intercalate (entries.map tagChars) ++ [' ']

/-- The characters of the source, with the sign before and the space after it. -/
def sourceChars : Option Source → List Char
  | none => []
  | some source => ':' :: source.chars ++ [' ']

/-- The characters of the trailing parameter, with the space and the sign before it. -/
def trailingChars : Option String → List Char
  | none => []
  | some trailing => ' ' :: ':' :: trailing.toList

/-- The characters of a message, without an end of line.  Nothing is escaped or checked. -/
def chars (m : Message) : List Char :=
  tagsChars m.tags ++ sourceChars m.source ++ m.verb.toList
    ++ m.params.flatMap (' ' :: ·.toList) ++ trailingChars m.trailing

/-- The line that a message is written as. -/
def text (m : Message) : String :=
  String.ofList m.chars

instance : ToString Message := ⟨text⟩

end Message

end RelayChat
