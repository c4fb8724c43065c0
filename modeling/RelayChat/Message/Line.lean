import RelayChat.Message.Basic

/-!
# Reading a line

A line is `[@tags SP] [:source SP] verb (SP param)* [SP :trailing] [CRLF]`.

Sections are read one after the other and no choice is taken back, except where
a source may be a server or a user.  A sign commits: after `@` there must be
tags, after `:` a source.  A run of spaces is one delimiter, and spaces before
the end of the line mean nothing.  After fourteen parameters the rest of the line
is the trailing parameter even without its sign.

Each section answers with its value and the text left to read, or with a `Stop`:
the text left where reading failed and the rule that was being read.  The place
of a failure is then a count of bytes, of the line less what was left.
-/

namespace RelayChat

/-- The rules of a line that a failure can be put down to. -/
inductive LineRule where
  /-- The tags. -/
  | tags
  /-- The source. -/
  | source
  /-- The verb. -/
  | verb
  /-- A parameter. -/
  | param
  /-- The end of the line. -/
  | lineEnd
deriving Repr, DecidableEq

/-- What a failure says was being read. -/
def LineRule.label : LineRule → String
  | .tags => "parsing message tags"
  | .source => "parsing message prefix"
  | .verb => "parsing command verb"
  | .param => "parsing command parameter"
  | .lineEnd => "expecting end of line"

/-- A line that could not be read. -/
structure LineError where
  /-- The line, with its end if it had one. -/
  line : String
  /-- Where reading stopped, in bytes from the start of the line. -/
  offset : Nat
  /-- What was being read, where that is known. -/
  rule : Option LineRule
deriving Repr, DecidableEq

namespace LineError

/-- What the error says. -/
def message (e : LineError) : String :=
  "parsing failed at offset " ++ toString e.offset
    ++ (match e.rule with | some rule => " while " ++ rule.label | none => "")
    ++ ": " ++ Text.quoted e.line

/-- What is left of a text after its first `n` bytes, if these are whole characters. -/
def afterBytes : Nat → List Char → Option (List Char)
  | 0, cs => some cs
  | _, [] => none
  | n, c :: rest => if n < c.utf8Size then none else afterBytes (n - c.utf8Size) rest

/-- The text from where reading stopped, empty if there is no such place in the line. -/
def remainder (e : LineError) : String :=
  String.ofList ((afterBytes e.offset e.line.toList).getD [])

end LineError

namespace Line

open Text

/-- Where reading failed: the text left, and the rule that was being read. -/
structure Stop where
  /-- The text that was left to read. -/
  left : List Char
  /-- The rule that was being read. -/
  rule : Option LineRule
deriving Repr, DecidableEq

/-- The result of reading a section: a value and the text left. -/
abbrev Reading (α : Type) := Except Stop (α × List Char)

/-- How many parameters a line can have before the trailing one. -/
def maxParams : Nat := 14

/-! ### The sections -/

/-- Reads the spaces that end a section, at least one. -/
def readSpaces : List Char → Reading Unit
  | ' ' :: rest => .ok ((), rest.dropWhile (· == ' '))
  | cs => .error ⟨cs, none⟩

/-- Reads a tag; a failure is the place where the name of its key should begin. -/
def readTag (cs : List Char) : Except (List Char) (Tag × List Char) :=
  match TagKey.read cs with
  | .error left => .error left
  | .ok (key, '=' :: rest) =>
    let (value, left) := TagValue.read rest
    .ok ((key, some (String.ofList value)), left)
  | .ok (key, left) => .ok ((key, none), left)

/-- A tag is not empty. -/
theorem length_readTag {cs left : List Char} {tag : Tag}
    (h : readTag cs = .ok (tag, left)) : left.length < cs.length := by
  unfold readTag at h
  split at h
  · exact absurd h (by simp)
  · next rest heq =>
    obtain ⟨-, rfl⟩ := by simpa using h
    have hkey := TagKey.length_read heq
    have hvalue := TagValue.length_read_le rest
    rw [List.length_cons] at hkey
    omega
  · next heq =>
    obtain ⟨-, rfl⟩ := by simpa using h
    exact TagKey.length_read heq

/-- Reads the tags after the first.  A semicolon with no tag after it is left where it is. -/
def readMoreTags (cs : List Char) : List Tag × List Char :=
  match cs with
  | ';' :: rest =>
    match _taken : readTag rest with
    | .ok (tag, left) =>
      let (tags, left) := readMoreTags left
      (tag :: tags, left)
    | .error _ => ([], ';' :: rest)
  | cs => ([], cs)
termination_by cs.length
decreasing_by
  have := length_readTag _taken
  simp only [List.length_cons]
  omega

/-- Reads the tags of a line, sign and spaces included.  A line without the sign has none. -/
def readTags : List Char → Reading (List Tag)
  | '@' :: rest =>
    match readTag rest with
    | .error left => .error ⟨left, some .tags⟩
    | .ok (tag, left) =>
      let (tags, left) := readMoreTags left
      match readSpaces left with
      | .ok ((), left) => .ok (tag :: tags, left)
      | .error stop => .error stop
  | cs => .ok ([], cs)

/-- Whether a space follows, as it must after a source. -/
def atSpace (cs : List Char) : Bool :=
  cs.head? == some ' '

/-- Reads the source of a line, sign and spaces included.  A line without the sign has none. -/
def readSource : List Char → Reading (Option Source)
  | ':' :: rest =>
    match Source.read atSpace rest with
    | .error left => .error ⟨left, some .source⟩
    | .ok (source, left) => .ok (some source, left.dropWhile (· == ' '))
  | cs => .ok (none, cs)

/-- Whether a verb is a number: exactly three digits. -/
def isNumeric (verb : List Char) : Bool :=
  verb.length == 3 && verb.all Char.isDigit

/-- Whether letters and digits make up a verb: letters only, or a number. -/
def isVerb (verb : List Char) : Bool :=
  verb.all Char.isAlpha || isNumeric verb

/-- Reads the verb. -/
def readVerb (cs : List Char) : Reading (List Char) :=
  match readRun Char.isAlphanum cs with
  | some (verb, left) => if isVerb verb then .ok (verb, left) else .error ⟨cs, some .verb⟩
  | none => .error ⟨cs, some .verb⟩

/-- Whether `c` ends the text of a line. -/
def isBreak (c : Char) : Bool :=
  c == '\r' || c == '\n'

/-- The characters of a parameter. -/
def isParamChar (c : Char) : Bool :=
  !(c == ' ' || c == '\r' || c == '\n' || c == '\x00')

/-- The parameters of a line and its trailing parameter. -/
abbrev Params := List String × Option String

/-- Reads the parameters of a line, when `room` more of them may come before the trailing one. -/
def readParams (room : Nat) (cs : List Char) : Reading Params :=
  match cs with
  | ' ' :: spaced =>
    match spaced.dropWhile (· == ' ') with
    | [] => .ok (([], none), [])
    | c :: rest =>
      if isBreak c then .ok (([], none), c :: rest)
      else if c = ':' then
        .ok (([], some (String.ofList (rest.takeWhile (!isBreak ·)))), rest.dropWhile (!isBreak ·))
      else
        match room with
        | 0 =>
          .ok (([], some (String.ofList ((c :: rest).takeWhile (!isBreak ·)))),
            (c :: rest).dropWhile (!isBreak ·))
        | room + 1 =>
          match readRun isParamChar (c :: rest) with
          | none => .error ⟨c :: rest, some .param⟩
          | some (param, left) =>
            match readParams room left with
            | .error stop => .error stop
            | .ok ((params, trailing), left) => .ok ((String.ofList param :: params, trailing), left)
  | cs => .ok (([], none), cs)

/-- Reads the end of a line, which may be written out. -/
def readEnd : List Char → Except Stop Unit
  | ['\r', '\n'] => .ok ()
  | [] => .ok ()
  | '\r' :: '\n' :: left => .error ⟨left, some .lineEnd⟩
  | left => .error ⟨left, some .lineEnd⟩

/-- **Reads a line**, to its end. -/
def read (cs : List Char) : Except Stop Message := do
  let (tags, cs) ← readTags cs
  let (source, cs) ← readSource cs
  let (verb, cs) ← readVerb cs
  let ((params, trailing), cs) ← readParams maxParams cs
  readEnd cs
  return ⟨(∅ : Tags).insertAll tags, source, String.ofList verb, params, trailing⟩

/-- How many bytes a text takes. -/
def byteCount : List Char → Nat
  | [] => 0
  | c :: rest => c.utf8Size + byteCount rest

end Line

/-- Reads the message of a line, with or without its end. -/
def Message.parse (line : String) : Except LineError Message :=
  match Line.read line.toList with
  | .ok m => .ok m
  | .error stop =>
    .error ⟨line, Line.byteCount line.toList - Line.byteCount stop.left, stop.rule⟩

end RelayChat
