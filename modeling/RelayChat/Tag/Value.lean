/-!
# Tag values

On the wire a tag value may not hold the characters that end it, so they are
written with a backslash: `\:` for a semicolon, `\s` for a space, `\\`, `\r` and
`\n`.  A message keeps the written form; `escape` makes it from a logical value
and `unescape` goes back.

Reading is more lenient than writing.  **A backslash always pairs with the
character after it**, whatever that is: a pair that stands for nothing in
particular stands for its second character, and a delimiter that is paired does
not end the value.  A backslash at the very end stands for nothing.
-/

namespace RelayChat.TagValue

/-- How one character of a value is written. -/
def escapeChar (c : Char) : List Char :=
  if c = ';' then ['\\', ':']
  else if c = ' ' then ['\\', 's']
  else if c = '\\' then ['\\', '\\']
  else if c = '\r' then ['\\', 'r']
  else if c = '\n' then ['\\', 'n']
  else [c]

/-- The written form of a value. -/
def escape (value : List Char) : List Char :=
  value.flatMap escapeChar

/-- What a backslash and `c` stand for. -/
def unescapeChar (c : Char) : Char :=
  if c = ':' then ';'
  else if c = 's' then ' '
  else if c = 'r' then '\r'
  else if c = 'n' then '\n'
  else c

/-- The value that a written form stands for. -/
def unescape : List Char → List Char
  | [] => []
  | '\\' :: [] => []
  | '\\' :: c :: rest => unescapeChar c :: unescape rest
  | c :: rest => c :: unescape rest

/-- The characters that end a written value, unless paired with a backslash. -/
def isDelimiter (c : Char) : Bool :=
  c == ' ' || c == ';' || c == '\r' || c == '\n' || c == '\x00'

/-- Takes a written value from the front of a text; it may be empty. -/
def read : List Char → List Char × List Char
  | [] => ([], [])
  | '\\' :: [] => (['\\'], [])
  | '\\' :: c :: rest =>
    let (value, left) := read rest
    ('\\' :: c :: value, left)
  | c :: rest =>
    if isDelimiter c then ([], c :: rest)
    else
      let (value, left) := read rest
      (c :: value, left)

/-- The written form of a text. -/
def escapeText (s : String) : String :=
  String.ofList (escape s.toList)

/-- The text that a written form stands for. -/
def unescapeText (s : String) : String :=
  String.ofList (unescape s.toList)

/-! ### Equations -/

@[simp] theorem escape_nil : escape [] = [] := rfl

@[simp] theorem escape_cons (c : Char) (rest : List Char) :
    escape (c :: rest) = escapeChar c ++ escape rest := rfl

@[simp] theorem unescape_nil : unescape [] = [] := rfl

/-- A backslash goes with whatever comes after it. -/
theorem unescape_pair (c : Char) (rest : List Char) :
    unescape ('\\' :: c :: rest) = unescapeChar c :: unescape rest := rfl

/-- What is read and what is left are the text. -/
theorem read_append (cs : List Char) : (read cs).1 ++ (read cs).2 = cs := by
  fun_induction read cs <;> simp_all

theorem length_read_le (cs : List Char) : (read cs).2.length ≤ cs.length := by
  have happ := congrArg List.length (read_append cs)
  rw [List.length_append] at happ
  omega

end RelayChat.TagValue
