/-!
# Case folding on IRC

Names that differ in letter case only are one name.  By the rfc1459 mapping the
letters are those of ASCII, and the signs `{`, `}`, `|` and `^` are the small
forms of `[`, `]`, `\` and `~`.
-/

namespace RelayChat.Text

/-- The small form of a character. -/
def foldChar (c : Char) : Char :=
  if c = '[' then '\x7b'
  else if c = ']' then '\x7d'
  else if c = '\\' then '|'
  else if c = '~' then '^'
  else if c.isUpper then c.toLower
  else c

/-- A text in small forms. -/
def fold (cs : List Char) : List Char :=
  cs.map foldChar

/-- `fold` on strings. -/
def foldText (s : String) : String :=
  String.ofList (fold s.toList)

@[simp] theorem fold_nil : fold [] = [] := rfl

@[simp] theorem fold_cons (c : Char) (cs : List Char) : fold (c :: cs) = foldChar c :: fold cs := rfl

end RelayChat.Text
