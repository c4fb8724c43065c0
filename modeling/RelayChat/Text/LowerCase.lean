import RelayChat.Text.Casing

/-!
# Full lower case

Lower-casing a text maps each character by itself, with two particulars of the
full mapping: U+0130 (a dotted capital I) becomes two characters, and a capital
sigma becomes a final sigma at the end of a word.

A sigma ends a word when a cased character comes before it and none comes after
it, looking in both directions through the characters that `caseIgnorable`
lists.  Both sides are read off the text before mapping, so `lowerCase` walks the
text with what it has passed, nearest first.
-/

namespace RelayChat.Text

/-- The lower case of one character by itself. -/
def lowerChar (c : Char) : List Char :=
  if c.toNat = 0x130 then ['i', Char.ofNat 0x307]
  else
    match lowerRuns.find? (·.covers c.toNat) with
    | some run => [Char.ofNat (run.partner c.toNat)]
    | none => [c]

/-- Whether the first character of `cs` that is not case-ignorable is cased. -/
def meetsCased (cs : List Char) : Bool :=
  match cs.dropWhile caseIgnorable.has with
  | c :: _ => cased.has c
  | [] => false

/-- The capital sigma. -/
def capitalSigma : Char := Char.ofNat 0x3A3

/-- The lower case of a sigma between the texts `before`, nearest first, and `after`. -/
def lowerSigma (before after : List Char) : Char :=
  if meetsCased before && !meetsCased after then Char.ofNat 0x3C2 else Char.ofNat 0x3C3

/-- The lower case of a text that follows `before`, nearest first. -/
def lowerAfter (before : List Char) : List Char → List Char
  | [] => []
  | c :: rest =>
    (if c = capitalSigma then [lowerSigma before rest] else lowerChar c)
      ++ lowerAfter (c :: before) rest

/-- **The lower case of a text**, by the full mapping. -/
def lowerCase (cs : List Char) : List Char :=
  lowerAfter [] cs

@[simp] theorem lowerAfter_nil (before : List Char) : lowerAfter before [] = [] := rfl

theorem lowerAfter_cons (before : List Char) (c : Char) (rest : List Char) :
    lowerAfter before (c :: rest) =
      (if c = capitalSigma then [lowerSigma before rest] else lowerChar c)
        ++ lowerAfter (c :: before) rest := rfl

end RelayChat.Text
