/-!
# Sets of code points

A character property is a set of code points.  It is stored as the list of its
maximal runs, lowest first, so that a property of the whole character set takes
a few hundred pairs.
-/

namespace RelayChat.Text

/-- A set of code points: the runs `(first, last)`, both ends included. -/
abbrev CodeSet := List (Nat × Nat)

namespace CodeSet

/-- Whether the code point `n` lies in one of the runs. -/
def hasCode (s : CodeSet) (n : Nat) : Bool :=
  s.any fun run => run.1 ≤ n && n ≤ run.2

/-- Whether the character `c` belongs to the set. -/
def has (s : CodeSet) (c : Char) : Bool :=
  s.hasCode c.toNat

@[simp] theorem hasCode_nil (n : Nat) : hasCode [] n = false := rfl

@[simp] theorem hasCode_cons (run : Nat × Nat) (s : CodeSet) (n : Nat) :
    hasCode (run :: s) n = (decide (run.1 ≤ n) && decide (n ≤ run.2) || hasCode s n) := rfl

end CodeSet

end RelayChat.Text
