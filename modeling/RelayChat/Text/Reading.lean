/-!
# Reading from the front of a text

The pieces that the grammars of this library are made of.  A reader takes a text
from the front and answers with what it took and what is left, or with `none`;
it always takes as much as it can and never gives any of it back.

* `readRun p` takes the characters of one class, at least one.
* `readLabels inner joint` takes a name made of labels: alphanumeric at the
  start, then characters of class `inner`, and one of class `joint` only directly
  before an alphanumeric character, where the next label begins.
-/

namespace RelayChat.Text

/-- What a reader took, and what is left. -/
abbrev Taken := Option (List Char × List Char)

/-- Takes the longest run of characters of class `p`, if it is not empty. -/
def readRun (p : Char → Bool) (cs : List Char) : Taken :=
  match cs.takeWhile p with
  | [] => none
  | c :: run => some (c :: run, cs.dropWhile p)

/-- The characters of a name after its first one. -/
def labelsTail (inner joint : Char → Bool) : List Char → List Char × List Char
  | [] => ([], [])
  | [c] => if inner c then ([c], []) else ([], [c])
  | c :: d :: rest =>
    if inner c then
      let (more, left) := labelsTail inner joint (d :: rest)
      (c :: more, left)
    else if joint c && d.isAlphanum then
      let (more, left) := labelsTail inner joint rest
      (c :: d :: more, left)
    else ([], c :: d :: rest)

/-- Takes a name made of labels. -/
def readLabels (inner joint : Char → Bool) : List Char → Taken
  | [] => none
  | c :: rest =>
    if c.isAlphanum then
      let (more, left) := labelsTail inner joint rest
      some (c :: more, left)
    else none

/-- Whether a reader takes the whole of a text. -/
def takesAll (read : List Char → Taken) (cs : List Char) : Bool :=
  match read cs with
  | some (_, []) => true
  | _ => false

/-! ### What is taken and what is left make up the text -/

theorem readRun_append {p : Char → Bool} {cs run left : List Char}
    (h : readRun p cs = some (run, left)) : run ++ left = cs := by
  unfold readRun at h
  split at h
  · exact absurd h (by simp)
  · next heq =>
    obtain ⟨rfl, rfl⟩ := by simpa using h
    rw [← heq, List.takeWhile_append_dropWhile]

/-- A run is not empty. -/
theorem length_readRun {p : Char → Bool} {cs run left : List Char}
    (h : readRun p cs = some (run, left)) : left.length < cs.length := by
  have happ := congrArg List.length (readRun_append h)
  rw [List.length_append] at happ
  have hne : run ≠ [] := by
    unfold readRun at h
    split at h
    · exact absurd h (by simp)
    · obtain ⟨rfl, -⟩ := by simpa using h
      simp
  have hpos := List.length_pos_iff.mpr hne
  omega

theorem labelsTail_append (inner joint : Char → Bool) (cs : List Char) :
    (labelsTail inner joint cs).1 ++ (labelsTail inner joint cs).2 = cs := by
  fun_induction labelsTail inner joint cs <;> simp_all

theorem readLabels_append {inner joint : Char → Bool} {cs name left : List Char}
    (h : readLabels inner joint cs = some (name, left)) : name ++ left = cs := by
  unfold readLabels at h
  split at h
  · exact absurd h (by simp)
  · split at h
    · obtain ⟨rfl, rfl⟩ := by simpa using h
      simp [labelsTail_append]
    · exact absurd h (by simp)

end RelayChat.Text
