/-!
# Cutting a text into pieces

`pieces sep` cuts a text at every `sep`, `lines` at every CRLF.  Both keep empty
pieces and give at least one, so the pieces joined by the separator are the text.
A carriage return or a line feed by itself does not cut.
-/

namespace RelayChat.Text

/-- Puts a character before the first piece. -/
def consFirst (c : Char) : List (List Char) → List (List Char)
  | [] => [[c]]
  | piece :: rest => (c :: piece) :: rest

/-- The pieces of a text between the occurrences of `sep`. -/
def pieces (sep : Char) : List Char → List (List Char)
  | [] => [[]]
  | c :: rest => if c = sep then [] :: pieces sep rest else consFirst c (pieces sep rest)

/-- The pieces of a text between the occurrences of CRLF. -/
def lines : List Char → List (List Char)
  | [] => [[]]
  | '\r' :: '\n' :: rest => [] :: lines rest
  | c :: rest => consFirst c (lines rest)

/-- The text without its last characters that are in class `p`. -/
def trimEnd (p : Char → Bool) (cs : List Char) : List Char :=
  (cs.reverse.dropWhile p).reverse

/-! ### The pieces make up the text -/

/-- A character before the first piece is one before the whole text. -/
theorem intercalate_consFirst (sep : List Char) (c : Char) {ps : List (List Char)} (h : ps ≠ []) :
    sep.intercalate (consFirst c ps) = c :: sep.intercalate ps := by
  match ps, h with
  | [piece], _ => simp [consFirst, List.intercalate, List.intersperse]
  | piece :: next :: rest, _ => simp [consFirst, List.intercalate, List.intersperse]

theorem consFirst_ne_nil (c : Char) (ps : List (List Char)) : consFirst c ps ≠ [] := by
  cases ps <;> simp [consFirst]

theorem pieces_ne_nil (sep : Char) (cs : List Char) : pieces sep cs ≠ [] := by
  cases cs with
  | nil => simp [pieces]
  | cons c rest =>
    unfold pieces
    split
    · simp
    · exact consFirst_ne_nil _ _

theorem lines_ne_nil (cs : List Char) : lines cs ≠ [] := by
  fun_cases lines cs <;> simp [consFirst_ne_nil]

/-- Joined by the separator, the pieces are the text. -/
theorem intercalate_pieces (sep : Char) (cs : List Char) :
    [sep].intercalate (pieces sep cs) = cs := by
  induction cs with
  | nil => simp [pieces, List.intercalate]
  | cons c rest ih =>
    unfold pieces
    split
    · next h =>
      obtain ⟨piece, more, hp⟩ := List.exists_cons_of_ne_nil (pieces_ne_nil sep rest)
      rw [hp] at ih ⊢
      simp only [List.intercalate, List.intersperse, List.flatten_cons, List.nil_append] at ih ⊢
      rw [ih, h]
      rfl
    · rw [intercalate_consFirst _ _ (pieces_ne_nil sep rest), ih]

/-- Joined by CRLF, the lines are the text. -/
theorem intercalate_lines (cs : List Char) : ['\r', '\n'].intercalate (lines cs) = cs := by
  fun_induction lines cs with
  | case1 => simp [List.intercalate]
  | case2 rest ih =>
    obtain ⟨piece, more, hp⟩ := List.exists_cons_of_ne_nil (lines_ne_nil rest)
    rw [hp] at ih ⊢
    simp only [List.intercalate, List.intersperse, List.flatten_cons, List.nil_append] at ih ⊢
    rw [ih]
    rfl
  | case3 c rest _ ih => rw [intercalate_consFirst _ _ (lines_ne_nil rest), ih]

end RelayChat.Text
