import RelayChat.Proofs.Grammar

/-!
# Escaping a tag value

Escaping writes a pair for each character that a written value cannot hold, and a backslash
is such a character itself.  So the backslashes that are written are the first halves of
pairs and nothing else: read from the left, every one has its second half (`paired_escape`).
This is why unescaping goes back (`unescape_escape`), and why the end of a value can never
take hold of what comes after it.

One character is left over.  NUL ends a written value like the characters that are escaped,
but there is no pair for it and it is written as it is; it is the only one
(`eq_nul_of_mem_escape`).
-/

namespace RelayChat.TagValue

open Grammar

variable {value : List Char} {c : Char}

/-- Read from the left, every backslash is followed by a character that it pairs with. -/
inductive Paired : List Char → Prop
  | nil : Paired []
  | plain {c : Char} {rest : List Char} (unpaired : c ≠ '\\') (next : Paired rest) :
      Paired (c :: rest)
  | pair {c : Char} {rest : List Char} (next : Paired rest) : Paired ('\\' :: c :: rest)

/-- A character is written as itself, or as a pair that stands for it. -/
theorem escapeChar_cases (c : Char) :
    (∃ d, escapeChar c = ['\\', d] ∧ unescapeChar d = c ∧ isDelimiter d = false) ∨
      (escapeChar c = [c] ∧ c ≠ '\\' ∧ (isDelimiter c = true → c = '\x00')) := by
  by_cases hsemicolon : c = ';'
  · subst hsemicolon
    exact .inl ⟨':', by decide, by decide, by decide⟩
  by_cases hspace : c = ' '
  · subst hspace
    exact .inl ⟨'s', by decide, by decide, by decide⟩
  by_cases hbackslash : c = '\\'
  · subst hbackslash
    exact .inl ⟨'\\', by decide, by decide, by decide⟩
  by_cases hreturn : c = '\r'
  · subst hreturn
    exact .inl ⟨'r', by decide, by decide, by decide⟩
  by_cases hfeed : c = '\n'
  · subst hfeed
    exact .inl ⟨'n', by decide, by decide, by decide⟩
  refine .inr ⟨?_, hbackslash, fun hend => ?_⟩
  · simp [escapeChar, hsemicolon, hspace, hbackslash, hreturn, hfeed]
  · simpa [isDelimiter, hsemicolon, hspace, hreturn, hfeed] using hend

theorem unescape_cons (h : c ≠ '\\') (rest : List Char) :
    unescape (c :: rest) = c :: unescape rest := by
  simp [unescape, h]

/-- **Unescaping undoes escaping.** -/
theorem unescape_escape (value : List Char) : unescape (escape value) = value := by
  induction value with
  | nil => rfl
  | cons c rest ih =>
      rw [escape_cons]
      rcases escapeChar_cases c with ⟨d, hpair, hstands, -⟩ | ⟨hplain, hne, -⟩
      · rw [hpair, List.cons_append, List.cons_append, List.nil_append, unescape_pair, hstands, ih]
      · rw [hplain, List.singleton_append, unescape_cons hne, ih]

theorem unescapeText_escapeText (s : String) : unescapeText (escapeText s) = s := by
  rw [unescapeText, escapeText, String.toList_ofList, unescape_escape, String.ofList_toList]

/-- **No backslash is left without its second half.** -/
theorem paired_escape (value : List Char) : Paired (escape value) := by
  induction value with
  | nil => exact .nil
  | cons c rest ih =>
      rw [escape_cons]
      rcases escapeChar_cases c with ⟨d, hpair, -, -⟩ | ⟨hplain, hne, -⟩
      · rw [hpair]
        exact .pair ih
      · rw [hplain]
        exact .plain hne ih

/-- **Of what ends a value**, only NUL is ever in a written one. -/
theorem eq_nul_of_mem_escape (hmem : c ∈ escape value) (hend : isDelimiter c = true) :
    c = '\x00' := by
  obtain ⟨d, -, hd⟩ := List.mem_flatMap.mp hmem
  rcases escapeChar_cases d with ⟨e, hpair, -, hinside⟩ | ⟨hplain, -, hnul⟩
  · rw [hpair] at hd
    rcases List.mem_cons.mp hd with rfl | hd
    · exact absurd hend (by decide)
    · rw [List.mem_singleton.mp hd, hinside] at hend
      exact absurd hend (by decide)
  · rw [hplain] at hd
    obtain rfl := List.mem_singleton.mp hd
    exact hnul hend

/-- NUL is written as it is. -/
theorem escape_append_nul (front back : List Char) :
    escape (front ++ '\x00' :: back) = escape front ++ '\x00' :: escape back := by
  rw [escape, List.flatMap_append, List.flatMap_cons]
  rfl

theorem isValue_escape (h : '\x00' ∉ value) : IsValue (escape value) := by
  induction value with
  | nil => exact .nil
  | cons c rest ih =>
      rw [List.mem_cons, not_or] at h
      rw [escape_cons]
      rcases escapeChar_cases c with ⟨d, hpair, -, -⟩ | ⟨hplain, hne, hnul⟩
      · rw [hpair]
        exact .pair (ih h.2)
      · rw [hplain]
        refine .plain hne (Bool.eq_false_iff.mpr fun hend => ?_) (ih h.2)
        exact h.1 (hnul hend).symm

end RelayChat.TagValue
