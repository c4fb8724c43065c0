import Mathlib.Data.List.Basic
import RelayChat.Tag.Table

/-!
# Looking tags up

What is in a table is told by one equation for each way to make one: the empty table has
nothing under any key, and recording a tag changes what is under its key and nothing else
(`get?_insert`).  Since no key occurs twice, looking up finds every entry
(`get?_eq_some_iff`).
-/

namespace RelayChat.Tags

variable {key : TagKey} {value : Option String}

/-- A key is equal to itself in the order of the table. -/
theorem compare_self (key : TagKey) : compare key key = .eq :=
  Std.LawfulEqOrd.compare_eq_iff_eq.mpr rfl

@[simp] theorem get?_empty (key : TagKey) : (∅ : Tags).get? key = none := rfl

/-- After an entry was put in, its own key finds it and every other key what it found before. -/
theorem find?_put (key other : TagKey) (value : Option String) (entries : List Tag) :
    (put key value entries).find? (·.1 = other) =
      if key = other then some (key, value) else entries.find? (·.1 = other) := by
  induction entries with
  | nil => simp [put]
  | cons tag rest ih =>
      by_cases hkey : key = other
      · subst hkey
        unfold put
        split
        · simp
        · simp
        · next hgt =>
          -- The tag passed over has another key, for it is not before its own.
          have hne : tag.1 ≠ key := by
            intro heq
            rw [heq, compare_self] at hgt
            cases hgt
          rw [List.find?_cons_of_neg (by simpa using hne), ih, if_pos rfl, if_pos rfl]
      · rw [if_neg hkey] at ih ⊢
        unfold put
        split
        · rw [List.find?_cons_of_neg (by simpa using hkey)]
        · next heq =>
          rw [Std.LawfulEqOrd.compare_eq_iff_eq] at heq
          rw [List.find?_cons_of_neg (by simpa using hkey),
            List.find?_cons_of_neg (by simpa [← heq] using hkey)]
        · rw [List.find?_cons, List.find?_cons, ih]

/-- **Recording a tag** changes what is under its key, and nothing else. -/
theorem get?_insert (t : Tags) (key other : TagKey) (value : Option String) :
    (t.insert key value).get? other = if key = other then some value else t.get? other := by
  rw [get?, entries_insert, find?_put]
  split <;> rfl

/-- Looking up finds the entries. -/
theorem get?_eq_some_iff {t : Tags} : t.get? key = some value ↔ (key, value) ∈ t.entries := by
  rw [get?, Option.map_eq_some_iff]
  constructor
  · rintro ⟨tag, hfind, rfl⟩
    have hkey : tag.1 = key := by simpa using List.find?_some hfind
    rw [← hkey]
    exact List.mem_of_find?_eq_some hfind
  · intro hmem
    obtain ⟨before, after, hentries⟩ := List.append_of_mem hmem
    have hordered := t.ordered
    rw [Tag.Ordered, hentries, List.pairwise_append] at hordered
    -- Nothing before the entry has its key, since all of it comes before.
    have hbefore : before.find? (·.1 = key) = none := by
      rw [List.find?_eq_none]
      intro tag htag hkey
      have hlt := hordered.2.2 tag htag (key, value) List.mem_cons_self
      rw [of_decide_eq_true hkey, compare_self] at hlt
      cases hlt
    refine ⟨(key, value), ?_, rfl⟩
    rw [hentries, List.find?_append, hbefore, Option.none_or, List.find?_cons_of_pos (by simp)]

end RelayChat.Tags
