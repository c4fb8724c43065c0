import Mathlib.Data.List.Pairwise
import RelayChat.Channel.Roster

/-!
# Rosters as sets of folds

What a roster is a set of are folds: `Roster.has` asks for one, and each operation is
known by what it does to the answers.  The spellings come second.  A roster shows them in
the order of their texts, so that what it shows depends on the entries and not on the
order in which they came in (`snapshot_eq_iff`).

An operation can be taken back by its counterpart.  A channel that came in and goes out
again leaves no trace (`erase_insert`).  A channel that went out and comes in again is the
same member, but comes in under the name by which it was asked for; so the roster shows
what it showed before exactly if that was its spelling (`snapshot_insert_erase_iff`).
-/

namespace RelayChat

/-- Channels of one text are one to the roster. -/
theorem Channel.fold_eq_of_text_eq {a b : Channel} (h : a.text = b.text) : a.fold = b.fold := by
  have hchars : a.chars = b.chars := String.ofList_injective h
  rw [fold, fold, hchars]

namespace Roster

variable {r s : Roster} {c e : Channel}

/-- Whether a fold is in. -/
def has (r : Roster) (k : List Char) : Bool :=
  r.entries.any fun e => e.fold = k

theorem contains_eq_has (r : Roster) (c : Channel) : r.contains c = r.has c.fold := rfl

@[simp] theorem has_empty (k : List Char) : (∅ : Roster).has k = false := rfl

/-! ### What the operations do to the folds -/

/-- A channel that is not there goes to the end. -/
theorem entries_insert (h : r.contains c = false) : (r.insert c).entries = r.entries ++ [c] := by
  rw [insert, dif_neg (by simp [h])]

/-- After a channel was entered, its own key is there and no other has changed. -/
theorem has_insert (r : Roster) (c : Channel) (k : List Char) :
    (r.insert c).has k = if c.fold = k then true else r.has k := by
  cases h : r.contains c with
  | true =>
      rw [insert, dif_pos h]
      split
      · next hk => rwa [← hk]
      · rfl
  | false =>
      rw [has, entries_insert h, List.any_append, ← has]
      by_cases hk : c.fold = k <;> simp [hk]

/-- After a channel was taken out, its own key is not there and no other has changed. -/
theorem has_erase (r : Roster) (c : Channel) (k : List Char) :
    (r.erase c).has k = if c.fold = k then false else r.has k := by
  rw [has, erase, List.any_filter, has]
  split
  · next hk =>
    subst hk
    simp
  · next hk =>
    refine congrArg r.entries.any (funext fun e => ?_)
    by_cases he : e.fold = k
    · simp [he, Ne.symm hk]
    · simp [he]

/-! ### Taking an operation back -/

/-- An entry is the only one with its fold. -/
theorem eq_of_fold_eq (hc : c ∈ r.entries) (he : e ∈ r.entries) (h : c.fold = e.fold) : c = e := by
  have : Std.Symm fun a b : Channel => a.fold ≠ b.fold := ⟨fun _ _ hne => hne.symm⟩
  by_contra hne
  exact r.distinct.forall hc he hne h

/-- **A channel that came in and goes out again leaves no trace.** -/
theorem erase_insert (h : r.contains c = false) : (r.insert c).erase c = r := by
  have hfold := fold_ne_of_not_contains h
  have hentries : ((r.insert c).erase c).entries =
      (r.insert c).entries.filter fun e => e.fold ≠ c.fold := rfl
  refine Roster.ext ?_
  rw [hentries, entries_insert h, List.filter_append, List.filter_eq_self.mpr]
  · simp
  · intro e he
    simpa using hfold e he

/-- To take a channel out and enter it again moves it to the end, in its new spelling. -/
theorem entries_insert_erase (r : Roster) (c : Channel) :
    ((r.erase c).insert c).entries = (r.entries.filter fun e => e.fold ≠ c.fold) ++ [c] := by
  have hgone : (r.erase c).contains c = false := by
    rw [contains_eq_has, has_erase, if_pos rfl]
  exact entries_insert hgone

/-- A snapshot has the entries of the roster, each once. -/
theorem snapshot_perm (r : Roster) : r.snapshot.Perm r.entries :=
  List.mergeSort_perm _ _

/-- A snapshot is in the order of the texts. -/
theorem snapshot_pairwise (r : Roster) :
    r.snapshot.Pairwise fun a b => (compare a.text b.text).isLE = true := by
  refine List.pairwise_mergeSort ?_ ?_ _
  · intro a b c hab hbc
    exact Std.TransOrd.isLE_trans hab hbc
  · intro a b
    rw [Std.OrientedOrd.eq_swap (a := b.text)]
    cases compare a.text b.text <;> rfl

/-- What is shown are the entries, whatever their order. -/
theorem snapshot_eq_iff (r s : Roster) : r.snapshot = s.snapshot ↔ r.entries.Perm s.entries := by
  constructor
  · intro h
    exact r.snapshot_perm.symm.trans (h ▸ s.snapshot_perm)
  · intro h
    have hall : r.snapshot.Perm s.snapshot :=
      r.snapshot_perm.trans (h.trans s.snapshot_perm.symm)
    refine hall.eq_of_pairwise (fun a b ha hb hab hba => ?_) r.snapshot_pairwise s.snapshot_pairwise
    have htext : a.text = b.text :=
      Std.LawfulEqOrd.eq_of_compare (Std.OrientedCmp.isLE_antisymm hab hba)
    have hb' : b ∈ r.entries := h.symm.mem_iff.mp (s.snapshot_perm.mem_iff.mp hb)
    exact eq_of_fold_eq (r.snapshot_perm.mem_iff.mp ha) hb' (Channel.fold_eq_of_text_eq htext)

/-- What is shown is strictly in the order of the texts. -/
theorem snapshot_sorted (r : Roster) : r.snapshot.Pairwise fun a b => a.text < b.text := by
  have hdistinct : r.snapshot.Pairwise fun a b => a.fold ≠ b.fold :=
    (r.snapshot_perm.pairwise_iff fun h => Ne.symm h).mpr r.distinct
  refine (r.snapshot_pairwise.and hdistinct).imp fun {a b} ⟨hle, hne⟩ => ?_
  have hlt : compare a.text b.text = .lt := by
    refine (Ordering.isLE_iff_eq_lt_or_eq_eq.mp hle).resolve_right fun heq => hne ?_
    exact Channel.fold_eq_of_text_eq (Std.LawfulEqOrd.eq_of_compare heq)
  exact compareOfLessAndEq_eq_lt.mp hlt

/-- **A channel that went out and comes in again** under some name is shown as before exactly if
that name was its spelling. -/
theorem snapshot_insert_erase_iff (r : Roster) (c : Channel) :
    ((r.erase c).insert c).snapshot = r.snapshot ↔ c ∈ r.entries := by
  rw [snapshot_eq_iff, entries_insert_erase]
  constructor
  · intro h
    exact h.mem_iff.mp (List.mem_append_right _ (List.mem_singleton_self c))
  · intro h
    obtain ⟨front, rest, hentries⟩ := List.append_of_mem h
    have hothers : ∀ e ∈ front ++ rest, e.fold ≠ c.fold := by
      have hdistinct := r.distinct
      rw [hentries, List.pairwise_append, List.pairwise_cons] at hdistinct
      obtain ⟨-, ⟨hrest, -⟩, hfront⟩ := hdistinct
      intro e he
      rcases List.mem_append.mp he with hmem | hmem
      · exact hfront e hmem c List.mem_cons_self
      · exact (hrest e hmem).symm
    have hfilter : (r.entries.filter fun e => e.fold ≠ c.fold) = front ++ rest := by
      rw [hentries, List.filter_append, List.filter_cons_of_neg (by simp), ← List.filter_append]
      exact List.filter_eq_self.mpr fun e he => by simpa using hothers e he
    rw [hfilter, hentries]
    exact (List.perm_append_singleton _ _).trans List.perm_middle.symm

end Roster
end RelayChat
