import Mathlib.Data.List.TakeWhile
import RelayChat.Text.Reading

/-!
# What a reader takes

A reader takes as much as it can, so what it took can be told from the text alone:
the part before some place, in its class, where the part after that place cannot
go on.  `Stops` is that last condition, and each reader has one equation with it.

Both directions of these equations are used.  From left to right they say what a
text looks like that was read; from right to left they read a text that is known
piece by piece, and `Stops` is what the next piece has to offer.
-/

namespace RelayChat.Text

variable {p inner joint : Char → Bool} {cs run name left : List Char} {c j : Char}

/-! ### Runs of one class -/

/-- No run of class `p` can go on into this text. -/
def Stops (p : Char → Bool) (cs : List Char) : Prop :=
  ∀ c ∈ cs.head?, p c = false

@[simp] theorem stops_nil : Stops p [] := by
  simp [Stops]

@[simp] theorem stops_cons : Stops p (c :: cs) ↔ p c = false := by
  simp [Stops]

/-- A narrower class stops where a wider one does. -/
theorem Stops.mono {q : Char → Bool} (h : Stops q cs) (hpq : ∀ c, q c = false → p c = false) :
    Stops p cs :=
  fun c hc => hpq c (h c hc)

/-- Behind the longest run of a class the class stops. -/
theorem stops_dropWhile (p : Char → Bool) (cs : List Char) : Stops p (cs.dropWhile p) := by
  intro c hc
  have h := List.head?_dropWhile_not p cs
  rw [Option.mem_def.mp hc] at h
  exact h

/-- A run does not go on into what stops it. -/
theorem takeWhile_append_of_stops (run : List Char) (h : Stops p left) :
    (run ++ left).takeWhile p = run.takeWhile p := by
  induction run with
  | nil =>
      cases left with
      | nil => rfl
      | cons c rest => simp [stops_cons.mp h]
  | cons c run ih =>
      rw [List.cons_append, List.takeWhile_cons, List.takeWhile_cons, ih]

/-- Behind a run comes what stops it, and nothing of it is dropped. -/
theorem dropWhile_append_of_stops (hrun : ∀ c ∈ run, p c = true) (h : Stops p left) :
    (run ++ left).dropWhile p = left := by
  rw [List.dropWhile_append_of_pos hrun]
  cases left with
  | nil => rfl
  | cons c rest => simp [stops_cons.mp h]

/-- Where `readRun` takes nothing, none of the class follows. -/
theorem stops_of_readRun_eq_none (h : readRun p cs = none) : Stops p cs := by
  cases cs with
  | nil => exact stops_nil
  | cons c rest =>
      refine stops_cons.mpr (Bool.eq_false_iff.mpr fun hc => ?_)
      simp [readRun, hc] at h

/-- **What `readRun` takes**: the characters of the class up to where none follows. -/
theorem readRun_eq_some_iff :
    readRun p cs = some (run, left) ↔
      cs = run ++ left ∧ run ≠ [] ∧ (∀ c ∈ run, p c = true) ∧ Stops p left := by
  constructor
  · intro h
    have happ := readRun_append h
    unfold readRun at h
    split at h
    · exact absurd h (by simp)
    · next c run' heq =>
      obtain ⟨rfl, rfl⟩ := by simpa using h
      refine ⟨happ.symm, by simp, fun d hd => ?_, stops_dropWhile p cs⟩
      rw [← heq] at hd
      exact List.mem_takeWhile_imp hd
  · rintro ⟨rfl, hne, hrun, hstop⟩
    obtain ⟨c, run, rfl⟩ := List.exists_cons_of_ne_nil hne
    have htake : ((c :: run) ++ left).takeWhile p = c :: run := by
      rw [takeWhile_append_of_stops _ hstop, List.takeWhile_eq_self_iff.mpr hrun]
    rw [readRun, htake, dropWhile_append_of_stops hrun hstop]

/-! ### Names made of labels -/

/-- A name made of labels: each begins with a letter or a digit and goes on in class `inner`,
and between two of them stands one character of class `joint`. -/
inductive Labels (inner joint : Char → Bool) : List Char → Prop
  | single {c : Char} {label : List Char} (head : c.isAlphanum = true)
      (tail : ∀ d ∈ label, inner d = true) : Labels inner joint (c :: label)
  | joined {c j : Char} {label more : List Char} (head : c.isAlphanum = true)
      (tail : ∀ d ∈ label, inner d = true) (sep : joint j = true)
      (next : Labels inner joint more) : Labels inner joint (c :: label ++ j :: more)

/-- No name made of labels can go on into this text: it begins with no character of a label, and
with none of class `joint` before the start of another label. -/
def LabelsStop (inner joint : Char → Bool) : List Char → Prop
  | [] => True
  | c :: rest => inner c = false ∧ (joint c = true → Stops Char.isAlphanum rest)

/-- A labelled name begins with a letter or a digit. -/
theorem Labels.exists_cons (h : Labels inner joint name) :
    ∃ c rest, name = c :: rest ∧ c.isAlphanum = true := by
  cases h with
  | single head tail => exact ⟨_, _, rfl, head⟩
  | joined head tail sep next => exact ⟨_, _, rfl, head⟩

/-- Every character of a name starts a label, goes on in one, or joins two. -/
theorem Labels.mem (h : Labels inner joint name) (hc : c ∈ name) :
    c.isAlphanum = true ∨ inner c = true ∨ joint c = true := by
  induction h with
  | single head tail =>
      rcases List.mem_cons.mp hc with rfl | hc
      · exact .inl head
      · exact .inr (.inl (tail c hc))
  | joined head tail sep next ih =>
      rcases List.mem_append.mp hc with hc | hc
      · rcases List.mem_cons.mp hc with rfl | hc
        · exact .inl head
        · exact .inr (.inl (tail c hc))
      · rcases List.mem_cons.mp hc with rfl | hc
        · exact .inr (.inr sep)
        · exact ih hc

theorem labelsTail_cons_inner (h : inner c = true) (cs : List Char) :
    labelsTail inner joint (c :: cs) =
      (c :: (labelsTail inner joint cs).1, (labelsTail inner joint cs).2) := by
  cases cs <;> simp [labelsTail, h]

/-- Characters inside a label are taken with what comes after them. -/
theorem labelsTail_append_of_inner (hrun : ∀ d ∈ run, inner d = true) (cs : List Char) :
    labelsTail inner joint (run ++ cs) =
      (run ++ (labelsTail inner joint cs).1, (labelsTail inner joint cs).2) := by
  induction run with
  | nil => rfl
  | cons d run ih =>
      rw [List.cons_append, labelsTail_cons_inner (hrun d List.mem_cons_self),
        ih fun e he => hrun e (List.mem_cons_of_mem _ he)]
      rfl

/-- Where a labelled name stops, nothing more is taken. -/
theorem labelsTail_of_stop (h : LabelsStop inner joint left) :
    labelsTail inner joint left = ([], left) := by
  match left, h with
  | [], _ => rfl
  | [c], h => simp [labelsTail, h.1]
  | c :: d :: rest, h =>
      have hd : (joint c && d.isAlphanum) = false := by
        cases hj : joint c with
        | false => rfl
        | true => simpa using h.2 hj
      simp [labelsTail, h.1, hd]

/-- What is left behind a labelled name is what stops it. -/
theorem labelsStop_labelsTail (inner joint : Char → Bool) (cs : List Char) :
    LabelsStop inner joint (labelsTail inner joint cs).2 := by
  fun_induction labelsTail inner joint cs <;> simp_all [LabelsStop]

/-- What is taken after the start of a label makes that label, and the ones after it, whole. -/
theorem labels_append_labelsTail {c : Char} (hc : c.isAlphanum = true)
    (hrun : ∀ d ∈ run, inner d = true) (cs : List Char) :
    Labels inner joint (c :: run ++ (labelsTail inner joint cs).1) := by
  -- The label being read grows with `run`; a joint closes it and opens the next one.
  fun_induction labelsTail inner joint cs generalizing c run with
  | case1 => simpa using Labels.single hc hrun
  | case2 d hd =>
      exact .single hc fun e he => by
        rcases List.mem_append.mp he with he | he
        · exact hrun e he
        · rw [List.mem_singleton.mp he]; exact hd
  | case3 d hd => simpa using Labels.single hc hrun
  | case4 d e rest hd more left heq ih =>
      have hrun' : ∀ b ∈ run ++ [d], inner b = true := by
        intro b hb
        rcases List.mem_append.mp hb with hb | hb
        · exact hrun b hb
        · rw [List.mem_singleton.mp hb]; exact hd
      simpa [heq] using ih hc hrun'
  | case5 d e rest hd hjoin more left heq ih =>
      rw [Bool.and_eq_true] at hjoin
      have hnone : ∀ b ∈ ([] : List Char), inner b = true := by simp
      have hnext := ih hjoin.2 hnone
      rw [heq] at hnext
      exact .joined hc hrun hjoin.1 hnext
  | case6 d e rest hd hjoin => simpa using Labels.single hc hrun

/-- A name is read from the front of a text in which it cannot go on. -/
theorem readLabels_of_labels (hdisjoint : ∀ c, joint c = true → inner c = false)
    (hname : Labels inner joint name) (hstop : LabelsStop inner joint left) :
    readLabels inner joint (name ++ left) = some (name, left) := by
  induction hname with
  | single head tail =>
      rw [List.cons_append, readLabels, if_pos head, labelsTail_append_of_inner tail,
        labelsTail_of_stop hstop, List.append_nil]
  | @joined c j label more head tail sep next ih =>
      -- The joint is taken because the label after it has a first character to look at.
      obtain ⟨d, rest, rfl, hd⟩ := next.exists_cons
      have htail : labelsTail inner joint (j :: d :: rest ++ left) = (j :: d :: rest, left) := by
        have hmore : labelsTail inner joint (rest ++ left) = (rest, left) := by
          simpa [readLabels, hd, Prod.ext_iff] using ih
        simp [labelsTail, hdisjoint j sep, sep, hd, hmore]
      rw [List.append_assoc, List.cons_append, readLabels, if_pos head,
        labelsTail_append_of_inner tail, htail]
      rfl

/-- **What `readLabels` takes**: a name made of labels that cannot go on. -/
theorem readLabels_eq_some_iff (hdisjoint : ∀ c, joint c = true → inner c = false) :
    readLabels inner joint cs = some (name, left) ↔
      cs = name ++ left ∧ Labels inner joint name ∧ LabelsStop inner joint left := by
  constructor
  · intro h
    unfold readLabels at h
    split at h
    · exact absurd h (by simp)
    · next c rest =>
      split at h
      · next hc =>
        obtain ⟨rfl, rfl⟩ := by simpa using h
        refine ⟨?_, ?_, labelsStop_labelsTail inner joint rest⟩
        · rw [List.cons_append, labelsTail_append]
        · have hnone : ∀ b ∈ ([] : List Char), inner b = true := by simp
          exact labels_append_labelsTail hc hnone rest
      · exact absurd h (by simp)
  · rintro ⟨rfl, hname, hstop⟩
    exact readLabels_of_labels hdisjoint hname hstop

end RelayChat.Text
