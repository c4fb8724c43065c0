import Mathlib.Data.Set.Card
import RelayChat.Proofs.Channel.Roster

/-!
# Rosters against the history of what was done with them

A roster knows three operations: a channel is put in, is taken out, or is asked for.
`Roster.after` has the roster that a list of them leaves, from an empty one on, and
`Roster.log` has each of them with its answer.  A list of operations is any order in
which those of several callers come to be carried out, since each is carried out whole.

What the roster must be can be told from the history without it.  A class of channels
stands if the last update of it put it in (`standing`), and it stands under the spelling
of its last update that made a difference (`lastChange`).  The second is not the first
with a name to it: a channel that is put in twice keeps the spelling of the first time.

One operation is taken apart by what it does to the classes and to the entries
(`has_apply`, `mem_entries_apply`); everything about histories is by induction on their
last operation.
-/

namespace RelayChat.Roster

/-! ### Operations -/

/-- What can be done with a roster. -/
inductive Op where
  /-- A channel is put in. -/
  | join (c : Channel)
  /-- A channel is taken out. -/
  | part (c : Channel)
  /-- It is asked whether a channel is in. -/
  | ask (c : Channel)
deriving Repr, DecidableEq

/-- What an operation answers. -/
inductive Answer where
  /-- Whether it made a difference, of an update. -/
  | update (m : Membership)
  /-- Whether the channel is in, of a question. -/
  | isIn (b : Bool)
deriving Repr, DecidableEq

namespace Op

/-- The channel that an operation is about. -/
def channel : Op → Channel
  | .join c | .part c | .ask c => c

/-- What an operation answers, and the roster that it leaves. -/
def apply : Op → Roster → Answer × Roster
  | .join c, r => let (m, r) := r.join c; (.update m, r)
  | .part c, r => let (m, r) := r.part c; (.update m, r)
  | .ask c, r => (.isIn (r.contains c), r)

/-- Whether an operation puts a channel in. -/
def joins : Op → Bool
  | .join _ => true
  | _ => false

/-- Whether an operation puts in or takes out a channel of a class. -/
def updates (k : List Char) : Op → Bool
  | .join c | .part c => c.fold = k
  | .ask _ => false

end Op

/-- The roster that operations leave, from an empty one on. -/
def after (ops : List Op) : Roster :=
  ops.foldl (fun r op => (op.apply r).2) ∅

/-- Operations with their answers, from a roster on. -/
def logFrom (r : Roster) : List Op → List (Op × Answer)
  | [] => []
  | op :: ops => (op, (op.apply r).1) :: logFrom (op.apply r).2 ops

/-- Operations with their answers, from an empty roster on. -/
def log (ops : List Op) : List (Op × Answer) :=
  logFrom ∅ ops

variable {r : Roster} {op : Op} {ops : List Op} {k : List Char} {c e : Channel}

@[simp] theorem after_concat (ops : List Op) (op : Op) :
    after (ops ++ [op]) = (op.apply (after ops)).2 := by
  rw [after, List.foldl_append, ← after]
  rfl

/-- One more operation makes one more entry, with what the roster answers to it then. -/
theorem logFrom_concat (r : Roster) (ops : List Op) (op : Op) :
    logFrom r (ops ++ [op]) =
      logFrom r ops ++ [(op, (op.apply (ops.foldl (fun r op => (op.apply r).2) r)).1)] := by
  induction ops generalizing r with
  | nil => rfl
  | cons first ops ih => rw [List.cons_append, logFrom, ih, logFrom, List.foldl_cons,
      List.cons_append]

@[simp] theorem log_concat (ops : List Op) (op : Op) :
    log (ops ++ [op]) = log ops ++ [(op, (op.apply (after ops)).1)] :=
  logFrom_concat ∅ ops op

/-! ### One operation -/

/-- Whether an operation, with its answer, is an update of a class that made a difference. -/
def isChange (k : List Char) (x : Op × Answer) : Bool :=
  x.1.updates k && x.2 = .update .changed

/-- Whatever a join answers, the channel is entered. -/
theorem join_snd (r : Roster) (c : Channel) : (r.join c).2 = r.insert c := by
  cases h : r.contains c with
  | false => simp [join, h]
  | true => rw [join, if_pos h, insert, dif_pos h]

/-- Whatever a part answers, the channel is taken out. -/
theorem part_snd (r : Roster) (c : Channel) : (r.part c).2 = r.erase c := by
  cases h : r.contains c with
  | true => simp [part, h]
  | false =>
      have hfold := fold_ne_of_not_contains h
      rw [part, if_neg (by simp [h])]
      exact ext (List.filter_eq_self.mpr fun e he => by simpa using hfold e he).symm

/-- An update sets its class, and nothing else changes which classes are in. -/
theorem has_apply (op : Op) (r : Roster) (k : List Char) :
    (op.apply r).2.has k = if op.updates k then op.joins else r.has k := by
  cases op with
  | join c => simp [Op.apply, join_snd, has_insert, Op.updates, Op.joins]
  | part c => simp [Op.apply, part_snd, has_erase, Op.updates, Op.joins]
  | ask c => rfl

/-- An operation answers that it made a difference exactly if it is an update, and its class was
not yet as the update sets it. -/
theorem changed_iff (op : Op) (r : Roster) :
    (op.apply r).1 = .update .changed ↔
      op.updates op.channel.fold = true ∧ r.has op.channel.fold ≠ op.joins := by
  cases op with
  | join c =>
      rw [Op.channel, ← contains_eq_has]
      cases h : r.contains c <;> simp [Op.apply, join, h, Op.updates, Op.joins]
  | part c =>
      rw [Op.channel, ← contains_eq_has]
      cases h : r.contains c <;> simp [Op.apply, part, h, Op.updates, Op.joins]
  | ask c => simp [Op.apply, Op.updates]

/-- An update that makes a difference puts its own spelling in, or none; nothing else changes the
spelling of a class. -/
theorem mem_entries_apply (op : Op) (r : Roster) (e : Channel) :
    e ∈ (op.apply r).2.entries ↔
      if isChange e.fold (op, (op.apply r).1) then op = .join e else e ∈ r.entries := by
  cases op with
  | ask c => simp [Op.apply, isChange, Op.updates]
  | join c =>
      cases h : r.contains c with
      | true => simp [Op.apply, join, h, isChange]
      | false =>
          have hfold := fold_ne_of_not_contains h
          by_cases hk : c.fold = e.fold
          · have he : e ∉ r.entries := fun he => hfold e he hk.symm
            simp [Op.apply, join, h, isChange, Op.updates, entries_insert h, hk, he, eq_comm]
          · have hne : e ≠ c := fun heq => hk (congrArg Channel.fold heq.symm)
            simp [Op.apply, join, h, isChange, Op.updates, entries_insert h, hk, hne]
  | part c =>
      cases h : r.contains c with
      | false => simp [Op.apply, part, h, isChange]
      | true =>
          by_cases hk : c.fold = e.fold
          · simp [Op.apply, part, h, isChange, Op.updates, erase, hk]
          · simp [Op.apply, part, h, isChange, Op.updates, erase, hk, Ne.symm hk]

/-! ### What a history says -/

/-- Whether a class stands: the last update of it put it in. -/
def standing (k : List Char) (ops : List Op) : Bool :=
  (ops.filter (·.updates k)).getLast?.any (·.joins)

/-- The last update of a class that made a difference. -/
def lastChange (k : List Char) (ops : List Op) : Option Op :=
  ((log ops).filter (isChange k)).getLast?.map (·.1)

/-- How many updates that put a class in, or took it out, made a difference. -/
def changes (joins : Bool) (k : List Char) (ops : List Op) : Nat :=
  ((log ops).filter (isChange k)).countP (·.1.joins = joins)

/-- An operation changes whether a key is there if it is about the key and finds it the other way.
-/
theorem isChange_iff (op : Op) (r : Roster) (k : List Char) :
    isChange k (op, (op.apply r).1) = true ↔ op.updates k = true ∧ r.has k ≠ op.joins := by
  have hclass : op.updates k = true → op.channel.fold = k := by
    cases op <;> simp [Op.updates, Op.channel]
  rw [isChange, Bool.and_eq_true, decide_eq_true_iff, changed_iff]
  constructor
  · rintro ⟨hk, -, hne⟩
    exact ⟨hk, hclass hk ▸ hne⟩
  · rintro ⟨hk, hne⟩
    exact ⟨hk, (hclass hk).symm ▸ hk, (hclass hk).symm ▸ hne⟩

/-- How a key stands is what the last operation about it says. -/
theorem standing_concat (k : List Char) (ops : List Op) (op : Op) :
    standing k (ops ++ [op]) = if op.updates k then op.joins else standing k ops := by
  rw [standing, List.filter_append, List.filter_singleton]
  cases h : op.updates k <;> simp [standing]

theorem lastChange_concat (k : List Char) (ops : List Op) (op : Op) :
    lastChange k (ops ++ [op]) =
      if isChange k (op, (op.apply (after ops)).1) then some op else lastChange k ops := by
  rw [lastChange, log_concat, List.filter_append, List.filter_singleton]
  cases h : isChange k (op, (op.apply (after ops)).1) <;> simp [lastChange]

theorem changes_concat (joins : Bool) (k : List Char) (ops : List Op) (op : Op) :
    changes joins k (ops ++ [op]) = changes joins k ops +
      if isChange k (op, (op.apply (after ops)).1) ∧ op.joins = joins then 1 else 0 := by
  rw [changes, log_concat, List.filter_append, List.countP_append, List.filter_singleton, ← changes]
  cases h : isChange k (op, (op.apply (after ops)).1) <;> simp [List.countP_singleton]

/-! ### After any operations -/

/-- **The classes that are in are those that stand.** -/
theorem has_after (ops : List Op) (k : List Char) : (after ops).has k = standing k ops := by
  induction ops using List.reverseRecOn with
  | nil => rfl
  | append_singleton ops op ih => rw [after_concat, has_apply, ih, standing_concat]

/-- **An entry is the spelling of the last change of its class**, which put it in. -/
theorem mem_entries_after (ops : List Op) (e : Channel) :
    e ∈ (after ops).entries ↔ lastChange e.fold ops = some (.join e) := by
  induction ops using List.reverseRecOn with
  | nil => simp [after, lastChange, log, logFrom]
  | append_singleton ops op ih =>
      rw [after_concat, mem_entries_apply, ih, lastChange_concat]
      split <;> simp

/-- **The changes of a class alternate**: it was put in as often as it was taken out, and once
more if it stands. -/
theorem changes_join (ops : List Op) (k : List Char) :
    changes true k ops = changes false k ops + (standing k ops).toNat := by
  induction ops using List.reverseRecOn with
  | nil => rfl
  | append_singleton ops op ih =>
      rw [changes_concat, changes_concat, ih, standing_concat]
      -- What made a difference is an update of `k` to what it was not.
      have hchange := isChange_iff op (after ops) k
      rw [has_after] at hchange
      cases hdone : isChange k (op, (op.apply (after ops)).1) with
      | false =>
          have hsame : op.updates k = true → standing k ops = op.joins := by
            intro hk
            by_contra hne
            exact absurd (hchange.mpr ⟨hk, hne⟩) (by simp [hdone])
          by_cases hk : op.updates k = true <;> simp [hk, hsame]
      | true =>
          obtain ⟨hk, hne⟩ := hchange.mp hdone
          cases hjoins : op.joins <;> simp_all

/-- As many channels are in as classes stand. -/
theorem size_after (ops : List Op) :
    (after ops).size = Set.ncard {k | standing k ops = true} := by
  let classes := (after ops).entries.map Channel.fold
  have hnodup : classes.Nodup := List.pairwise_map.mpr (after ops).distinct
  have hclasses : {k | standing k ops = true} = (classes.toFinset : Set (List Char)) := by
    ext k
    rw [Set.mem_ofPred_eq, ← has_after, List.coe_toFinset, Set.mem_ofPred_eq]
    simp [classes, has]
  rw [hclasses, Set.ncard_coe_finset, List.toFinset_card_of_nodup hnodup, List.length_map]
  rfl

/-- What is to be known of the roster after some operations, in terms of these alone. -/
structure Reflects (ops : List Op) : Prop where
  /-- A channel is in, under any spelling, exactly if its class stands. -/
  membership : ∀ c, (after ops).contains c = standing c.fold ops
  /-- One more operation answers that it made a difference exactly if it changes whether its
  channel is in. -/
  changed : ∀ op : Op, (op.apply (after ops)).1 = .update .changed ↔
    (after (ops ++ [op])).contains op.channel ≠ (after ops).contains op.channel
  /-- What put a class in and made a difference is as much as what took it out and did, and one
  more if the class stands. -/
  balance : ∀ k, changes true k ops = changes false k ops + (standing k ops).toNat
  /-- The size is the number of classes that stand. -/
  size : (after ops).size = Set.ncard {k | standing k ops = true}
  /-- The roster is empty exactly if no class stands. -/
  isEmpty : (after ops).isEmpty = true ↔ ∀ k, standing k ops = false
  /-- What is shown is strictly in the order of the texts. -/
  sorted : (after ops).snapshot.Pairwise fun a b => a.text < b.text
  /-- For each class that stands one channel is shown, and for no other class any. -/
  shown : ∀ k, standing k ops = true ↔ ∃! e, e ∈ (after ops).snapshot ∧ e.fold = k
  /-- A channel is shown in the spelling with which the last change put its class in. -/
  spelling : ∀ e, e ∈ (after ops).snapshot ↔ lastChange e.fold ops = some (.join e)

/-- **A roster is the set of the classes that stand**, after any operations in any order. -/
theorem roster_reflects_history (ops : List Op) : Reflects ops := by
  have hmem : ∀ e, e ∈ (after ops).snapshot ↔ e ∈ (after ops).entries :=
    fun e => (after ops).snapshot_perm.mem_iff
  have hstanding : ∀ k, standing k ops = true ↔ ∃ e ∈ (after ops).entries, e.fold = k := by
    intro k
    rw [← has_after, has, List.any_eq_true]
    simp only [decide_eq_true_eq]
  refine ⟨fun c => ?_, fun op => ?_, changes_join ops, size_after ops, ?_, snapshot_sorted _,
    fun k => ?_, fun e => ?_⟩
  · rw [contains_eq_has, has_after]
  · rw [changed_iff, contains_eq_has, contains_eq_has, after_concat, has_apply]
    cases op.updates op.channel.fold <;> simp [eq_comm]
  · have hnone : (∀ k, standing k ops = false) ↔ ∀ e, e ∉ (after ops).entries := by
      simp only [← Bool.not_eq_true, hstanding]
      constructor
      · intro h e he
        exact h e.fold ⟨e, he, rfl⟩
      · rintro h k ⟨e, he, -⟩
        exact h e he
    rw [hnone, ← List.eq_nil_iff_forall_not_mem, Roster.isEmpty, List.isEmpty_iff]
  · rw [hstanding]
    constructor
    · rintro ⟨e, he, rfl⟩
      refine ⟨e, ⟨(hmem e).mpr he, rfl⟩, fun other hother => ?_⟩
      exact eq_of_fold_eq ((hmem other).mp hother.1) he hother.2
    · rintro ⟨e, ⟨he, hfold⟩, -⟩
      exact ⟨e, (hmem e).mp he, hfold⟩
  · rw [hmem, mem_entries_after]

-- The second spelling makes no difference, so the first one stays.
example :
    let ops : List Op := [.join ⟨.network, "[x]"⟩, .join ⟨.network, "\x7bX\x7d"⟩]
    (after ops).entries = [⟨.network, "[x]"⟩] ∧
      (log ops).map (·.2) = [.update .changed, .update .unchanged] := by
  decide

end RelayChat.Roster
