import RelayChat.Channel.Basic
import RelayChat.Text.Fold

/-!
# Rosters

A roster is the set of channels that a client has joined.  Two channels whose
texts fold to the same are one member, whatever their spelling; the roster shows
the spelling with which the member came in.

The proof field says that no two entries fold to the same, so a fold has at most
one spelling.  The entries stand in the order in which they came; `snapshot` puts
them in the order of their texts.
-/

namespace RelayChat

/-- What makes two spellings one channel: the text in small forms. -/
def Channel.fold (c : Channel) : List Char :=
  Text.fold c.chars

/-- Whether an operation made a difference. -/
inductive Membership where
  /-- The channel came in, or went out. -/
  | changed
  /-- The channel was in already, or was not there. -/
  | unchanged
deriving Repr, DecidableEq

/-- The channels that a client has joined. -/
structure Roster where
  /-- The spellings, in the order in which they came in. -/
  entries : List Channel
  /-- No two of them are one channel. -/
  distinct : entries.Pairwise fun a b => a.fold ≠ b.fold

namespace Roster

/-- Two rosters with the same entries are the same. -/
@[ext] theorem ext {a b : Roster} (h : a.entries = b.entries) : a = b := by
  cases a
  cases b
  simp_all

instance : DecidableEq Roster := fun a b =>
  if h : a.entries = b.entries then isTrue (ext h) else isFalse fun e => h (e ▸ rfl)

instance : Repr Roster := ⟨fun r _ => repr r.entries⟩

/-- No channels. -/
def empty : Roster :=
  ⟨[], List.Pairwise.nil⟩

instance : EmptyCollection Roster := ⟨empty⟩

instance : Inhabited Roster := ⟨empty⟩

/-- Whether a channel is in, under any spelling. -/
def contains (r : Roster) (c : Channel) : Bool :=
  r.entries.any fun e => e.fold = c.fold

theorem fold_ne_of_not_contains {r : Roster} {c : Channel} (h : r.contains c = false) :
    ∀ e ∈ r.entries, e.fold ≠ c.fold := by
  intro e he heq
  have : r.contains c = true := List.any_eq_true.mpr ⟨e, he, by simpa using heq⟩
  rw [h] at this
  exact Bool.false_ne_true this

/-- The roster with a channel in it.  One that is in keeps its spelling. -/
def insert (r : Roster) (c : Channel) : Roster :=
  if h : r.contains c then r
  else
    ⟨r.entries ++ [c], List.pairwise_append.mpr
      ⟨r.distinct, List.pairwise_singleton _ _, fun e he x hx => by
        rw [List.mem_singleton.mp hx]
        exact fold_ne_of_not_contains (by simpa using h) e he⟩⟩

/-- The roster without a channel, under any spelling. -/
def erase (r : Roster) (c : Channel) : Roster :=
  ⟨r.entries.filter fun e => e.fold ≠ c.fold, r.distinct.filter _⟩

/-- Puts a channel in, and says whether that made a difference. -/
def join (r : Roster) (c : Channel) : Membership × Roster :=
  if r.contains c then (.unchanged, r) else (.changed, r.insert c)

/-- Takes a channel out, and says whether that made a difference. -/
def part (r : Roster) (c : Channel) : Membership × Roster :=
  if r.contains c then (.changed, r.erase c) else (.unchanged, r)

/-- How many channels are in. -/
def size (r : Roster) : Nat :=
  r.entries.length

/-- Whether no channel is in. -/
def isEmpty (r : Roster) : Bool :=
  r.entries.isEmpty

/-- The channels that are in, in the order of their texts. -/
def snapshot (r : Roster) : List Channel :=
  r.entries.mergeSort fun a b => (compare a.text b.text).isLE

@[simp] theorem entries_empty : (∅ : Roster).entries = [] := rfl

end Roster

end RelayChat
