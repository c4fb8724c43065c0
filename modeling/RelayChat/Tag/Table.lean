import RelayChat.Tag.Key

/-!
# The tags of a message

A message has at most one tag under a key, and its tags stand in the order of
their keys.  Both are said by one proof field, so two tables with the same
entries are equal, and the entries are the form that is written.

A tag has a value or has none; a tag without a value is not a tag with an empty
one.
-/

namespace RelayChat

/-- A tag: its key, and the written form of its value if it has one. -/
abbrev Tag := TagKey × Option String

/-- The entries are in the order of their keys, with no key twice. -/
def Tag.Ordered (entries : List Tag) : Prop :=
  entries.Pairwise fun a b => compare a.1 b.1 = .lt

/-- The tags of a message. -/
structure Tags where
  /-- The tags in the order of their keys. -/
  entries : List Tag
  /-- No key occurs twice, and the order is that of the keys. -/
  ordered : Tag.Ordered entries

namespace Tags

/-- Two tables with the same entries are the same. -/
@[ext] theorem ext {a b : Tags} (h : a.entries = b.entries) : a = b := by
  cases a
  cases b
  simp_all

instance : DecidableEq Tags := fun a b =>
  if h : a.entries = b.entries then isTrue (ext h) else isFalse fun e => h (e ▸ rfl)

instance : Repr Tags := ⟨fun t _ => repr t.entries⟩

/-- No tags. -/
def empty : Tags :=
  ⟨[], List.Pairwise.nil⟩

instance : EmptyCollection Tags := ⟨empty⟩

instance : Inhabited Tags := ⟨empty⟩

/-- Puts a tag among ordered ones, in place of the one under its key. -/
def put (key : TagKey) (value : Option String) : List Tag → List Tag
  | [] => [(key, value)]
  | tag :: rest =>
    match compare key tag.1 with
    | .lt => (key, value) :: tag :: rest
    | .eq => (key, value) :: rest
    | .gt => tag :: put key value rest

/-- To put a tag in brings in that tag and no other. -/
theorem mem_put {key : TagKey} {value : Option String} {tag : Tag} {entries : List Tag}
    (h : tag ∈ put key value entries) : tag = (key, value) ∨ tag ∈ entries := by
  induction entries with
  | nil => simpa [put] using h
  | cons head rest ih =>
    unfold put at h
    split at h
    · simpa using h
    · rcases List.mem_cons.mp h with h | h
      · exact .inl h
      · exact .inr (List.mem_cons_of_mem _ h)
    · rcases List.mem_cons.mp h with h | h
      · exact .inr (h ▸ List.mem_cons_self)
      · exact (ih h).imp_right (List.mem_cons_of_mem _)

/-- The order of the keys is kept, so each is there once. -/
theorem ordered_put (key : TagKey) (value : Option String) {entries : List Tag}
    (h : Tag.Ordered entries) : Tag.Ordered (put key value entries) := by
  induction entries with
  | nil => simp [put, Tag.Ordered]
  | cons head rest ih =>
    obtain ⟨hhead, hrest⟩ := List.pairwise_cons.mp h
    unfold put
    split
    · next hlt =>
      refine List.pairwise_cons.mpr ⟨fun tag htag => ?_, h⟩
      rcases List.mem_cons.mp htag with rfl | htag
      · exact hlt
      · exact Std.TransCmp.lt_trans hlt (hhead tag htag)
    · next heq =>
      rw [Std.LawfulEqOrd.compare_eq_iff_eq] at heq
      exact List.pairwise_cons.mpr ⟨fun tag htag => heq ▸ hhead tag htag, hrest⟩
    · next hgt =>
      refine List.pairwise_cons.mpr ⟨fun tag htag => ?_, ih hrest⟩
      rcases mem_put htag with rfl | htag
      · exact Std.OrientedCmp.lt_of_gt hgt
      · exact hhead tag htag

/-- Records a tag, in place of an earlier one under the same key. -/
def insert (t : Tags) (key : TagKey) (value : Option String) : Tags :=
  ⟨put key value t.entries, ordered_put key value t.ordered⟩

/-- Records tags one after the other: of those under one key the last stays. -/
def insertAll (t : Tags) (tags : List Tag) : Tags :=
  tags.foldl (fun t tag => t.insert tag.1 tag.2) t

/-- The tag under a key: `none` without the tag, `some none` for a tag without a value. -/
def get? (t : Tags) (key : TagKey) : Option (Option String) :=
  (t.entries.find? fun tag => tag.1 = key).map (·.2)

/-- How many tags there are. -/
def size (t : Tags) : Nat :=
  t.entries.length

@[simp] theorem entries_empty : (∅ : Tags).entries = [] := rfl

@[simp] theorem entries_insert (t : Tags) (key : TagKey) (value : Option String) :
    (t.insert key value).entries = put key value t.entries := rfl

end Tags

end RelayChat
