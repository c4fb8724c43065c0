import RelayChat.Address.Host
import RelayChat.Capability

/-!
# Tag keys

A message tag is found under a key: an optional `+`, which marks a tag meant for
clients only, an optional host name and a slash for the vendor, and a name.

Keys are ordered: those without `+` first, then those without a vendor, then by
vendor and by name.  This is the order in which the tags of a message are kept
and written, so the comparison is part of the type's contract.
-/

namespace RelayChat

/-- The key of a message tag. -/
structure TagKey where
  /-- Whether the tag is for clients only, and so begins with `+`. -/
  clientOnly : Bool
  /-- Whose tag it is, if it is nobody's standard. -/
  vendor : Option String
  /-- The name. -/
  name : String
deriving Repr, DecidableEq

namespace TagKey

open Text

/-- A key with no more than a name. -/
def plain (name : String) : TagKey :=
  ⟨false, none, name⟩

instance : Ord TagKey where
  compare := compareLex (compareOn clientOnly) (compareLex (compareOn vendor) (compareOn name))

/-- The characters of a key. -/
def chars (k : TagKey) : List Char :=
  (if k.clientOnly then ['+'] else [])
    ++ (match k.vendor with | some vendor => vendor.toList ++ ['/'] | none => [])
    ++ k.name.toList

/-- The text of a key. -/
def text (k : TagKey) : String :=
  String.ofList k.chars

instance : ToString TagKey := ⟨text⟩

/-- The characters of a name. -/
def isNameChar (c : Char) : Bool :=
  c.isAlphanum || c == '-'

/-- Takes the `+` of a key, if it is there. -/
def splitPlus : List Char → Bool × List Char
  | '+' :: rest => (true, rest)
  | cs => (false, cs)

/-- Takes a vendor and the slash after it, if that is what the text begins with. -/
def splitVendor (cs : List Char) : Option (List Char) × List Char :=
  match Host.readName cs with
  | some (vendor, '/' :: rest) => (some vendor, rest)
  | _ => (none, cs)

/-- Reads a key from the front of `cs`: the key and what is left.  On failure, the text where
the name should have begun. -/
def read (cs : List Char) : Except (List Char) (TagKey × List Char) :=
  let (clientOnly, rest) := splitPlus cs
  let (vendor, rest) := splitVendor rest
  match readRun isNameChar rest with
  | some (name, left) =>
    .ok (⟨clientOnly, vendor.map String.ofList, String.ofList name⟩, left)
  | none => .error rest

theorem length_splitPlus_le (cs : List Char) : (splitPlus cs).2.length ≤ cs.length := by
  unfold splitPlus
  split <;> simp

theorem length_splitVendor_le (cs : List Char) : (splitVendor cs).2.length ≤ cs.length := by
  unfold splitVendor
  split
  · next vendor rest heq =>
    have happ := congrArg List.length (readLabels_append heq)
    simp only [List.length_append, List.length_cons] at happ ⊢
    omega
  · exact Nat.le_refl _

/-- A key is not empty. -/
theorem length_read {cs left : List Char} {key : TagKey} (h : read cs = .ok (key, left)) :
    left.length < cs.length := by
  unfold read at h
  simp only at h
  split at h
  · next name rest heq =>
    obtain ⟨-, rfl⟩ := by simpa using h
    exact Nat.lt_of_lt_of_le (length_readRun heq)
      (Nat.le_trans (length_splitVendor_le _) (length_splitPlus_le cs))
  · exact absurd h (by simp)

/-- Reads a key that is the whole of `cs`. -/
def ofChars? (cs : List Char) : Option TagKey :=
  match read cs with
  | .ok (key, []) => some key
  | _ => none

/-- Reads a key. -/
def parse (s : String) : Except ValueError TagKey :=
  match ofChars? s.toList with
  | some key => .ok key
  | none => .error (.tagKey s)

/-- The key that a caller means by a text: the key it reads as, or else a key whose name is the
whole text. -/
def named (s : String) : TagKey :=
  (ofChars? s.toList).getD (plain s)

/-! ### The order is linear -/

instance : Std.TransOrd TagKey :=
  inferInstanceAs (Std.TransCmp (compareLex (compareOn clientOnly)
    (compareLex (compareOn vendor) (compareOn name))))

instance : Std.LawfulEqOrd TagKey where
  eq_of_compare {a b} h := by
    have h : ((compare a.clientOnly b.clientOnly).then
        ((compare a.vendor b.vendor).then (compare a.name b.name))) = .eq := h
    rw [Ordering.then_eq_eq, Ordering.then_eq_eq, Std.LawfulEqOrd.compare_eq_iff_eq,
      Std.LawfulEqOrd.compare_eq_iff_eq, Std.LawfulEqOrd.compare_eq_iff_eq] at h
    cases a
    cases b
    simp_all

end TagKey

end RelayChat
