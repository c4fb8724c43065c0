import RelayChat.Capability
import RelayChat.Proofs.Grammar

/-!
# Capabilities are read by their grammar

```text
capability := [vendor '/'] name
vendor     := label ('.' label)*
label      := alnum+ ('-' alnum+)*
name       := (alnum | '-')+
```

The reader takes a vendor in one go, with hyphens and dots as two joints of one kind,
and gives it up if no slash follows.  The grammar has two levels: labels with hyphens
inside, and dots between labels.  They are the same (`Capability.isVendor_iff`), since
a joint of either kind stands between two letters or digits.

Giving the vendor up is safe since a name has no slash in it, and keeping it is since
nothing but the slash after it ends a vendor.
-/

namespace RelayChat

open Text Grammar

/-! ### Names made of labels, joined once more -/

namespace Text.Labels

variable {inner joint wider : Char → Bool} {front back : List Char} {j : Char}

/-- More characters may join labels. -/
theorem mono (h : Labels inner joint front) (hwider : ∀ c, joint c = true → wider c = true) :
    Labels inner wider front := by
  induction h with
  | single head tail => exact .single head tail
  | joined head tail sep next ih => exact .joined head tail (hwider _ sep) ih

/-- Two names with a joint between them are one. -/
theorem append (hfront : Labels inner joint front) (hj : joint j = true)
    (hback : Labels inner joint back) : Labels inner joint (front ++ j :: back) := by
  induction hfront with
  | single head tail => exact .joined head tail hj hback
  | joined head tail sep next ih =>
      rw [List.append_assoc, List.cons_append]
      exact .joined head tail sep ih

end Text.Labels

/-! ### The grammar -/

/-- A label of a vendor: letters and digits, with single hyphens inside. -/
def IsVendorLabel : List Char → Prop :=
  Labels Char.isAlphanum (· == '-')

/-- A vendor: labels with dots between them. -/
inductive IsVendor : List Char → Prop
  | single {label : List Char} (valid : IsVendorLabel label) : IsVendor label
  | joined {label more : List Char} (valid : IsVendorLabel label) (next : IsVendor more) :
      IsVendor (label ++ '.' :: more)

/-- The name of a capability. -/
def IsCapabilityName (cs : List Char) : Prop :=
  cs ≠ [] ∧ ∀ c ∈ cs, c.isAlphanum = true ∨ c = '-'

/-- The written form of a capability. -/
inductive CapabilityText : List Char → Capability → Prop
  | plain {name : List Char} (valid : IsCapabilityName name) :
      CapabilityText name ⟨none, String.ofList name⟩
  | vendored {vendor name : List Char} (owner : IsVendor vendor) (valid : IsCapabilityName name) :
      CapabilityText (vendor ++ '/' :: name) ⟨some (String.ofList vendor), String.ofList name⟩

namespace Capability

variable {cs vendor left : List Char} {c : Capability} {s : String}

/-- What joins two labels of a vendor, or what is inside of them. -/
def isJoint (c : Char) : Bool :=
  c == '-' || c == '.'

/-- A vendor is a name whose labels are joined by hyphens and by dots. -/
theorem isVendor_iff : IsVendor cs ↔ Labels Char.isAlphanum isJoint cs := by
  have hhyphen : ∀ c, (c == '-') = true → isJoint c = true := fun c hc => by simp [isJoint, hc]
  constructor
  · intro h
    induction h with
    | single valid => exact valid.mono hhyphen
    | joined valid next ih => exact (valid.mono hhyphen).append rfl ih
  · intro h
    induction h with
    | single head tail => exact .single (.single head tail)
    | @joined c j label more head tail sep _ ih =>
        rcases Bool.or_eq_true_iff.mp sep with hj | hj
        · -- A hyphen goes on with the first label of what follows.
          cases ih with
          | single valid => exact .single (.joined head tail hj valid)
          | @joined label' more' valid after =>
              have hlabel : IsVendorLabel (c :: label ++ j :: label') := .joined head tail hj valid
              simpa using IsVendor.joined hlabel after
        · obtain rfl := eq_of_beq hj
          exact .joined (.single head tail) ih

/-- **What is taken as a vendor**: a vendor that cannot go on. -/
theorem readVendor_eq_some_iff :
    readVendor cs = some (vendor, left) ↔
      cs = vendor ++ left ∧ IsVendor vendor ∧ LabelsStop Char.isAlphanum isJoint left := by
  have hdisjoint : ∀ d : Char, isJoint d = true → d.isAlphanum = false := by
    intro d hd
    rcases Bool.or_eq_true_iff.mp hd with hd | hd <;> rw [eq_of_beq hd] <;> decide
  rw [isVendor_iff]
  exact readLabels_eq_some_iff hdisjoint

theorem splitVendor_of_isVendor (h : IsVendor vendor) (rest : List Char) :
    splitVendor (vendor ++ '/' :: rest) = (some vendor, rest) := by
  have hstop : LabelsStop Char.isAlphanum isJoint ('/' :: rest) :=
    ⟨by decide, fun hslash => absurd hslash (by decide)⟩
  rw [splitVendor, readVendor_eq_some_iff.mpr ⟨rfl, h, hstop⟩]
  rfl

theorem splitVendor_of_slash_not_mem (h : '/' ∉ cs) : splitVendor cs = (none, cs) := by
  unfold splitVendor
  split
  · next vendor rest hread =>
    obtain ⟨rfl, -, -⟩ := readVendor_eq_some_iff.mp hread
    exact absurd (by simp) h
  · rfl

/-- A vendor was taken with the slash after it, or nothing was. -/
theorem splitVendor_cases (cs : List Char) :
    (∃ vendor rest, cs = vendor ++ '/' :: rest ∧ IsVendor vendor ∧
        splitVendor cs = (some vendor, rest)) ∨
      splitVendor cs = (none, cs) := by
  by_cases h : ∃ vendor rest, readVendor cs = some (vendor, '/' :: rest)
  · obtain ⟨vendor, rest, hread⟩ := h
    obtain ⟨rfl, hvendor, -⟩ := readVendor_eq_some_iff.mp hread
    exact .inl ⟨vendor, rest, rfl, hvendor, splitVendor_of_isVendor hvendor rest⟩
  · refine .inr ?_
    unfold splitVendor
    split
    · next vendor rest hread => exact absurd ⟨vendor, rest, hread⟩ h
    · rfl

theorem isCapabilityName_iff :
    IsCapabilityName cs ↔ cs ≠ [] ∧ ∀ c ∈ cs, isNameChar c = true := by
  simp [IsCapabilityName, isNameChar]

/-- What is read behind a vendor is a name, and nothing is left after it. -/
theorem readRun_name_iff {name : List Char} :
    readRun isNameChar cs = some (name, []) ↔ cs = name ∧ IsCapabilityName name := by
  rw [readRun_eq_some_iff, isCapabilityName_iff, List.append_nil]
  exact ⟨fun ⟨hcs, hne, hclass, _⟩ => ⟨hcs, hne, hclass⟩,
    fun ⟨hcs, hne, hclass⟩ => ⟨hcs, hne, hclass, stops_nil⟩⟩

/-- **The capabilities that are read** are those of the grammar. -/
theorem ofChars?_eq_some_iff : ofChars? cs = some c ↔ CapabilityText cs c := by
  constructor
  · intro h
    rcases splitVendor_cases cs with ⟨vendor, rest, rfl, hvendor, hsplit⟩ | hsplit
    · rw [ofChars?, hsplit] at h
      simp only at h
      split at h
      · next name hrun =>
        obtain ⟨rfl, hname⟩ := readRun_name_iff.mp hrun
        obtain rfl := Option.some.inj h
        exact .vendored hvendor hname
      · cases h
    · rw [ofChars?, hsplit] at h
      simp only at h
      split at h
      · next name hrun =>
        obtain ⟨rfl, hname⟩ := readRun_name_iff.mp hrun
        obtain rfl := Option.some.inj h
        exact .plain hname
      · cases h
  · intro h
    cases h with
    | @plain name valid =>
        have hslash : '/' ∉ cs := fun hmem => by simpa using valid.2 _ hmem
        rw [ofChars?, splitVendor_of_slash_not_mem hslash]
        simp only [readRun_name_iff.mpr ⟨rfl, valid⟩, Option.map_none]
    | @vendored vendor name owner valid =>
        rw [ofChars?, splitVendor_of_isVendor owner]
        simp only [readRun_name_iff.mpr ⟨rfl, valid⟩, Option.map_some]

/-- A capability is printed as it is written. -/
theorem chars_of_capabilityText (h : CapabilityText cs c) : c.chars = cs := by
  cases h <;> simp [chars]

theorem parse_eq_ok_iff : parse s = .ok c ↔ CapabilityText s.toList c := by
  rw [← ofChars?_eq_some_iff]
  unfold parse
  split <;> simp_all

/-! ### The characters of a capability -/

/-- The characters of a capability, the vendor and its slash included. -/
def isTextChar (d : Char) : Bool :=
  d.isAlphanum || d == '-' || d == '.' || d == '/'

theorem isTextChar_of_capabilityText (h : CapabilityText cs c) :
    ∀ d ∈ cs, isTextChar d = true := by
  have hname : ∀ {name : List Char}, IsCapabilityName name → ∀ d ∈ name, isTextChar d = true := by
    intro name hvalid d hd
    rcases hvalid.2 d hd with hd | rfl
    · simp [isTextChar, hd]
    · decide
  cases h with
  | plain valid => exact hname valid
  | @vendored vendor name owner valid =>
      have hslashed : ∀ d ∈ '/' :: name, isTextChar d = true :=
        List.forall_mem_cons.mpr ⟨by decide, hname valid⟩
      refine List.forall_mem_append.mpr ⟨fun d hd => ?_, hslashed⟩
      rcases (isVendor_iff.mp owner).mem hd with hd | hd | hd
      · simp [isTextChar, hd]
      · simp [isTextChar, hd]
      · rcases Bool.or_eq_true_iff.mp hd with hd | hd <;> rw [eq_of_beq hd] <;> decide

/-- **A capability is printed as it was read**, and what can be read has no spaces or breaks. -/
theorem text_of_parse (h : parse s = .ok c) :
    c.text = s ∧ ∀ d ∈ s.toList, isTextChar d = true := by
  have hform := parse_eq_ok_iff.mp h
  refine ⟨?_, isTextChar_of_capabilityText hform⟩
  rw [text, chars_of_capabilityText hform, String.ofList_toList]

theorem isUnbroken_of_parse (h : parse s = .ok c) : IsUnbroken c.text.toList := by
  obtain ⟨htext, hclass⟩ := text_of_parse h
  rw [htext]
  exact isUnbroken_of_class (by decide) (by decide) hclass

end Capability

end RelayChat
