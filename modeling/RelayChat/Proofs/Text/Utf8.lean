import Mathlib.Data.List.Basic
import RelayChat.Text.Utf8

/-!
# Text comes back from its bytes

The reader goes byte by byte.  A character of one byte is there at once; the first byte of
a longer one says how many are due and within which bounds the next one lies, and the
bytes that are written for a character lie within them.  So each character is read off its
bytes, whatever comes after, and the text with them (`decode_encode`).

Bytes above 127 are written for characters outside ASCII only, so a byte of ASCII occurs
as often as its character (`count_encode`).
-/

namespace RelayChat.Text

theorem decodeFrom_cons (p : Option Pending) (b : UInt8) (rest : List UInt8) :
    decodeFrom p (b :: rest) =
      (readByte p b.toNat).1 ++ decodeFrom (readByte p b.toNat).2 rest := by
  cases p <;> rfl

/-! ### The first byte -/

theorem readFirst_of_lt {b : Nat} (h : b < 0x80) : readFirst b = ([Char.ofNat b], none) := by
  rw [readFirst, if_pos h]

theorem readFirst_of_lead {b : Nat} {p : Pending} (h : 0x80 ≤ b)
    (hlead : Pending.ofLead b = some p) :
    readFirst b = ([], some p) := by
  rw [readFirst, if_neg (Nat.not_lt.mpr h), hlead]

/-- The first byte of a character of two. -/
theorem ofLead_two {v : Nat} (hlow : 0x80 ≤ v) (hhigh : v < 0x800) :
    Pending.ofLead (v / 64 % 32 + 192) = some ⟨0, 0x80, 0xBF, v / 64⟩ := by
  have hv : v / 64 % 32 = v / 64 := Nat.mod_eq_of_lt (by omega)
  rw [hv, Pending.ofLead, if_neg (by omega), if_pos (by omega), Nat.add_sub_cancel]

/-- The first byte of a character of three; the second one, which is no part of an overlong form
or a surrogate, is within its bounds. -/
theorem ofLead_three {v : Nat} (hlow : 0x800 ≤ v) (hhigh : v < 0x10000)
    (hsurrogate : v < 0xD800 ∨ 0xDFFF < v) :
    ∃ low high, Pending.ofLead (v / 4096 % 16 + 224) = some ⟨1, low, high, v / 4096⟩ ∧
      low ≤ v / 64 % 64 + 128 ∧ v / 64 % 64 + 128 ≤ high := by
  have hv : v / 4096 % 16 = v / 4096 := Nat.mod_eq_of_lt (by omega)
  rw [hv, Pending.ofLead, if_neg (by omega), if_neg (by omega)]
  by_cases hzero : v / 4096 = 0
  · exact ⟨0xA0, 0xBF, by rw [if_pos (by omega), hzero], by omega, by omega⟩
  rw [if_neg (by omega)]
  by_cases hsecond : v / 4096 = 13
  · exact ⟨0x80, 0x9F, by rw [if_pos (by omega), hsecond], by omega, by omega⟩
  rw [if_neg (by omega), if_pos (by omega), Nat.add_sub_cancel]
  exact ⟨0x80, 0xBF, rfl, by omega, by omega⟩

/-- The first byte of a character of four, with the second one within its bounds. -/
theorem ofLead_four {v : Nat} (hlow : 0x10000 ≤ v) (hhigh : v < 0x110000) :
    ∃ low high, Pending.ofLead (v / 262144 % 8 + 240) = some ⟨2, low, high, v / 262144⟩ ∧
      low ≤ v / 4096 % 64 + 128 ∧ v / 4096 % 64 + 128 ≤ high := by
  have hv : v / 262144 % 8 = v / 262144 := Nat.mod_eq_of_lt (by omega)
  rw [hv, Pending.ofLead, if_neg (by omega), if_neg (by omega), if_neg (by omega),
    if_neg (by omega), if_neg (by omega)]
  by_cases hzero : v / 262144 = 0
  · exact ⟨0x90, 0xBF, by rw [if_pos (by omega), hzero], by omega, by omega⟩
  rw [if_neg (by omega)]
  by_cases hlast : v / 262144 = 4
  · exact ⟨0x80, 0x8F, by rw [if_neg (by omega), if_pos (by omega), hlast], by omega, by omega⟩
  rw [if_pos (by omega), Nat.add_sub_cancel]
  exact ⟨0x80, 0xBF, rfl, by omega, by omega⟩

/-! ### The bytes that follow -/

/-- The last byte of a character. -/
theorem readByte_last {low high bits n : Nat} (hlow : low ≤ n + 128) (hhigh : n + 128 ≤ high) :
    readByte (some ⟨0, low, high, bits⟩) (n + 128) = ([Char.ofNat (bits * 64 + n)], none) := by
  rw [readByte, if_pos ⟨hlow, hhigh⟩, Nat.add_sub_cancel]

/-- A byte of a character that more bytes follow. -/
theorem readByte_more {more low high bits n : Nat} (hlow : low ≤ n + 128) (hhigh : n + 128 ≤ high) :
    readByte (some ⟨more + 1, low, high, bits⟩) (n + 128) =
      ([], some ⟨more, 0x80, 0xBF, bits * 64 + n⟩) := by
  rw [readByte, if_pos ⟨hlow, hhigh⟩, Nat.add_sub_cancel]

theorem toNat_ofNat_of_lt {n : Nat} (h : n < 256) : (UInt8.ofNat n).toNat = n := by
  rw [UInt8.toNat_ofNat']
  exact Nat.mod_eq_of_lt h

/-- The bytes of a character of two are read, up to the last. -/
theorem decodeFrom_two {v : Nat} (hlow : 0x80 ≤ v) (hhigh : v < 0x800) (rest : List UInt8) :
    decodeFrom none (UInt8.ofNat (v / 64 % 32 + 192) :: UInt8.ofNat (v % 64 + 128) :: rest) =
      Char.ofNat v :: decodeFrom none rest := by
  have hbits : v / 64 * 64 + v % 64 = v := by omega
  rw [decodeFrom_cons, toNat_ofNat_of_lt (by omega), readByte,
    readFirst_of_lead (by omega) (ofLead_two hlow hhigh), List.nil_append,
    decodeFrom_cons, toNat_ofNat_of_lt (by omega), readByte_last (by omega) (by omega), hbits]
  rfl

/-- The bytes of a character of three. -/
theorem decodeFrom_three {v : Nat} (hlow : 0x800 ≤ v) (hhigh : v < 0x10000)
    (hsurrogate : v < 0xD800 ∨ 0xDFFF < v) (rest : List UInt8) :
    decodeFrom none (UInt8.ofNat (v / 4096 % 16 + 224) :: UInt8.ofNat (v / 64 % 64 + 128) ::
      UInt8.ofNat (v % 64 + 128) :: rest) = Char.ofNat v :: decodeFrom none rest := by
  obtain ⟨low, high, hlead, hsecond, hsecond'⟩ := ofLead_three hlow hhigh hsurrogate
  have hbits : (v / 4096 * 64 + v / 64 % 64) * 64 + v % 64 = v := by omega
  rw [decodeFrom_cons, toNat_ofNat_of_lt (by omega), readByte,
    readFirst_of_lead (by omega) hlead, List.nil_append,
    decodeFrom_cons, toNat_ofNat_of_lt (by omega), readByte_more hsecond hsecond',
    List.nil_append,
    decodeFrom_cons, toNat_ofNat_of_lt (by omega), readByte_last (by omega) (by omega), hbits]
  rfl

/-- The bytes of a character of four. -/
theorem decodeFrom_four {v : Nat} (hlow : 0x10000 ≤ v) (hhigh : v < 0x110000)
    (rest : List UInt8) :
    decodeFrom none (UInt8.ofNat (v / 262144 % 8 + 240) :: UInt8.ofNat (v / 4096 % 64 + 128) ::
      UInt8.ofNat (v / 64 % 64 + 128) :: UInt8.ofNat (v % 64 + 128) :: rest) =
        Char.ofNat v :: decodeFrom none rest := by
  obtain ⟨low, high, hlead, hsecond, hsecond'⟩ := ofLead_four hlow hhigh
  have hbits : ((v / 262144 * 64 + v / 4096 % 64) * 64 + v / 64 % 64) * 64 + v % 64 = v := by
    omega
  rw [decodeFrom_cons, toNat_ofNat_of_lt (by omega), readByte,
    readFirst_of_lead (by omega) hlead, List.nil_append,
    decodeFrom_cons, toNat_ofNat_of_lt (by omega), readByte_more hsecond hsecond',
    List.nil_append,
    decodeFrom_cons, toNat_ofNat_of_lt (by omega), readByte_more (by omega) (by omega),
    List.nil_append,
    decodeFrom_cons, toNat_ofNat_of_lt (by omega), readByte_last (by omega) (by omega), hbits]
  rfl

/-- **A character is read off its bytes**, whatever follows them. -/
theorem decodeFrom_utf8EncodeChar (c : Char) (rest : List UInt8) :
    decodeFrom none (String.utf8EncodeChar c ++ rest) = c :: decodeFrom none rest := by
  have hvalid : c.val.toNat < 0xD800 ∨ 0xDFFF < c.val.toNat ∧ c.val.toNat < 0x110000 := c.valid
  have hc : Char.ofNat c.val.toNat = c := Char.ofNat_toNat c
  rw [String.utf8EncodeChar]
  generalize c.val.toNat = v at hc hvalid ⊢
  subst hc
  by_cases hone : v ≤ 127
  · rw [if_pos hone, List.singleton_append, decodeFrom_cons, toNat_ofNat_of_lt (by omega),
      readByte, readFirst_of_lt (by omega)]
    rfl
  rw [if_neg hone]
  by_cases htwo : v ≤ 2047
  · rw [if_pos htwo]
    exact decodeFrom_two (Nat.not_le.mp hone) (Nat.lt_succ_of_le htwo) rest
  rw [if_neg htwo]
  by_cases hthree : v ≤ 65535
  · rw [if_pos hthree]
    exact decodeFrom_three (Nat.not_le.mp htwo) (Nat.lt_succ_of_le hthree) (by omega) rest
  · rw [if_neg hthree]
    exact decodeFrom_four (Nat.not_le.mp hthree) (by omega) rest

/-- **A text comes back from its bytes.** -/
theorem decode_encode (cs : List Char) : decode (encode cs) = cs := by
  rw [decode, encode]
  induction cs with
  | nil => rfl
  | cons c cs ih => rw [List.flatMap_cons, decodeFrom_utf8EncodeChar, ih]

/-! ### Bytes of ASCII -/

theorem le_toNat_ofNat {n : Nat} (hlow : 0x80 ≤ n) (hhigh : n < 256) :
    0x80 ≤ (UInt8.ofNat n).toNat := by
  rwa [toNat_ofNat_of_lt hhigh]

/-- Outside ASCII all bytes of a character are above 127. -/
theorem le_toNat_of_mem {c : Char} (hc : ¬ c.val.toNat ≤ 127) :
    ∀ b ∈ String.utf8EncodeChar c, 0x80 ≤ b.toNat := by
  have hfollowing : ∀ v : Nat, 0x80 ≤ (UInt8.ofNat (v % 64 + 128)).toNat := fun v =>
    le_toNat_ofNat (by omega) (by omega)
  rw [String.utf8EncodeChar, if_neg hc]
  split
  · simp only [List.forall_mem_cons]
    exact ⟨le_toNat_ofNat (by omega) (by omega), hfollowing _, by simp⟩
  · split
    · simp only [List.forall_mem_cons]
      exact ⟨le_toNat_ofNat (by omega) (by omega), hfollowing _, hfollowing _, by simp⟩
    · simp only [List.forall_mem_cons]
      exact ⟨le_toNat_ofNat (by omega) (by omega), hfollowing _, hfollowing _, hfollowing _,
        by simp⟩

/-- A byte of ASCII is written for its character, and for no other. -/
theorem count_utf8EncodeChar (c d : Char) (hd : d.val.toNat < 0x80) :
    (String.utf8EncodeChar c).count (UInt8.ofNat d.val.toNat) = [c].count d := by
  have hbyte : (UInt8.ofNat d.val.toNat).toNat < 0x80 := by
    rwa [toNat_ofNat_of_lt (by omega)]
  by_cases hascii : c.val.toNat ≤ 127
  · have hiff : UInt8.ofNat c.val.toNat = UInt8.ofNat d.val.toNat ↔ c = d := by
      constructor
      · intro h
        have hnat := congrArg UInt8.toNat h
        rw [toNat_ofNat_of_lt (by omega), toNat_ofNat_of_lt (by omega)] at hnat
        exact Char.ext (UInt32.toNat_inj.mp hnat)
      · rintro rfl
        rfl
    rw [String.utf8EncodeChar, if_pos hascii, List.count_singleton, List.count_singleton]
    simp only [beq_iff_eq, hiff]
  · have hne : c ≠ d := by
      rintro rfl
      omega
    rw [List.count_eq_zero_of_not_mem (a := d) (by simpa using hne.symm),
      List.count_eq_zero]
    intro hmem
    exact absurd (le_toNat_of_mem hascii _ hmem) (Nat.not_le.mpr hbyte)

/-- **A byte of ASCII occurs as often as its character.** -/
theorem count_encode (cs : List Char) (d : Char) (hd : d.val.toNat < 0x80) :
    (encode cs).count (UInt8.ofNat d.val.toNat) = cs.count d := by
  induction cs with
  | nil => rfl
  | cons c cs ih =>
      rw [encode, List.flatMap_cons, List.count_append, ← encode, ih, count_utf8EncodeChar c d hd,
        ← List.count_append, List.singleton_append]

end RelayChat.Text
