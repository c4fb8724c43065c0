/-!
# Text as bytes

`encode` writes characters as UTF-8, `decode` reads bytes back and never fails.
What is not UTF-8 is replaced: each longest stretch of bytes that begins like a
character and cannot be finished becomes one U+FFFD, and a byte that cannot
begin a character becomes one by itself.

The reader is a machine with one byte of input per step.  Between characters it
holds nothing; inside one it holds a `Pending`: how many bytes are still due, in
which range the next one must lie, and the number read so far.  The range is
narrower than that of all continuation bytes only after a first byte that would
otherwise admit overlong forms, surrogates or numbers above U+10FFFF.
-/

namespace RelayChat.Text

/-- The UTF-8 bytes of a text. -/
def encode (cs : List Char) : List UInt8 :=
  cs.flatMap String.utf8EncodeChar

/-- A character whose first bytes have been read. -/
structure Pending where
  /-- How many bytes are due after the next one. -/
  more : Nat
  /-- The lowest value that the next byte may have. -/
  low : Nat
  /-- The highest value that the next byte may have. -/
  high : Nat
  /-- The bits read so far. -/
  bits : Nat
deriving Repr, DecidableEq

/-- What stands in for bytes that are no character. -/
def replacement : Char := Char.ofNat 0xFFFD

/-- What a byte outside ASCII announces as the first byte of a character. -/
def Pending.ofLead (b : Nat) : Option Pending :=
  if b < 0xC2 then none
  else if b < 0xE0 then some ⟨0, 0x80, 0xBF, b - 0xC0⟩
  else if b = 0xE0 then some ⟨1, 0xA0, 0xBF, 0⟩
  else if b = 0xED then some ⟨1, 0x80, 0x9F, 0xD⟩
  else if b < 0xF0 then some ⟨1, 0x80, 0xBF, b - 0xE0⟩
  else if b = 0xF0 then some ⟨2, 0x90, 0xBF, 0⟩
  else if b < 0xF4 then some ⟨2, 0x80, 0xBF, b - 0xF0⟩
  else if b = 0xF4 then some ⟨2, 0x80, 0x8F, 4⟩
  else none

/-- A byte read between two characters: what it completes, and what it leaves pending. -/
def readFirst (b : Nat) : List Char × Option Pending :=
  if b < 0x80 then ([Char.ofNat b], none)
  else
    match Pending.ofLead b with
    | some p => ([], some p)
    | none => ([replacement], none)

/-- A byte read: what it completes, and what it leaves pending.  A byte that does not continue
the pending character is read again as a first byte. -/
def readByte (p : Option Pending) (b : Nat) : List Char × Option Pending :=
  match p with
  | none => readFirst b
  | some p =>
    if p.low ≤ b ∧ b ≤ p.high then
      let bits := p.bits * 64 + (b - 0x80)
      match p.more with
      | 0 => ([Char.ofNat bits], none)
      | n + 1 => ([], some ⟨n, 0x80, 0xBF, bits⟩)
    else
      let (done, p) := readFirst b
      (replacement :: done, p)

/-- The characters of the bytes that follow a pending one. -/
def decodeFrom : Option Pending → List UInt8 → List Char
  | none, [] => []
  | some _, [] => [replacement]
  | p, b :: rest =>
    let (done, p) := readByte p b.toNat
    done ++ decodeFrom p rest

/-- **The characters of a run of bytes**, with U+FFFD for what is not UTF-8. -/
def decode (bytes : List UInt8) : List Char :=
  decodeFrom none bytes

@[simp] theorem decode_nil : decode [] = [] := rfl

end RelayChat.Text
