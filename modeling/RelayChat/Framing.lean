import RelayChat.Failure
import RelayChat.Text.Splitting
import RelayChat.Text.Utf8

/-!
# Lines in a stream of bytes

Over a stream connection lines are told apart by the line feed.  Bytes arrive in
pieces of any size and wait in a buffer; `Framer.decode` takes one line off the
front of the buffer, if a whole one is there.  It remembers how far it has looked,
so that bytes which hold no line feed are looked at once.

A line may not be longer than `limit` bytes, its line feed included.  A whole
line that is too long is taken off and reported.  Bytes that are too many already
and hold no line feed are reported and stay.

A line is decoded leniently and loses all carriage returns and line feeds at its
end.  `Framer.encode` writes a line: it drops those at the end and adds one CRLF.
-/

namespace RelayChat

/-- The longest line that is accepted, in bytes, by a reader that is not told another. -/
def Framer.defaultLimit : Nat := 8191

/-- A reader of lines from a buffer. -/
structure Framer where
  /-- The longest line that is accepted, in bytes. -/
  limit : Nat := Framer.defaultLimit
  /-- How many bytes of the buffer are known to hold no line feed. -/
  scanned : Nat := 0
deriving Repr, DecidableEq

namespace Framer

/-- The line feed. -/
def lineFeed : UInt8 := 10

/-- The text of a line's bytes. -/
def lineText (bytes : List UInt8) : String :=
  String.ofList (Text.trimEnd Line.isBreak (Text.decode bytes))

/-- What one reading gives: a line if there is one, or an error. -/
abbrev Answer := Except TransportError (Option String)

/-- **Takes one line** off the buffer: the answer, the reader after it, and what is left. -/
def decode (f : Framer) (buffer : List UInt8) : Answer × Framer × List UInt8 :=
  match (buffer.drop f.scanned).idxOf? lineFeed with
  | some i =>
    let length := f.scanned + i + 1
    let answer :=
      if f.limit < length then .error (.lineTooLong length f.limit)
      else .ok (some (lineText (buffer.take length)))
    (answer, { f with scanned := 0 }, buffer.drop length)
  | none =>
    let answer :=
      if f.limit < buffer.length then .error (.lineTooLong buffer.length f.limit) else .ok none
    (answer, { f with scanned := buffer.length }, buffer)

/-- Takes one line when no more bytes will come; bytes that make no line are an error then. -/
def decodeLast (f : Framer) (buffer : List UInt8) : Answer × Framer × List UInt8 :=
  match f.decode buffer with
  | (.ok none, f, left) =>
    (if left.isEmpty then .ok none else .error (.io "bytes remaining on stream"), f, left)
  | result => result

/-- The bytes that a line is sent as. -/
def encode (line : List Char) : List UInt8 :=
  Text.encode (Text.trimEnd Line.isBreak line ++ ['\r', '\n'])

end Framer

end RelayChat
