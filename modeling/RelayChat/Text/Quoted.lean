import RelayChat.Text.Hidden

/-!
# Quoted text

How a message shows a text that may hold anything: between double quotes, with
a backslash before a quote or a backslash, the four common controls by letter,
and every other `hidden` character by its number in hexadecimal, without leading
zeros and in lower case.  All else stands for itself, a single quote included.
-/

namespace RelayChat.Text

/-- How one character is written inside double quotes. -/
def quoteChar (c : Char) : List Char :=
  if c = '"' then ['\\', '"']
  else if c = '\\' then ['\\', '\\']
  else if c = '\x00' then ['\\', '0']
  else if c = '\t' then ['\\', 't']
  else if c = '\n' then ['\\', 'n']
  else if c = '\r' then ['\\', 'r']
  else if hidden.has c then
    ['\\', 'u', '\x7b'] ++ Nat.toDigits 16 c.toNat ++ ['\x7d']
  else [c]

/-- **Quoted text**: `s` between double quotes, each character written by `quoteChar`. -/
def quoted (s : String) : String :=
  String.ofList ('"' :: s.toList.flatMap quoteChar ++ ['"'])

end RelayChat.Text
