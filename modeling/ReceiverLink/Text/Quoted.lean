/-
  ReceiverLink.Text.Quoted
  ────────────────────────────────
  **Texts in double quotes.**

  Quotes and backslashes inside are escaped by a backslash, the usual controls
  by their letters, and every other character that cannot be shown by its code
  point in hexadecimal, as `\u` and braces.  A single quote stands as it is.
-/
import ReceiverLink.Text.Numeral
import ReceiverLink.Text.Printable

namespace ReceiverLink.Text

/-- One character as it stands between the quotes. -/
def escape (c : Char) : List Char :=
  if c = '"' then ['\\', '"']
  else if c = '\\' then ['\\', '\\']
  else if c = '\n' then ['\\', 'n']
  else if c = '\r' then ['\\', 'r']
  else if c = '\t' then ['\\', 't']
  else if c = '\x00' then ['\\', '0']
  else if isPrintable c then [c]
  else ['\\', 'u', '\x7b'] ++ Nat.toDigits 16 c.toNat ++ ['\x7d']

/-- The text in double quotes. -/
def quoted (s : String) : String :=
  String.ofList (['"'] ++ s.toList.flatMap escape ++ ['"'])

end ReceiverLink.Text
