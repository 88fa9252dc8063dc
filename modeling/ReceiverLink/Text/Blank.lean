/-
  ReceiverLink.Text.Blank
  ────────────────────────────────
  **White space, and texts without it at their ends.**

  A character is blank when it has the Unicode property `White_Space`
  (`isBlank`).  `trim` drops the blank characters at both ends of a text and
  keeps those inside; `trimEnd` drops them at the end only.
-/

namespace ReceiverLink.Text

/-! ## §1. The class of blank characters. -/

/-- The characters with the Unicode property `White_Space`. -/
def isBlank (c : Char) : Bool :=
  let n := c.toNat
  (9 ≤ n && n ≤ 13) || n == 0x20 || n == 0x85 || n == 0xA0 || n == 0x1680 ||
    (0x2000 ≤ n && n ≤ 0x200A) || n == 0x2028 || n == 0x2029 || n == 0x202F ||
    n == 0x205F || n == 0x3000

/-! ## §2. Trimming. -/

/-- The text without the blank characters at its start. -/
def trimStart (s : List Char) : List Char :=
  s.dropWhile isBlank

/-- The text without the blank characters at its end. -/
def trimEnd (s : List Char) : List Char :=
  (s.reverse.dropWhile isBlank).reverse

/-- The text without the blank characters at either end. -/
def trim (s : List Char) : List Char :=
  trimEnd (trimStart s)

end ReceiverLink.Text
