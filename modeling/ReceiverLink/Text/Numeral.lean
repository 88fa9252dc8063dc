/-
  ReceiverLink.Text.Numeral
  ────────────────────────────────
  **Decimal and hexadecimal numerals.**

  `natural?` reads an optional `+` and then at least one ASCII digit, and
  refuses values above a bound.  `integer?` also takes a `-`.  Nothing else is
  skipped: no blanks, no separators.  `hex` writes a number in lower-case
  hexadecimal digits.
-/

namespace ReceiverLink.Text

/-! ## §1. Reading. -/

/-- The value of an ASCII decimal digit. -/
def digit? (c : Char) : Option Nat :=
  if '0' ≤ c ∧ c ≤ '9' then some (c.toNat - '0'.toNat) else none

/-- The value of a text that holds ASCII digits only, and at least one. -/
def digits? : List Char → Option Nat
  | [] => none
  | c :: cs => (c :: cs).foldl (fun acc c => do return (← acc) * 10 + (← digit? c)) (some 0)

/-- The text without one leading `+`. -/
def dropPlus : List Char → List Char
  | '+' :: cs => cs
  | cs => cs

/-- A natural number of at most `bound`. -/
def natural? (bound : Nat) (s : List Char) : Option Nat :=
  (digits? (dropPlus s)).filter (· ≤ bound)

/-- A signed number of any size. -/
def integer? : List Char → Option Int
  | '-' :: cs => (digits? cs).map fun n => -(n : Int)
  | cs => (digits? (dropPlus cs)).map fun n => (n : Int)

/-! ## §2. Writing. -/

/-- The text of a number in decimal digits. -/
def decimal (n : Nat) : String :=
  String.ofList (Nat.toDigits 10 n)

/-- A byte as two lower-case hexadecimal digits. -/
def hexByte (b : UInt8) : String :=
  String.ofList [Nat.digitChar (b.toNat / 16), Nat.digitChar (b.toNat % 16)]

end ReceiverLink.Text
