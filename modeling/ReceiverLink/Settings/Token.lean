/-
  ReceiverLink.Settings.Token
  ────────────────────────────────
  **The tokens of a JSON text.**

  `tokens` cuts a text into its tokens and leaves blanks out.  A text that is
  no JSON still has tokens up to the first thing that is none; that thing
  becomes the last token and says what is wrong, so a reader that stops
  earlier never sees it.

  Two readers use the tokens.  A strict reader needs the value of a string or
  a number; a skipping reader only passes over it and is more lenient about
  what it passes over.  Tokens on which the two differ say so.
-/
import ReceiverLink.Text.Utf8

namespace ReceiverLink.Settings

/-! ## §1. Problems and tokens. -/

/-- What can be wrong with a text of settings. -/
inductive Problem where
  /-- It is not JSON. -/
  | malformed
  /-- It is JSON with a value of the wrong type, or a setting given twice. -/
  | mismatched
  /-- It ends too early. -/
  | truncated
  deriving Repr, DecidableEq

/-- A token. -/
inductive Token where
  | openObject
  | closeObject
  | openArray
  | closeArray
  | colon
  | comma
  | null
  | bool (value : Bool)
  /-- A number, and whether it is beyond what a double can hold. -/
  | number (tooLarge : Bool)
  /-- A string: its bytes, or what a strict reader finds wrong with it. -/
  | string (content : Except Problem (List UInt8))
  /-- A string that does not end, for a strict and for a skipping reader. -/
  | brokenString (strict skipped : Problem)
  /-- A number that breaks off, for a strict reader; to a skipping reader it
  is always malformed. -/
  | brokenNumber (strict : Problem)
  /-- A word or a character that is no token. -/
  | broken (problem : Problem)

/-- A token and the bytes after it. -/
abbrev Lexeme := Token × List UInt8

/-! ## §2. Words. -/

/-- The rest of a word, of which the first letter has been read. -/
def word (token : Token) : List UInt8 → List UInt8 → Lexeme
  | [], rest => (token, rest)
  | _ :: _, [] => (.broken .truncated, [])
  | e :: es, b :: rest => if e = b then word token es rest else (.broken .malformed, [])

/-! ## §3. Numbers. -/

/-- An ASCII digit. -/
def isDigit (b : UInt8) : Bool :=
  0x30 ≤ b && b ≤ 0x39

/-- The number that a row of digits writes. -/
def digitsValue (digits : List UInt8) : Nat :=
  digits.foldl (fun acc b => acc * 10 + (b.toNat - 0x30)) 0

/-- Whether `mantissa * 10 ^ exponent` rounds to a number beyond the greatest
double.  Exponents that settle the question alone are not computed with. -/
def beyondDouble (mantissa : Nat) (exponent : Int) : Bool :=
  let places : Int := (Nat.toDigits 10 mantissa).length + exponent
  if mantissa = 0 ∨ places < 300 then false
  else if 320 < places then true
  else
    let bound := Nat.pow 2 1024 - Nat.pow 2 970
    if 0 ≤ exponent then bound ≤ mantissa * Nat.pow 10 exponent.toNat
    else bound * Nat.pow 10 (-exponent).toNat ≤ mantissa

/-- The exponent of a number, after the `e`. -/
def exponent (mantissa : Nat) (scale : Int) (s : List UInt8) : Lexeme :=
  let (negative, s) := match s with
    | 0x2B :: r => (false, r)
    | 0x2D :: r => (true, r)
    | r => (false, r)
  match s with
  | [] => (.brokenNumber .truncated, [])
  | b :: _ =>
      if isDigit b then
        let e : Int := digitsValue (s.takeWhile isDigit)
        (.number (beyondDouble mantissa (scale + if negative then -e else e)),
          s.dropWhile isDigit)
      else (.brokenNumber .malformed, [])

/-- What may follow the digits of a number: an exponent, or nothing. -/
def afterDigits (mantissa : Nat) (scale : Int) : List UInt8 → Lexeme
  | b :: rest =>
      if b = 0x65 ∨ b = 0x45 then exponent mantissa scale rest
      else (.number (beyondDouble mantissa scale), b :: rest)
  | [] => (.number (beyondDouble mantissa scale), [])

/-- What may follow the whole part of a number: a fraction, or its end. -/
def afterWhole (whole : List UInt8) : List UInt8 → Lexeme
  | 0x2E :: rest =>
      let places := rest.takeWhile isDigit
      match places, rest with
      | [], [] => (.brokenNumber .truncated, [])
      | [], _ :: _ => (.brokenNumber .malformed, [])
      | _ :: _, _ =>
          afterDigits (digitsValue (whole ++ places)) (-(places.length : Int))
            (rest.dropWhile isDigit)
  | rest => afterDigits (digitsValue whole) 0 rest

/-- A number without its sign.  A leading zero stands alone. -/
def number : List UInt8 → Lexeme
  | [] => (.brokenNumber .truncated, [])
  | 0x30 :: rest =>
      match rest with
      | b :: _ => if isDigit b then (.brokenNumber .malformed, []) else afterWhole [0x30] rest
      | [] => afterWhole [0x30] rest
  | b :: rest =>
      if isDigit b then afterWhole (b :: rest.takeWhile isDigit) (rest.dropWhile isDigit)
      else (.brokenNumber .malformed, [])

/-! ## §4. Strings. -/

/-- The value of a hexadecimal digit. -/
def hexDigit? (b : UInt8) : Option Nat :=
  if isDigit b then some (b.toNat - 0x30)
  else if 0x41 ≤ b ∧ b ≤ 0x46 then some (b.toNat - 0x37)
  else if 0x61 ≤ b ∧ b ≤ 0x66 then some (b.toNat - 0x57)
  else none

/-- The value of four hexadecimal digits. -/
def hexWord? (a b c d : UInt8) : Option Nat := do
  return (((← hexDigit? a) * 16 + (← hexDigit? b)) * 16 + (← hexDigit? c)) * 16 + (← hexDigit? d)

/-- The byte that a backslash and a letter stand for. -/
def simpleEscape? (b : UInt8) : Option UInt8 :=
  if b = 0x22 ∨ b = 0x5C ∨ b = 0x2F then some b
  else if b = 0x62 then some 0x08
  else if b = 0x66 then some 0x0C
  else if b = 0x6E then some 0x0A
  else if b = 0x72 then some 0x0D
  else if b = 0x74 then some 0x09
  else none

/-- What a strict reader has of a string so far: its bytes, last one first,
and the first half of a surrogate pair that waits for the second. -/
structure Gathered where
  bytes : List UInt8 := []
  high : Option Nat := none

/-- Add bytes; half a pair must not be left alone. -/
def Gathered.add (g : Except Problem Gathered) (bytes : List UInt8) : Except Problem Gathered := do
  let g ← g
  match g.high with
  | none => return { g with bytes := bytes.reverse ++ g.bytes }
  | some _ => throw .malformed

/-- The UTF-8 bytes of a code point. -/
def codePoint (n : Nat) : List UInt8 :=
  Text.encodeUtf8 (String.singleton (Char.ofNat n))

/-- Add a code unit written as four hexadecimal digits. -/
def Gathered.unit (g : Except Problem Gathered) (n : Nat) : Except Problem Gathered := do
  let g ← g
  let isHigh : Bool := 0xD800 ≤ n && n ≤ 0xDBFF
  let isLow : Bool := 0xDC00 ≤ n && n ≤ 0xDFFF
  match g.high with
  | some high =>
      if isLow then
        let c := codePoint (0x10000 + (high - 0xD800) * 1024 + (n - 0xDC00))
        return ⟨c.reverse ++ g.bytes, none⟩
      else throw .malformed
  | none =>
      if isHigh then return { g with high := some n }
      else if isLow then throw .malformed
      else return { g with bytes := (codePoint n).reverse ++ g.bytes }

/-- A string that breaks off because of a problem that both readers see; a
strict reader may have seen another one before. -/
def brokenOff (g : Except Problem Gathered) (problem : Problem) : Lexeme :=
  match g with
  | .ok _ => (.brokenString problem problem, [])
  | .error earlier => (.brokenString earlier problem, [])

/-- A string, after its opening quote. -/
def stringBody (g : Except Problem Gathered) : List UInt8 → Lexeme
  | [] => brokenOff g .truncated
  | 0x22 :: rest =>
      (.string ((Gathered.add g []).map fun g => g.bytes.reverse), rest)
  | [0x5C] => brokenOff g .truncated
  | 0x5C :: 0x75 :: a :: b :: c :: d :: rest =>
      match hexWord? a b c d with
      | some n => stringBody (Gathered.unit g n) rest
      | none => brokenOff g .malformed
  | 0x5C :: e :: rest =>
      if e = 0x75 then brokenOff g .truncated
      else match simpleEscape? e with
        | some byte => stringBody (Gathered.add g [byte]) rest
        | none => brokenOff g .malformed
  | b :: rest =>
      if b < 0x20 then brokenOff g .malformed else stringBody (Gathered.add g [b]) rest

/-! ## §5. Texts. -/

/-- The four blanks of JSON. -/
def isBlank (b : UInt8) : Bool :=
  b = 0x20 || b = 0x09 || b = 0x0A || b = 0x0D

/-- The token that starts with a byte that is no blank. -/
def lexeme (b : UInt8) (rest : List UInt8) : Lexeme :=
  match b with
  | 0x7B => (.openObject, rest)
  | 0x7D => (.closeObject, rest)
  | 0x5B => (.openArray, rest)
  | 0x5D => (.closeArray, rest)
  | 0x3A => (.colon, rest)
  | 0x2C => (.comma, rest)
  | 0x22 => stringBody (.ok {}) rest
  | 0x6E => word .null [0x75, 0x6C, 0x6C] rest
  | 0x74 => word (.bool true) [0x72, 0x75, 0x65] rest
  | 0x66 => word (.bool false) [0x61, 0x6C, 0x73, 0x65] rest
  | 0x2D => number rest
  | _ => if isDigit b then number (b :: rest) else (.broken .malformed, [])

/-- The tokens of a text.  A token never gives bytes back, so the rest gets
shorter each time. -/
def tokens : List UInt8 → List Token
  | [] => []
  | b :: rest =>
      if isBlank b then tokens rest
      else match lexeme b rest with
        | (token, after) => if after.length ≤ rest.length then token :: tokens after else [token]
termination_by s => s.length

end ReceiverLink.Settings
