/-
  ReceiverLink.Text.Utf8
  ────────────────────────────────
  **Reading bytes as UTF-8 text, with a mark for what is not.**

  `decodeLossy` reads a byte sequence from left to right.  Well-formed
  sequences become their characters.  Where the bytes stop being well formed,
  the longest start of a sequence read so far (at least one byte) becomes one
  replacement character U+FFFD, and reading starts again at the next byte.
-/

namespace ReceiverLink.Text

/-! ## §1. Sequences in progress. -/

/-- A multi-byte sequence of which some bytes are still missing: how many, the
range of the next one, and the bits gathered so far. -/
structure Partial where
  missing : Nat
  low : UInt8
  high : UInt8
  bits : Nat
  deriving Repr, DecidableEq

/-- The mark for bytes that are no text. -/
def replacement : Char := '\uFFFD'

/-- What the first byte of a sequence announces: a whole character, a sequence
to be continued, or nothing valid. -/
inductive Lead where
  | char (c : Char)
  | more (p : Partial)
  | invalid
  deriving Repr, DecidableEq

/-- Read the first byte of a sequence.  The ranges leave out overlong forms,
surrogates, and values above U+10FFFF. -/
def lead (b : UInt8) : Lead :=
  let n := b.toNat
  if n < 0x80 then .char (Char.ofNat n)
  else if n < 0xC2 then .invalid
  else if n < 0xE0 then .more ⟨1, 0x80, 0xBF, n - 0xC0⟩
  else if n = 0xE0 then .more ⟨2, 0xA0, 0xBF, 0⟩
  else if n = 0xED then .more ⟨2, 0x80, 0x9F, 0xD⟩
  else if n < 0xF0 then .more ⟨2, 0x80, 0xBF, n - 0xE0⟩
  else if n = 0xF0 then .more ⟨3, 0x90, 0xBF, 0⟩
  else if n < 0xF4 then .more ⟨3, 0x80, 0xBF, n - 0xF0⟩
  else if n = 0xF4 then .more ⟨3, 0x80, 0x8F, 4⟩
  else .invalid

/-! ## §2. Decoding. -/

/-- Characters read so far and the sequence in progress, if any. -/
structure Decoder where
  chars : Array Char
  pending : Option Partial

/-- Read one byte where a sequence starts. -/
def Decoder.start (chars : Array Char) (b : UInt8) : Decoder :=
  match lead b with
  | .char c => ⟨chars.push c, none⟩
  | .more p => ⟨chars, some p⟩
  | .invalid => ⟨chars.push replacement, none⟩

/-- Read one byte.  A byte that does not continue the sequence in progress
ends it with a replacement character and is read again as a first byte. -/
def Decoder.read (d : Decoder) (b : UInt8) : Decoder :=
  match d.pending with
  | none => Decoder.start d.chars b
  | some p =>
      if p.low ≤ b ∧ b ≤ p.high then
        let bits := p.bits * 64 + (b.toNat - 0x80)
        if p.missing ≤ 1 then ⟨d.chars.push (Char.ofNat bits), none⟩
        else ⟨d.chars, some ⟨p.missing - 1, 0x80, 0xBF, bits⟩⟩
      else Decoder.start (d.chars.push replacement) b

/-- All characters read; a sequence that never ended counts as one
replacement character. -/
def Decoder.finish (d : Decoder) : List Char :=
  match d.pending with
  | none => d.chars.toList
  | some _ => (d.chars.push replacement).toList

/-- The text of a byte sequence. -/
def decodeLossy (bytes : List UInt8) : List Char :=
  (bytes.foldl Decoder.read ⟨#[], none⟩).finish

example : decodeLossy [0x68, 0xC3, 0xA9] = ['h', 'é'] := by decide
example : decodeLossy [0xE2, 0x82, 0x41, 0xFF] = [replacement, 'A', replacement] := by decide

/-- The UTF-8 bytes of a text. -/
def encodeUtf8 (s : String) : List UInt8 :=
  s.toUTF8.toList

end ReceiverLink.Text
