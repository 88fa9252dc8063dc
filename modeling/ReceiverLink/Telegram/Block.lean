/-
  ReceiverLink.Telegram.Block
  ────────────────────────────────
  **Binary blocks: the header, the checksum, and the encoder.**

  A block is a header of eight bytes and a body:

      0   `$@`
      2   checksum of bytes 4 to the end, low byte first
      4   identifier, low byte first: 13 bits of number, 3 bits of revision
      6   length of the whole block, low byte first
      8   body

  The readers of single fields look at any byte sequence, which may be too
  short to hold the field.  `isValid` says that a sequence holds a block whose
  checksum is right, and `encode` builds such a sequence from its parts.
-/
import ReceiverLink.Telegram.Format
import ReceiverLink.Telegram.Checksum

namespace ReceiverLink

namespace Block

/-! ## §1. The header. -/

/-- The length of the header. -/
def headerSize : Nat := 8

/-- The greatest length that the length field can hold. -/
def maxSize : Nat := 65535

/-- The bits of the identifier that hold the number. -/
def numberMask : UInt16 := 0x1FFF

/-- The sixteen bits at an offset, low byte first. -/
def word? (bytes : List UInt8) (offset : Nat) : Option UInt16 :=
  match bytes.drop offset with
  | low :: high :: _ => some (low.toUInt16 ||| (high.toUInt16 <<< 8))
  | _ => none

/-- The checksum that the header states. -/
def statedChecksum? (bytes : List UInt8) : Option UInt16 :=
  word? bytes 2

/-- The block number. -/
def number? (bytes : List UInt8) : Option UInt16 :=
  (word? bytes 4).map (· &&& numberMask)

/-- The revision of the block's layout. -/
def revision? (bytes : List UInt8) : Option UInt8 :=
  (word? bytes 4).map fun w : UInt16 => (w >>> 13).toUInt8

/-- The length of the whole block that the header states. -/
def length? (bytes : List UInt8) : Option UInt16 :=
  word? bytes 6

/-! ## §2. The checksum. -/

/-- The checksum of the contents up to the stated length.  There is none when
the stated length is below the header's, or when the bytes end before it. -/
def checksum? (bytes : List UInt8) : Option UInt16 := do
  let length := (← length? bytes).toNat
  if length < headerSize ∨ bytes.length < length then none
  else some (Checksum.ofBytes ((bytes.take length).drop 4))

/-- The bytes hold a whole block, and its checksum is right. -/
def isValid (bytes : List UInt8) : Bool :=
  match statedChecksum? bytes, checksum? bytes with
  | some stated, some computed => stated == computed
  | _, _ => false

/-! ## §3. Encoding. -/

/-- A body too long for the length field: the length of the whole block, and
the greatest one allowed. -/
structure TooLarge where
  size : Nat
  max : Nat
  deriving Repr, DecidableEq

/-- The two bytes of a word, low byte first. -/
def wordBytes (w : UInt16) : List UInt8 :=
  [w.toUInt8, (w >>> 8).toUInt8]

/-- The identifier of a block number and a revision; bits that do not fit are
left out. -/
def identifier (number : UInt16) (revision : UInt8) : UInt16 :=
  (number &&& numberMask) ||| ((revision &&& 7).toUInt16 <<< 13)

/-- The block with the given number, revision and body. -/
def encode (number : UInt16) (revision : UInt8) (body : List UInt8) :
    Except TooLarge (List UInt8) :=
  let total := headerSize + body.length
  if maxSize < total then .error ⟨total, maxSize⟩
  else
    let covered := wordBytes (identifier number revision) ++ wordBytes total.toUInt16 ++ body
    .ok ([syncByte, blockByte] ++ wordBytes (Checksum.ofBytes covered) ++ covered)

/-- Append the block with the given number, revision and body to a buffer. -/
def append (buffer : List UInt8) (number : UInt16) (revision : UInt8) (body : List UInt8) :
    Except TooLarge (List UInt8) :=
  (encode number revision body).map (buffer ++ ·)

end Block

end ReceiverLink
