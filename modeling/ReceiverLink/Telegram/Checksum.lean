/-
  ReceiverLink.Telegram.Checksum
  ────────────────────────────────
  **The checksum of binary blocks.**

  A cyclic redundancy check of 16 bits with the generator
  `x^16 + x^12 + x^5 + 1`: bits are taken from the most significant one on,
  the register starts at zero, and its last value is the checksum.
-/

namespace ReceiverLink

namespace Checksum

/-- The low coefficients of the generator. -/
def generator : UInt16 := 0x1021

/-- Move the register on by one bit. -/
def shift (register : UInt16) : UInt16 :=
  if register &&& 0x8000 = 0 then register <<< 1 else (register <<< 1) ^^^ generator

/-- Take one byte into the register, most significant bit first. -/
def update (register : UInt16) (byte : UInt8) : UInt16 :=
  let r := register ^^^ (byte.toUInt16 <<< 8)
  shift (shift (shift (shift (shift (shift (shift (shift r)))))))

/-- The checksum of a byte sequence. -/
def ofBytes (bytes : List UInt8) : UInt16 :=
  bytes.foldl update 0

/-- The check value of the nine digits. -/
example : ofBytes [0x31, 0x32, 0x33, 0x34, 0x35, 0x36, 0x37, 0x38, 0x39] = 0x31C3 := by
  decide +kernel

end Checksum

end ReceiverLink
