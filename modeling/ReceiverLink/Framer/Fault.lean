/-
  ReceiverLink.Framer.Fault
  ────────────────────────────────
  **What can be wrong with a byte stream, and what framing notes about it.**

  A fault makes the framer drop the telegram in progress and look for a new
  one; it is never an error of the reader.  The events of this module are all
  that framing writes into the log.
-/
import ReceiverLink.Log
import ReceiverLink.Telegram.Basic
import ReceiverLink.Text.Numeral

namespace ReceiverLink

/-! ## §1. Faults. -/

/-- A defect of the byte stream, after which framing starts over. -/
inductive Fault where
  /-- The byte after `$` selects no format. -/
  | unknownFormat (byte : UInt8)
  /-- The third byte does not confirm the format. -/
  | unconfirmedFormat (byte : UInt8)
  /-- A block states a length above the greatest one accepted. -/
  | blockTooLarge (length max : Nat)
  /-- A block states a length below that of its header. -/
  | blockTooShort (length : Nat)
  /-- The checksum of a block is wrong. -/
  | checksumMismatch (number : UInt16)
  /-- A line ends in a line feed without a carriage return before it. -/
  | lineWithoutReturn (length : Nat)
  /-- A `$` inside a line. -/
  | syncInsideLine (discarded : Nat)
  /-- The stream ended or failed before the bytes asked for had come. -/
  | shortRead (read wanted : Nat)
  deriving Repr, DecidableEq

/-- The fault in words. -/
def Fault.text : Fault → String
  | .unknownFormat b => "sync byte 2 read fault, received byte was 0x" ++ Text.hexByte b
  | .unconfirmedFormat b => "sync byte 3 read fault, received byte was 0x" ++ Text.hexByte b
  | .blockTooLarge length max =>
      "binary header read fault, length of block exceeds " ++ Text.decimal max ++ ": " ++
        Text.decimal length
  | .blockTooShort length =>
      "binary header read fault, length of block below header size: " ++ Text.decimal length
  | .checksumMismatch number => "crc failed for binary block " ++ Text.decimal number.toNat
  | .lineWithoutReturn length =>
      "line feed without carriage return after " ++ Text.decimal length ++ " bytes"
  | .syncInsideLine discarded =>
      "string read fault, sync byte found after " ++ Text.decimal discarded ++ " bytes"
  | .shortRead read wanted =>
      "read fault, wrong number of bytes read: " ++ Text.decimal read ++ " of " ++
        Text.decimal wanted

/-! ## §2. Events. -/

/-- What framing notes. -/
inductive FramingEvent where
  /-- A telegram is complete. -/
  | framed (format : Format) (size : Nat)
  /-- A line feed came without a carriage return before it. -/
  | bareLineFeed (line : List UInt8)
  /-- The telegram in progress is dropped. -/
  | resynchronizing (fault : Fault)
  deriving Repr, DecidableEq

/-- The entry of the log. -/
def FramingEvent.line : FramingEvent → LogLine
  | .framed format size =>
      ⟨.trace, "telegram framed", [("format", format.name), ("len", Text.decimal size)]⟩
  | .bareLineFeed line =>
      ⟨.debug, "LF without CR", [("line", String.ofList (Text.decodeLossy line))]⟩
  | .resynchronizing fault => ⟨.debug, "resynchronizing", [("fault", fault.text)]⟩

end ReceiverLink
