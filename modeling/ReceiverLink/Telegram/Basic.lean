/-
  ReceiverLink.Telegram.Basic
  ────────────────────────────────
  **Telegrams: one complete unit of a receiver's output.**

  A telegram keeps its bytes exactly as they came, sync bytes and line end
  included, together with its format and the time at which its first byte was
  taken in.
-/
import ReceiverLink.Telegram.Block
import ReceiverLink.Text.Utf8

namespace ReceiverLink

/-- A moment, in milliseconds; the zero is the caller's choice. -/
abbrev Time := Int

/-- One complete unit of a receiver's output. -/
structure Telegram where
  format : Format
  bytes : List UInt8
  captured : Time
  deriving Repr, DecidableEq

namespace Telegram

/-- The number of bytes. -/
def size (t : Telegram) : Nat :=
  t.bytes.length

/-- The block number of a binary telegram. -/
def blockNumber? (t : Telegram) : Option UInt16 :=
  if t.format = .binary then Block.number? t.bytes else none

/-- The block revision of a binary telegram. -/
def blockRevision? (t : Telegram) : Option UInt8 :=
  if t.format = .binary then Block.revision? t.bytes else none

/-- The bytes without a carriage return and line feed at their end. -/
def stripLineEnd (bytes : List UInt8) : List UInt8 :=
  match bytes.reverse with
  | l :: c :: rest => if l = lineFeed ∧ c = carriageReturn then rest.reverse else bytes
  | _ => bytes

/-- The text of a telegram, without its line end; a binary telegram has
none. -/
def text? (t : Telegram) : Option String :=
  if t.format.isText then some (String.ofList (Text.decodeLossy (stripLineEnd t.bytes))) else none

end Telegram

end ReceiverLink
