/-
  ReceiverLink.Telegram.Format
  ────────────────────────────────
  **Wire formats, and how their first bytes tell them apart.**

  A telegram that starts with `$` names its format in the next one or two
  bytes.  `classifySecond` reads the second byte; for the text formats
  `confirmThird` reads the third, which confirms the format or, for a reply,
  turns it into an error reply.  Everything else is a line of unknown format
  or a connection prompt.
-/
import ReceiverLink.Text.Padded

namespace ReceiverLink

/-! ## §1. Formats. -/

/-- The wire format of a telegram. -/
inductive Format where
  /-- Not classified (yet); also the final format of other text lines. -/
  | unknown
  /-- A binary block, `$@`. -/
  | binary
  /-- An NMEA sentence, `$GP`. -/
  | nmea
  /-- An NMEA sentence of the inertial unit, `$IN`. -/
  | inertial
  /-- The reply to a command, `$R:` or `$R!`. -/
  | response
  /-- The reply to a command that was refused, `$R?`. -/
  | errorResponse
  /-- The prompt of a connection, ended by `>`. -/
  | prompt
  deriving Repr, DecidableEq

namespace Format

/-- Whether telegrams of this format are text. -/
def isText : Format → Bool
  | .binary => false
  | _ => true

/-- The name shown to people. -/
def name : Format → String
  | .unknown => "unknown"
  | .binary => "binary"
  | .nmea => "nmea"
  | .inertial => "nmea-ins"
  | .response => "response"
  | .errorResponse => "error-response"
  | .prompt => "connection-descriptor"

/-- The name in a field of a fixed width. -/
def shown (format : Format) (field : Text.Field) : String :=
  String.ofList (field.fit format.name.toList)

end Format

/-! ## §2. Bytes that steer framing. -/

/-- `$`, the first byte of every telegram that names its format. -/
def syncByte : UInt8 := 0x24

/-- The carriage return. -/
def carriageReturn : UInt8 := 0x0D

/-- The line feed. -/
def lineFeed : UInt8 := 0x0A

/-- `>`, the last byte of a connection prompt. -/
def promptEnd : UInt8 := 0x3E

/-- `@`, the second byte of a binary block. -/
def blockByte : UInt8 := 0x40

/-! ## §3. Classification. -/

/-- The format that the byte after `$` selects: `@`, `G`, `I` or `R`. -/
def classifySecond (byte : UInt8) : Option Format :=
  if byte = blockByte then some .binary
  else if byte = 0x47 then some .nmea
  else if byte = 0x49 then some .inertial
  else if byte = 0x52 then some .response
  else none

/-- The format after the third byte: `GP`, `IN`, `R:` and `R!` are confirmed,
and `R?` is an error reply. -/
def confirmThird (provisional : Format) (byte : UInt8) : Option Format :=
  match provisional with
  | .nmea => if byte = 0x50 then some .nmea else none
  | .inertial => if byte = 0x4E then some .inertial else none
  | .response =>
      if byte = 0x3A ∨ byte = 0x21 then some .response
      else if byte = 0x3F then some .errorResponse
      else none
  | _ => none

end ReceiverLink
