/-
  ReceiverLink.Framer.Basic
  ────────────────────────────────
  **Cutting a byte stream into telegrams.**

  The framer does no reading of its own.  `wanted` says how many bytes its
  stage needs; `push` takes at most that many and returns how many it took,
  the telegram that they completed, and what is to be noted.  Lines are taken
  byte by byte; of a block first the rest of the header is taken, then exactly
  the rest of the stated length.  Defects of the stream are no errors: the
  telegram in progress is dropped, the fault is noted, and framing starts
  over.
-/
import ReceiverLink.Framer.Fault

namespace ReceiverLink

/-! ## §1. The state. -/

/-- How far the telegram in progress has come. -/
inductive Stage where
  /-- Nothing has come: the next byte starts a telegram. -/
  | idle
  /-- `$` has come; the next byte selects the format. -/
  | selecting
  /-- The format is to be confirmed by the next byte. -/
  | confirming
  /-- The rest of a block's header is to come. -/
  | header
  /-- The rest of a block of the given length is to come. -/
  | body (length : Nat)
  /-- The rest of a line is to come. -/
  | line
  deriving Repr, DecidableEq

/-- Counts since the framer was made.  A counter of 64 bits is taken not to wrap
around. -/
structure FramingStats where
  /-- Telegrams delivered. -/
  delivered : Nat := 0
  /-- Telegrams dropped because of a fault. -/
  resyncs : Nat := 0
  /-- Blocks with a wrong checksum. -/
  checksumFailures : Nat := 0
  deriving Repr, DecidableEq

/-- The telegram in progress. -/
structure Draft where
  bytes : Array UInt8 := #[]
  format : Format := .unknown
  captured : Time := 0
  deriving Repr, DecidableEq

/-- A framer: the greatest block length accepted, the stage, the telegram in
progress, and the counts. -/
structure Framer where
  maxBlock : Nat := Block.maxSize
  stage : Stage := .idle
  draft : Draft := {}
  stats : FramingStats := {}
  deriving Repr, DecidableEq

namespace Draft

/-- A telegram that starts with the given byte. -/
def startingWith (byte : UInt8) (now : Time) : Draft :=
  { bytes := #[byte], captured := now }

/-- The telegram with one more byte. -/
def push (d : Draft) (byte : UInt8) : Draft :=
  { d with bytes := d.bytes.push byte }

/-- The telegram with more bytes. -/
def append (d : Draft) (bytes : List UInt8) : Draft :=
  { d with bytes := bytes.foldl Array.push d.bytes }

/-- The finished telegram. -/
def finish (d : Draft) : Telegram :=
  ⟨d.format, d.bytes.toList, d.captured⟩

end Draft

namespace Framer

/-- A new framer that accepts blocks of at most the given length. -/
def new (maxBlock : Nat) : Framer :=
  { maxBlock := maxBlock }

/-- The number of bytes of the telegram in progress. -/
def pending (f : Framer) : Nat :=
  f.draft.bytes.size

/-- How many bytes the stage needs before anything can be decided. -/
def wanted (f : Framer) : Nat :=
  match f.stage with
  | .header => Block.headerSize - f.pending
  | .body length => length - f.pending
  | _ => 1

/-! ## §2. The end of a telegram. -/

/-- The framer after some bytes, the telegram that they completed, and what is
to be noted. -/
structure Step where
  framer : Framer
  telegram : Option Telegram := none
  events : List FramingEvent := []
  deriving Repr, DecidableEq

/-- Nothing in progress. -/
def reset (f : Framer) : Framer :=
  { f with stage := .idle, draft := {} }

/-- Count one telegram delivered. -/
def countDelivered (f : Framer) : Framer :=
  { f with stats := { f.stats with delivered := f.stats.delivered + 1 } }

/-- Count one telegram dropped. -/
def countResync (f : Framer) : Framer :=
  { f with stats := { f.stats with resyncs := f.stats.resyncs + 1 } }

/-- Count one wrong checksum. -/
def countChecksumFailure (f : Framer) : Framer :=
  { f with stats := { f.stats with checksumFailures := f.stats.checksumFailures + 1 } }

/-- Hand out the telegram in progress. -/
def deliver (f : Framer) : Step :=
  let t := f.draft.finish
  ⟨f.reset.countDelivered, some t, [.framed t.format t.size]⟩

/-- Drop the telegram in progress because of a fault. -/
def drop (f : Framer) (fault : Fault) : Step :=
  ⟨f.reset.countResync, none, [.resynchronizing fault]⟩

/-! ## §3. Single bytes. -/

/-- The telegram in progress is given up for one that starts with `$`. -/
def restart (f : Framer) (now : Time) : Framer :=
  { f with stage := .selecting, draft := .startingWith syncByte now }

/-- The first byte: `$`, or the start of a line without a format. -/
def takeFirst (f : Framer) (byte : UInt8) (now : Time) : Step :=
  if byte = syncByte then ⟨f.restart now, none, []⟩
  else ⟨{ f with stage := .line, draft := .startingWith byte now }, none, []⟩

/-- The byte after `$`.  A receiver may repeat the `$`. -/
def takeSelector (f : Framer) (byte : UInt8) (now : Time) : Step :=
  if byte = syncByte then ⟨f.restart now, none, []⟩
  else match classifySecond byte with
    | some format =>
        let stage := if format = .binary then .header else .confirming
        ⟨{ f with stage := stage, draft := { f.draft.push byte with format := format } }, none, []⟩
    | none => f.drop (.unknownFormat byte)

/-- The third byte of a text telegram. -/
def takeConfirmation (f : Framer) (byte : UInt8) (now : Time) : Step :=
  if byte = syncByte then ⟨f.restart now, none, []⟩
  else match confirmThird f.draft.format byte with
    | some format =>
        ⟨{ f with stage := .line, draft := { f.draft.push byte with format := format } }, none, []⟩
    | none => f.drop (.unconfirmedFormat byte)

/-- A carriage return stands before the last byte. -/
def endsLine (bytes : Array UInt8) : Bool :=
  2 ≤ bytes.size && bytes[bytes.size - 2]? == some carriageReturn

/-- A later byte of a line.  `$` starts a new telegram, a line feed ends the
line, and `>` ends a line without a format as a connection prompt. -/
def takeLineByte (f : Framer) (byte : UInt8) (now : Time) : Step :=
  let draft := f.draft.push byte
  let f := { f with draft := draft }
  if byte = syncByte then
    ⟨(f.restart now).countResync, none,
      [.resynchronizing (.syncInsideLine (draft.bytes.size - 1))]⟩
  else if byte = lineFeed then
    if endsLine draft.bytes then f.deliver
    else
      let dropped := f.drop (.lineWithoutReturn draft.bytes.size)
      { dropped with events := .bareLineFeed draft.bytes.toList :: dropped.events }
  else if byte = promptEnd ∧ draft.format = .unknown then
    { f with draft := { draft with format := .prompt } }.deliver
  else ⟨f, none, []⟩

/-! ## §4. Blocks. -/

/-- The whole block has come: deliver it if its checksum is right. -/
def checkBody (f : Framer) : Step :=
  let bytes := f.draft.bytes.toList
  if Block.isValid bytes then f.deliver
  else f.countChecksumFailure.drop (.checksumMismatch ((Block.number? bytes).getD 0))

/-- The whole header has come: judge the stated length. -/
def checkHeader (f : Framer) : Step :=
  let length := ((Block.length? f.draft.bytes.toList).getD 0).toNat
  if f.maxBlock < length then f.drop (.blockTooLarge length f.maxBlock)
  else if length < Block.headerSize then f.drop (.blockTooShort length)
  else if length = Block.headerSize then f.checkBody
  else ⟨{ f with stage := .body length }, none, []⟩

/-- Bytes of a block; once none is missing, `check` decides. -/
def takeBlockBytes (f : Framer) (bytes : List UInt8) (check : Framer → Step) : Step :=
  let f := { f with draft := f.draft.append bytes }
  if 0 < f.wanted then ⟨f, none, []⟩ else check f

/-! ## §5. Pushing and feeding. -/

/-- Take at most `wanted` bytes: how many were taken, and what came of it.
`now` is the capture time of a telegram that starts. -/
def push (f : Framer) (bytes : List UInt8) (now : Time) : Nat × Step :=
  match bytes with
  | [] => (0, ⟨f, none, []⟩)
  | byte :: _ =>
      match f.stage with
      | .idle => (1, f.takeFirst byte now)
      | .selecting => (1, f.takeSelector byte now)
      | .confirming => (1, f.takeConfirmation byte now)
      | .line => (1, f.takeLineByte byte now)
      | .header => takeBlock bytes checkHeader
      | .body _ => takeBlock bytes checkBody
where
  /-- Take what the block still needs. -/
  takeBlock (bytes : List UInt8) (check : Framer → Step) : Nat × Step :=
    let taken := bytes.take f.wanted
    (taken.length, f.takeBlockBytes taken check)

/-- The framer after a whole buffer, with all telegrams and events in order. -/
structure Fed where
  framer : Framer
  telegrams : Array Telegram := #[]
  events : Array FramingEvent := #[]
  deriving Repr, DecidableEq

/-- Push the rest of a buffer again and again until nothing is left of it;
`telegrams` and `events` are those of the pushes before. -/
def feedFrom (f : Framer) (telegrams : Array Telegram) (events : Array FramingEvent)
    (bytes : List UInt8) (now : Time) : Fed :=
  match bytes with
  | [] => ⟨f, telegrams, events⟩
  | b :: rest =>
      match f.push (b :: rest) now with
      | (used, step) =>
          let telegrams := telegrams ++ step.telegram.toArray
          let events := events ++ step.events.toArray
          if 0 < used then
            feedFrom step.framer telegrams events ((b :: rest).drop used) now
          else ⟨step.framer, telegrams, events⟩
termination_by bytes.length
decreasing_by
  simp only [List.length_drop, List.length_cons]
  omega

/-- Push a whole buffer of any size. -/
def feed (f : Framer) (bytes : List UInt8) (now : Time) : Fed :=
  feedFrom f #[] #[] bytes now

/-- Drop the telegram in progress because the stream failed after `read` of
the bytes asked for. -/
def abort (f : Framer) (read : Nat) : Step :=
  if f.stage = .idle ∧ read = 0 then ⟨f, none, []⟩
  else f.drop (.shortRead read f.wanted)

end Framer

end ReceiverLink
