/-
  ReceiverLink.Supervisor.Link
  ────────────────────────────────
  **Links: two pipes between a supervisor and a receiver.**

  A pipe carries bytes one way, in order, and holds at most so many of them.
  Its reader sees its end once the writer has gone and all bytes are read; its
  writer fails once either side has gone.  A link has a pipe each way, and it
  can be made to fail the supervisor's next operation of a kind.
-/
import ReceiverLink.IoError

namespace ReceiverLink

/-! ## §1. Pipes. -/

/-- Bytes on their way, and which sides are there. -/
structure Pipe where
  /-- The number of bytes that fit, if there is a bound. -/
  capacity : Option Nat
  buffer : List UInt8 := []
  writerOpen : Bool := true
  readerOpen : Bool := true
  deriving Repr, DecidableEq

namespace Pipe

/-- Writing fails: the reader has gone, or the writer has closed its side. -/
def isBroken (p : Pipe) : Bool :=
  !p.readerOpen || !p.writerOpen

/-- The part of some bytes that fits now. -/
def fitting (p : Pipe) (bytes : List UInt8) : List UInt8 :=
  match p.capacity with
  | none => bytes
  | some c => bytes.take (c - p.buffer.length)

/-- Nothing fits at the moment. -/
def isFull (p : Pipe) : Bool :=
  match p.capacity with
  | none => false
  | some c => c ≤ p.buffer.length

/-- Put bytes in at the end. -/
def put (p : Pipe) (bytes : List UInt8) : Pipe :=
  { p with buffer := p.buffer ++ bytes }

/-- Take up to `n` bytes out at the front. -/
def take (p : Pipe) (n : Nat) : List UInt8 × Pipe :=
  (p.buffer.take n, { p with buffer := p.buffer.drop n })

/-- All bytes are read and no more can come. -/
def atEnd (p : Pipe) : Bool :=
  p.buffer.isEmpty && !p.writerOpen

/-- The writer goes. -/
def closeWriter (p : Pipe) : Pipe :=
  { p with writerOpen := false }

/-- The reader goes. -/
def closeReader (p : Pipe) : Pipe :=
  { p with readerOpen := false }

end Pipe

/-! ## §2. Links. -/

/-- The operations of a supervisor on a link. -/
inductive LinkOperation where
  | read
  | write
  | flush
  | shutdown
  deriving Repr, DecidableEq

/-- The failures prepared for the supervisor's next operations. -/
structure LinkFaults where
  read : Option IoKind := none
  write : Option IoKind := none
  flush : Option IoKind := none
  shutdown : Option IoKind := none
  deriving Repr, DecidableEq

/-- Two pipes between a supervisor and a receiver. -/
structure Link where
  /-- From the receiver to the supervisor. -/
  inbound : Pipe
  /-- From the supervisor to the receiver. -/
  outbound : Pipe
  faults : LinkFaults := {}
  /-- The receiver has not gone. -/
  receiverOpen : Bool := true
  deriving Repr, DecidableEq

namespace Link

/-- A new link whose pipes hold at most so many bytes each. -/
def new (capacity : Nat) : Link :=
  { inbound := { capacity := some capacity }, outbound := { capacity := some capacity } }

/-- A link that plays a recording: the bytes are all there and nothing follows
them, and whatever is written fits. -/
def playing (recording : List UInt8) : Link :=
  { inbound := { capacity := none, buffer := recording, writerOpen := false }
    outbound := { capacity := none } }

/-- A link that plays a recording of which nothing has been read yet: its bytes
are still to come, and whatever is written fits. -/
def unread : Link :=
  { inbound := { capacity := none }, outbound := { capacity := none } }

/-- Prepare a failure for the supervisor's next operation of a kind. -/
def prepare (l : Link) (operation : LinkOperation) (kind : IoKind) : Link :=
  match operation with
  | .read => { l with faults := { l.faults with read := some kind } }
  | .write => { l with faults := { l.faults with write := some kind } }
  | .flush => { l with faults := { l.faults with flush := some kind } }
  | .shutdown => { l with faults := { l.faults with shutdown := some kind } }

/-- The supervisor lets go of its end. -/
def release (l : Link) : Link :=
  { l with inbound := l.inbound.closeReader, outbound := l.outbound.closeWriter }

/-- The receiver lets go of its end. -/
def hangUp (l : Link) : Link :=
  { l with inbound := l.inbound.closeWriter, outbound := l.outbound.closeReader,
           receiverOpen := false }

end Link

end ReceiverLink
