/-
  ReceiverLink.IoError
  ────────────────────────────────
  **Failures of reading and writing.**

  A failure has a kind, and either a message of its own or the text of its
  kind.
-/

namespace ReceiverLink

/-- The kinds of failures of an operation on a stream or a file. -/
inductive IoKind where
  | notFound
  | permissionDenied
  | connectionRefused
  | connectionReset
  | connectionAborted
  | notConnected
  | addrInUse
  | addrNotAvailable
  | brokenPipe
  | alreadyExists
  | wouldBlock
  | invalidInput
  | invalidData
  | timedOut
  | writeZero
  | interrupted
  | unsupported
  | unexpectedEof
  | outOfMemory
  | hostUnreachable
  | networkUnreachable
  | other
  deriving Repr, DecidableEq

/-- What is said of a failure of which only the kind is known. -/
def IoKind.text : IoKind → String
  | .notFound => "entity not found"
  | .permissionDenied => "permission denied"
  | .connectionRefused => "connection refused"
  | .connectionReset => "connection reset"
  | .connectionAborted => "connection aborted"
  | .notConnected => "not connected"
  | .addrInUse => "address in use"
  | .addrNotAvailable => "address not available"
  | .brokenPipe => "broken pipe"
  | .alreadyExists => "entity already exists"
  | .wouldBlock => "operation would block"
  | .invalidInput => "invalid input parameter"
  | .invalidData => "invalid data"
  | .timedOut => "timed out"
  | .writeZero => "write zero"
  | .interrupted => "operation interrupted"
  | .unsupported => "unsupported"
  | .unexpectedEof => "unexpected end of file"
  | .outOfMemory => "out of memory"
  | .hostUnreachable => "host unreachable"
  | .networkUnreachable => "network unreachable"
  | .other => "other error"

/-- A failed operation. -/
structure IoError where
  kind : IoKind
  message : Option String := none
  deriving Repr, DecidableEq

/-- The failure as text: its message, or else what its kind says. -/
def IoError.text (e : IoError) : String :=
  e.message.getD e.kind.text

/-- A file that does not exist. -/
def IoError.noSuchFile : IoError :=
  ⟨.notFound, some "No such file or directory (os error 2)"⟩

end ReceiverLink
