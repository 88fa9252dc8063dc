/-
  ReceiverLink.Endpoint.Recording
  ────────────────────────────────
  **Playing a recording as if it were a link.**

  A recording holds the bytes of a receiver as they came.  Reading goes
  through them once, and their end is the end of the stream.  There is nobody
  to write to: written bytes are counted and dropped.
-/
import ReceiverLink.Endpoint.Basic

namespace ReceiverLink

/-- A recording that is being played: the bytes not yet read, and the number
of bytes written to it. -/
structure Recording where
  rest : List UInt8
  discarded : Nat := 0
  deriving Repr, DecidableEq

namespace Recording

/-- The counter of written bytes stays at this value once it has reached it. -/
def maxDiscarded : Nat := UInt64.size - 1

/-- Read up to `n` bytes. -/
def read (r : Recording) (n : Nat) : List UInt8 × Recording :=
  (r.rest.take n, { r with rest := r.rest.drop n })

/-- Write bytes: all are taken. -/
def write (r : Recording) (bytes : List UInt8) : Recording :=
  { r with discarded := min maxDiscarded (r.discarded + bytes.length) }

end Recording

/-- Start to play the recording at a path, given what the file there holds, if
there is one. -/
def ReplayEndpoint.play (e : ReplayEndpoint) (file : Option (List UInt8)) :
    Except TransportError Recording :=
  match file with
  | some bytes => .ok ⟨bytes, 0⟩
  | none => .error (.openRecording e.path .noSuchFile)

/-- The entry of the log when a recording starts. -/
def ReplayEndpoint.replaying (e : ReplayEndpoint) : LogLine :=
  ⟨.info, "replaying receiver log", [("path", Text.quoted e.path)]⟩

end ReceiverLink
