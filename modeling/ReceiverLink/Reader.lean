/-
  ReceiverLink.Reader
  ────────────────────────────────
  **Reading telegrams from a stream.**

  A reader asks its stream for at most the bytes that its framer wants, so
  nothing is ever taken past the end of a telegram.  There are two ways to
  read.  A `blocking` reader hands a wait or a time-out of the stream to its
  caller and keeps the telegram in progress.  A `polled` reader gives up the
  poll when the stream has nothing yet, and treats every failure as the end of
  the telegram in progress.  In both, an interrupted read is simply repeated,
  and the end of the stream drops the telegram in progress.
-/
import ReceiverLink.Framer.Basic
import ReceiverLink.IoError

namespace ReceiverLink

/-! ## §1. Streams. -/

/-- One thing that a stream will do. -/
inductive Serving where
  /-- Serve these bytes, over as many reads as it takes. -/
  | data (bytes : List UInt8)
  /-- Fail one read. -/
  | failure (error : IoError)
  /-- Report the end of the stream to one read. -/
  | endOfStream
  /-- Have nothing yet for one read. -/
  | wait
  deriving Repr, DecidableEq

/-- A stream: what it will do, in order.  After that it is at its end. -/
abbrev Stream := List Serving

/-- The outcome of one read.  No bytes means the end of the stream. -/
inductive Reading where
  | bytes (bytes : List UInt8)
  | failed (error : IoError)
  | waiting
  deriving Repr, DecidableEq

namespace Stream

/-- Put bytes back in front, if there are any. -/
def unread (bytes : List UInt8) (s : Stream) : Stream :=
  if bytes = [] then s else .data bytes :: s

/-- Read at most `size` bytes.  A read never joins the bytes of two items. -/
def read (size : Nat) : Stream → Reading × Stream
  | [] => (.bytes [], [])
  | .data [] :: rest => read size rest
  | .data (b :: bs) :: rest =>
      (.bytes ((b :: bs).take size), unread ((b :: bs).drop size) rest)
  | .failure e :: rest => (.failed e, rest)
  | .endOfStream :: rest => (.bytes [], rest)
  | .wait :: rest => (.waiting, rest)

/-- A bound on the number of reads that do anything. -/
def weight : Stream → Nat
  | [] => 0
  | .data bs :: rest => bs.length + 1 + weight rest
  | _ :: rest => 1 + weight rest

/-- The number of bytes still to be served. -/
def remaining : Stream → Nat
  | [] => 0
  | .data bs :: rest => bs.length + remaining rest
  | _ :: rest => remaining rest

theorem weight_unread (bytes : List UInt8) (s : Stream) :
    weight (unread bytes s) ≤ bytes.length + 1 + weight s := by
  unfold unread
  split
  · omega
  · simp [weight]

/-- A read that takes bytes leaves less of the stream. -/
theorem weight_read_bytes {size : Nat} {s t : Stream} {b : UInt8} {bs : List UInt8}
    (h : s.read size = (.bytes (b :: bs), t)) : weight t < weight s := by
  fun_induction read size s with
  | case1 => simp at h
  | case2 rest ih => have := ih h; simp only [weight]; omega
  | case3 c cs rest =>
    simp only [Prod.mk.injEq, Reading.bytes.injEq] at h
    have hu := weight_unread ((c :: cs).drop size) rest
    have hl := congrArg List.length h.1
    simp only [List.length_take, List.length_drop, List.length_cons] at hu hl
    rw [← h.2]
    simp only [weight, List.length_cons]
    omega
  | case4 => simp at h
  | case5 => simp at h
  | case6 => simp at h

/-- A read that fails leaves less of the stream. -/
theorem weight_read_failed {size : Nat} {s t : Stream} {e : IoError}
    (h : s.read size = (.failed e, t)) : weight t < weight s := by
  fun_induction read size s with
  | case1 => simp at h
  | case2 rest ih => have := ih h; simp only [weight]; omega
  | case3 => simp at h
  | case4 => simp at h; simp [weight, h.2]
  | case5 => simp at h
  | case6 => simp at h

end Stream

/-! ## §2. Results. -/

/-- Why a reader has no telegram. -/
inductive ReadError where
  | io (error : IoError)
  | closed (pending : Nat)
  deriving Repr, DecidableEq

/-- The error in words. -/
def ReadError.text : ReadError → String
  | .io e => "frame I/O error: " ++ e.text
  | .closed pending =>
      "connection closed (" ++ Text.decimal pending ++ " bytes of an incomplete telegram dropped)"

/-- The refusal to encode a block, in words. -/
def Block.TooLarge.text (e : Block.TooLarge) : String :=
  "block too large (" ++ Text.decimal e.size ++ " bytes, max " ++ Text.decimal e.max ++ ")"

/-- What a call of a reader ends with. -/
inductive ReadResult where
  | telegram (t : Telegram)
  | failed (error : ReadError)
  /-- Nothing yet (polled readers only). -/
  | pending
  deriving Repr, DecidableEq

/-! ## §3. Readers. -/

/-- How a reader treats a stream that has nothing at the moment. -/
inductive ReadMode where
  | blocking
  | polled
  deriving Repr, DecidableEq

/-- The failures that leave the telegram in progress alone. -/
def ReadMode.keeps : ReadMode → IoKind → Bool
  | .blocking, .wouldBlock => true
  | .blocking, .timedOut => true
  | _, _ => false

/-- A framer and the stream that it reads from. -/
structure Reader where
  framer : Framer
  stream : Stream
  deriving Repr, DecidableEq

/-- What a call did: its result, the reader afterwards, the sizes asked of the
stream, and what was noted. -/
structure ReadCall where
  result : ReadResult
  reader : Reader
  requests : Array Nat
  events : Array FramingEvent
  deriving Repr, DecidableEq

namespace Reader

/-- End a call because of an error that drops the telegram in progress. -/
def giveUp (framer : Framer) (stream : Stream) (error : ReadError) (requests : Array Nat)
    (events : Array FramingEvent) : ReadCall :=
  let aborted := framer.abort 0
  ⟨.failed error, ⟨aborted.framer, stream⟩, requests, events ++ aborted.events.toArray⟩

/-- Read on until there is a telegram, an error, or nothing yet. -/
def readFrom (mode : ReadMode) (now : Time) (framer : Framer) (stream : Stream)
    (requests : Array Nat) (events : Array FramingEvent) : ReadCall :=
  let requests := requests.push framer.wanted
  match h : stream.read framer.wanted with
  | (.bytes [], rest) => giveUp framer rest (.closed framer.pending) requests events
  | (.bytes (b :: bs), rest) =>
      let step := (framer.push (b :: bs) now).2
      let events := events ++ step.events.toArray
      match step.telegram with
      | some t => ⟨.telegram t, ⟨step.framer, rest⟩, requests, events⟩
      | none =>
          have := Stream.weight_read_bytes h
          readFrom mode now step.framer rest requests events
  | (.waiting, rest) =>
      match mode with
      | .blocking => ⟨.failed (.io ⟨.wouldBlock, none⟩), ⟨framer, rest⟩, requests, events⟩
      | .polled => ⟨.pending, ⟨framer, rest⟩, requests, events⟩
  | (.failed e, rest) =>
      have := Stream.weight_read_failed h
      if e.kind = .interrupted then readFrom mode now framer rest requests events
      else if mode.keeps e.kind then ⟨.failed (.io e), ⟨framer, rest⟩, requests, events⟩
      else giveUp framer rest (.io e) requests events
termination_by stream.weight

/-- Read the next telegram. -/
def read (mode : ReadMode) (r : Reader) (now : Time) : ReadCall :=
  readFrom mode now r.framer r.stream #[] #[]

/-- The result of a call as an iteration sees it: a closed stream ends the
iteration. -/
def next? : ReadResult → Option ReadResult
  | .failed (.closed _) => none
  | result => some result

end Reader

end ReceiverLink
