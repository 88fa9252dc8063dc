/-
  ReceiverLink.Proofs.Reader.Calls
  ────────────────────────────────
  **What one call of a reader does, read by read.**

  A call is a loop, and each turn of it is decided by one read: there is one
  equation here for each thing that a read can give (`readFrom_closed`,
  `readFrom_telegram`, `readFrom_more`, `readFrom_retry`, `readFrom_kept`,
  `readFrom_dropped`, `readFrom_blocked`, `readFrom_pending`).  What is read
  never exceeds what the framer wants, so a push of it is a feed of it, and a
  reader's framer stays one that was fed: `Follows` says that it is where
  framing the bytes since its last fresh start has come to, with counts from
  before that.

  Main statements:
    * `Follows.push` — what is read is framed;
    * `Follows.abort` — giving up is a fresh start.
-/
import ReceiverLink.Reader
import ReceiverLink.Proofs.Framer.Counts
import ReceiverLink.Proofs.Framer.Untimed

namespace ReceiverLink

/-! ## §1. Results without the clock. -/

/-- What a call ends with, whenever its telegram came. -/
inductive Outcome where
  | frame (frame : Format × List UInt8)
  | failed (error : ReadError)
  | pending
  deriving Repr, DecidableEq

/-- The result of a call, without the capture time. -/
def ReadResult.outcome : ReadResult → Outcome
  | .telegram t => .frame t.frame
  | .failed e => .failed e
  | .pending => .pending

namespace Outcome

/-- The telegram that was delivered. -/
def frame? : Outcome → Option (Format × List UInt8)
  | .frame f => some f
  | _ => none

/-- The error that was returned. -/
def error? : Outcome → Option ReadError
  | .failed e => some e
  | _ => none

end Outcome

/-! ## §2. Reads. -/

/-- A read never gives more than was asked for. -/
theorem Stream.length_of_read {size : Nat} {s t : Stream} {bytes : List UInt8}
    (h : s.read size = (.bytes bytes, t)) : bytes.length ≤ size := by
  fun_induction Stream.read size s with
  | case1 =>
    cases h
    exact Nat.zero_le _
  | case2 rest ih => exact ih h
  | case3 b bs rest =>
    cases h
    exact List.length_take_le _ _
  | case4 => cases h
  | case5 =>
    cases h
    exact Nat.zero_le _
  | case6 => cases h

namespace Reader

variable {mode : ReadMode} {now : Time} {f : Framer} {s t : Stream} {requests : Array Nat}
  {events : Array FramingEvent}

/-- The end of the stream drops the telegram in progress. -/
theorem readFrom_closed (h : s.read f.wanted = (.bytes [], t)) :
    readFrom mode now f s requests events
      = giveUp f t (.closed f.pending) (requests.push f.wanted) events := by
  rw [readFrom]
  split <;> rename_i hread <;> rw [h] at hread <;> cases hread
  rfl

/-- Bytes that complete a telegram end the call. -/
theorem readFrom_telegram {b : UInt8} {bs : List UInt8} {telegram : Telegram}
    (h : s.read f.wanted = (.bytes (b :: bs), t))
    (hpush : (f.push (b :: bs) now).2.telegram = some telegram) :
    readFrom mode now f s requests events
      = ⟨.telegram telegram, ⟨(f.push (b :: bs) now).2.framer, t⟩, requests.push f.wanted,
          events ++ (f.push (b :: bs) now).2.events.toArray⟩ := by
  rw [readFrom]
  split <;> rename_i hread <;> rw [h] at hread <;> cases hread
  dsimp only
  rw [hpush]

/-- After other bytes the call reads on. -/
theorem readFrom_more {b : UInt8} {bs : List UInt8} (h : s.read f.wanted = (.bytes (b :: bs), t))
    (hpush : (f.push (b :: bs) now).2.telegram = none) :
    readFrom mode now f s requests events
      = readFrom mode now (f.push (b :: bs) now).2.framer t (requests.push f.wanted)
          (events ++ (f.push (b :: bs) now).2.events.toArray) := by
  rw [readFrom]
  split <;> rename_i hread <;> rw [h] at hread <;> cases hread
  dsimp only
  rw [hpush]

/-- An interrupted read is repeated. -/
theorem readFrom_retry {e : IoError} (h : s.read f.wanted = (.failed e, t))
    (hkind : e.kind = .interrupted) :
    readFrom mode now f s requests events
      = readFrom mode now f t (requests.push f.wanted) events := by
  rw [readFrom]
  split <;> rename_i hread <;> rw [h] at hread <;> cases hread
  rw [if_pos hkind]

/-- A failure may leave the telegram in progress alone. -/
theorem readFrom_kept {e : IoError} (h : s.read f.wanted = (.failed e, t))
    (hkind : e.kind ≠ .interrupted) (hkeeps : mode.keeps e.kind = true) :
    readFrom mode now f s requests events
      = ⟨.failed (.io e), ⟨f, t⟩, requests.push f.wanted, events⟩ := by
  rw [readFrom]
  split <;> rename_i hread <;> rw [h] at hread <;> cases hread
  rw [if_neg hkind, if_pos hkeeps]

/-- Other failures drop it. -/
theorem readFrom_dropped {e : IoError} (h : s.read f.wanted = (.failed e, t))
    (hkind : e.kind ≠ .interrupted) (hkeeps : mode.keeps e.kind = false) :
    readFrom mode now f s requests events
      = giveUp f t (.io e) (requests.push f.wanted) events := by
  rw [readFrom]
  split <;> rename_i hread <;> rw [h] at hread <;> cases hread
  rw [if_neg hkind, if_neg (by rw [hkeeps]; exact Bool.false_ne_true)]

/-- A blocking reader returns a wait as a failure. -/
theorem readFrom_blocked (h : s.read f.wanted = (.waiting, t)) :
    readFrom .blocking now f s requests events
      = ⟨.failed (.io ⟨.wouldBlock, none⟩), ⟨f, t⟩, requests.push f.wanted, events⟩ := by
  rw [readFrom]
  split <;> rename_i hread <;> rw [h] at hread <;> cases hread
  rfl

/-- A polled reader gives up the poll. -/
theorem readFrom_pending (h : s.read f.wanted = (.waiting, t)) :
    readFrom .polled now f s requests events
      = ⟨.pending, ⟨f, t⟩, requests.push f.wanted, events⟩ := by
  rw [readFrom]
  split <;> rename_i hread <;> rw [h] at hread <;> cases hread
  rfl

/-- Empty data is not read. -/
theorem readFrom_skip (mode : ReadMode) (now : Time) (f : Framer) (s : Stream)
    (requests : Array Nat) (events : Array FramingEvent) :
    readFrom mode now f (.data [] :: s) requests events
      = readFrom mode now f s requests events := by
  have hread : Stream.read f.wanted (.data [] :: s) = s.read f.wanted := rfl
  cases h : s.read f.wanted with
  | mk reading t =>
    rw [h] at hread
    cases reading with
    | bytes bytes =>
      cases bytes with
      | nil => rw [readFrom_closed h, readFrom_closed hread]
      | cons b bs =>
        cases hpush : (f.push (b :: bs) now).2.telegram with
        | none => rw [readFrom_more h hpush, readFrom_more hread hpush]
        | some telegram => rw [readFrom_telegram h hpush, readFrom_telegram hread hpush]
    | waiting =>
      cases mode with
      | blocking => rw [readFrom_blocked h, readFrom_blocked hread]
      | polled => rw [readFrom_pending h, readFrom_pending hread]
    | failed e =>
      by_cases hkind : e.kind = .interrupted
      · rw [readFrom_retry h hkind, readFrom_retry hread hkind]
      · cases hkeeps : mode.keeps e.kind with
        | true => rw [readFrom_kept h hkind hkeeps, readFrom_kept hread hkind hkeeps]
        | false => rw [readFrom_dropped h hkind hkeeps, readFrom_dropped hread hkind hkeeps]

end Reader

/-! ## §3. The framer of a reader. -/

/-- The telegrams that bytes complete, coming after others. -/
def completed (maxBlock : Nat) (before bytes : List UInt8) : List (Format × List UInt8) :=
  (framesOf maxBlock (before ++ bytes)).drop (framesOf maxBlock before).length

theorem framesOf_completed (maxBlock : Nat) (before bytes : List UInt8) :
    framesOf maxBlock before ++ completed maxBlock before bytes
      = framesOf maxBlock (before ++ bytes) := by
  unfold completed
  rw [framesOf_append, List.drop_left]

/-- The telegrams that bytes complete are those of feeding them to the framer
that the others have left. -/
theorem completed_eq (maxBlock : Nat) (before bytes : List UInt8) :
    completed maxBlock before bytes
      = ((framing maxBlock before).framer.feed bytes 0).telegrams.toList.map Telegram.frame := by
  unfold completed
  rw [framesOf_append, List.drop_left]

theorem completed_nil (maxBlock : Nat) (before : List UInt8) :
    completed maxBlock before [] = [] := by
  unfold completed
  rw [List.append_nil, List.drop_length]

/-- Bytes may come in two parts. -/
theorem completed_append (maxBlock : Nat) (before a b : List UInt8) :
    completed maxBlock before (a ++ b)
      = completed maxBlock before a ++ completed maxBlock (before ++ a) b := by
  have hwhole := framesOf_completed maxBlock before (a ++ b)
  have hparts := framesOf_completed maxBlock (before ++ a) b
  rw [← framesOf_completed maxBlock before a, List.append_assoc, List.append_assoc] at hparts
  exact List.append_cancel_left (hwhole.trans hparts.symm)

/-- What framing a stream counts when the stream ends there: what is pending
then is dropped. -/
def statsOf (maxBlock : Nat) (bytes : List UInt8) : FramingStats :=
  let f := (framing maxBlock bytes).framer
  if 0 < f.pending then f.stats + .oneResync else f.stats

/-- The framer is where framing these bytes has come to, but for capture times
and the counts from before. -/
structure Follows (maxBlock : Nat) (base : FramingStats) (before : List UInt8) (f : Framer) :
    Prop where
  coherent : f.Coherent maxBlock
  alike : f.Alike ((framing maxBlock before).framer.addStats base)

namespace Follows

variable {maxBlock : Nat} {base : FramingStats} {before bytes : List UInt8} {f : Framer}

theorem new (maxBlock : Nat) : Follows maxBlock 0 [] (.new maxBlock) := by
  refine ⟨Framer.new_coherent maxBlock, ?_⟩
  rw [framing_nil]
  exact .refl _

/-- What is pending is what framing the bytes has left. -/
theorem pending (h : Follows maxBlock base before f) :
    f.pending = (framing maxBlock before).framer.pending :=
  congrArg Array.size h.alike.bytes

theorem stats (h : Follows maxBlock base before f) :
    f.stats = base + (framing maxBlock before).framer.stats :=
  h.alike.stats

theorem feed (h : Follows maxBlock base before f) (bytes : List UInt8) (now : Time) :
    Follows maxBlock base (before ++ bytes) (f.feed bytes now).framer
      ∧ (f.feed bytes now).telegrams.toList.map Telegram.frame
        = completed maxBlock before bytes := by
  have hframing := framing_coherent maxBlock before
  have hfeed := Framer.feed_alike h.coherent (Framer.addStats_coherent hframing) h.alike bytes now 0
  rw [Framer.feed_addStats hframing] at hfeed
  refine ⟨⟨(Framer.feed_sound h.coherent bytes now).coherent, ?_⟩, ?_⟩
  · rw [framing_append]
    exact hfeed.framer
  · rw [completed_eq]
    exact hfeed.frames

/-- **What is read is framed.**  No more was asked for than is wanted. -/
theorem push (h : Follows maxBlock base before f) (hle : bytes.length ≤ f.wanted) (now : Time) :
    Follows maxBlock base (before ++ bytes) (f.push bytes now).2.framer
      ∧ (f.push bytes now).2.telegram.toList.map Telegram.frame
        = completed maxBlock before bytes := by
  have hpush : (f.push bytes now).2.fed = f.feed bytes now := by
    rw [Framer.push_fed_eq_feed h.coherent, List.take_of_length_le hle]
  have hfeed := h.feed bytes now
  rw [← hpush] at hfeed
  refine ⟨hfeed.1, ?_⟩
  rw [← hfeed.2]
  show _ = (f.push bytes now).2.telegram.toArray.toList.map Telegram.frame
  rw [Option.toList_toArray]

/-- **Giving up is a fresh start.**  A telegram in progress is counted as
dropped. -/
theorem abort (h : Follows maxBlock base before f) :
    Follows maxBlock (base + statsOf maxBlock before) [] (f.abort 0).framer := by
  have hstats : (if 0 < f.pending then f.stats + .oneResync else f.stats)
      = base + statsOf maxBlock before := by
    unfold statsOf
    dsimp only
    rw [h.pending, h.stats]
    split
    next => rfl
    next => rfl
  refine ⟨(Framer.abort_sound h.coherent 0).coherent, ?_⟩
  rw [h.coherent.abort_framer, hstats, framing_nil]
  exact .refl _

end Follows

end ReceiverLink
