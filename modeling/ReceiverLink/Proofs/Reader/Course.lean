/-
  ReceiverLink.Proofs.Reader.Course
  ────────────────────────────────
  **A call of a reader, and calls one after the other.**

  A call reads until a read ends it.  `Course` says so as a relation: the read
  that ends the call, or a read after which the call goes on as if it had begun
  there.  What is to be shown of calls is shown along their courses, with one
  case for each thing that a read can give.

  Main statements:
    * `Course.readFrom_eq` — the loop does what a course says;
    * `read_course` — every call has a course.
-/
import ReceiverLink.Proofs.Reader.Calls

namespace ReceiverLink

/-- What a reader returns when its stream has nothing at the moment. -/
def ReadMode.waited : ReadMode → ReadResult
  | .blocking => .failed (.io ⟨.wouldBlock, none⟩)
  | .polled => .pending

/-- The call, with what was asked for and noted before it. -/
def ReadCall.onto (requests : Array Nat) (events : Array FramingEvent) (call : ReadCall) :
    ReadCall :=
  { call with requests := requests ++ call.requests, events := events ++ call.events }

namespace Reader

/-! ## §1. The course of a call. -/

/-- What a call does that starts with this framer and this stream. -/
inductive Course (mode : ReadMode) (now : Time) : Framer → Stream → ReadCall → Prop where
  /-- The stream is at its end. -/
  | closed {f : Framer} {s t : Stream} (read : s.read f.wanted = (.bytes [], t)) :
      Course mode now f s ⟨.failed (.closed f.pending), ⟨(f.abort 0).framer, t⟩, #[f.wanted],
        (f.abort 0).events.toArray⟩
  /-- A telegram is whole. -/
  | telegram {f : Framer} {s t : Stream} {b : UInt8} {bs : List UInt8} {telegram : Telegram}
      (read : s.read f.wanted = (.bytes (b :: bs), t))
      (whole : (f.push (b :: bs) now).2.telegram = some telegram) :
      Course mode now f s ⟨.telegram telegram, ⟨(f.push (b :: bs) now).2.framer, t⟩, #[f.wanted],
        (f.push (b :: bs) now).2.events.toArray⟩
  /-- Bytes have come, but no telegram is whole. -/
  | more {f : Framer} {s t : Stream} {b : UInt8} {bs : List UInt8} {call : ReadCall}
      (read : s.read f.wanted = (.bytes (b :: bs), t))
      (none : (f.push (b :: bs) now).2.telegram = none)
      (next : Course mode now (f.push (b :: bs) now).2.framer t call) :
      Course mode now f s (call.onto #[f.wanted] (f.push (b :: bs) now).2.events.toArray)
  /-- The read was interrupted. -/
  | retry {f : Framer} {s t : Stream} {e : IoError} {call : ReadCall}
      (read : s.read f.wanted = (.failed e, t)) (kind : e.kind = .interrupted)
      (next : Course mode now f t call) : Course mode now f s (call.onto #[f.wanted] #[])
  /-- A failure that leaves the telegram in progress alone. -/
  | kept {f : Framer} {s t : Stream} {e : IoError} (read : s.read f.wanted = (.failed e, t))
      (kind : e.kind ≠ .interrupted) (keeps : mode.keeps e.kind = true) :
      Course mode now f s ⟨.failed (.io e), ⟨f, t⟩, #[f.wanted], #[]⟩
  /-- A failure that drops it. -/
  | dropped {f : Framer} {s t : Stream} {e : IoError} (read : s.read f.wanted = (.failed e, t))
      (kind : e.kind ≠ .interrupted) (keeps : mode.keeps e.kind = false) :
      Course mode now f s ⟨.failed (.io e), ⟨(f.abort 0).framer, t⟩, #[f.wanted],
        (f.abort 0).events.toArray⟩
  /-- The stream has nothing at the moment. -/
  | wait {f : Framer} {s t : Stream} (read : s.read f.wanted = (.waiting, t)) :
      Course mode now f s ⟨mode.waited, ⟨f, t⟩, #[f.wanted], #[]⟩

variable {mode : ReadMode} {now : Time} {f : Framer} {s t : Stream} {call : ReadCall}

/-- A call sees no more of its stream than its reads do. -/
theorem Course.congr (h : Course mode now f s call) (hread : s.read f.wanted = t.read f.wanted) :
    Course mode now f t call := by
  cases h with
  | closed read => exact .closed (hread.symm.trans read)
  | telegram read whole => exact .telegram (hread.symm.trans read) whole
  | more read none next => exact .more (hread.symm.trans read) none next
  | retry read kind next => exact .retry (hread.symm.trans read) kind next
  | kept read kind keeps => exact .kept (hread.symm.trans read) kind keeps
  | dropped read kind keeps => exact .dropped (hread.symm.trans read) kind keeps
  | wait read => exact .wait (hread.symm.trans read)

/-- **The loop does what a course says**, after whatever was asked for and noted
before. -/
theorem Course.readFrom_eq (h : Course mode now f s call) (requests : Array Nat)
    (events : Array FramingEvent) :
    readFrom mode now f s requests events = call.onto requests events := by
  induction h generalizing requests events with
  | closed read =>
    rw [readFrom_closed read, Array.push_eq_append]
    rfl
  | telegram read whole =>
    rw [readFrom_telegram read whole, Array.push_eq_append]
    rfl
  | more read none _ ih =>
    rw [readFrom_more read none, ih, Array.push_eq_append]
    simp only [ReadCall.onto, Array.append_assoc]
  | retry read kind _ ih =>
    rw [readFrom_retry read kind, ih, Array.push_eq_append]
    simp only [ReadCall.onto, Array.append_assoc, Array.empty_append]
  | kept read kind keeps =>
    rw [readFrom_kept read kind keeps, Array.push_eq_append]
    simp only [ReadCall.onto, Array.append_empty]
  | dropped read kind keeps =>
    rw [readFrom_dropped read kind keeps, Array.push_eq_append]
    rfl
  | wait read =>
    cases mode with
    | blocking =>
      rw [readFrom_blocked read, Array.push_eq_append]
      simp only [ReadCall.onto, Array.append_empty, ReadMode.waited]
    | polled =>
      rw [readFrom_pending read, Array.push_eq_append]
      simp only [ReadCall.onto, Array.append_empty, ReadMode.waited]

/-- A call comes to its end: each read that does not end it leaves less of the
stream. -/
theorem exists_course (mode : ReadMode) (now : Time) (f : Framer) (s : Stream) :
    ∃ call, Course mode now f s call := by
  match hread : s.read f.wanted with
  | (.bytes [], t) => exact ⟨_, .closed hread⟩
  | (.bytes (b :: bs), t) =>
    cases hpush : (f.push (b :: bs) now).2.telegram with
    | some telegram => exact ⟨_, .telegram hread hpush⟩
    | none =>
      obtain ⟨call, hnext⟩ := exists_course mode now (f.push (b :: bs) now).2.framer t
      exact ⟨_, .more hread hpush hnext⟩
  | (.failed e, t) =>
    by_cases hkind : e.kind = .interrupted
    · obtain ⟨call, hnext⟩ := exists_course mode now f t
      exact ⟨_, .retry hread hkind hnext⟩
    · cases hkeeps : mode.keeps e.kind with
      | true => exact ⟨_, .kept hread hkind hkeeps⟩
      | false => exact ⟨_, .dropped hread hkind hkeeps⟩
  | (.waiting, t) => exact ⟨_, .wait hread⟩
termination_by s.weight
decreasing_by
  · exact Stream.weight_read_bytes hread
  · exact Stream.weight_read_failed hread

theorem Course.read_eq {r : Reader} (h : Course mode now r.framer r.stream call) :
    r.read mode now = call := by
  unfold read
  rw [h.readFrom_eq]
  simp [ReadCall.onto]

/-- **Every call has a course.** -/
theorem read_course (mode : ReadMode) (r : Reader) (now : Time) :
    Course mode now r.framer r.stream (r.read mode now) := by
  obtain ⟨call, hcourse⟩ := exists_course mode now r.framer r.stream
  rw [hcourse.read_eq]
  exact hcourse

/-! ## §2. Calls one after the other. -/

/-- Read telegrams, one call for each of these times. -/
def calls (mode : ReadMode) (r : Reader) : List Time → List ReadCall
  | [] => []
  | now :: later => r.read mode now :: calls mode (r.read mode now).reader later

end Reader

end ReceiverLink
