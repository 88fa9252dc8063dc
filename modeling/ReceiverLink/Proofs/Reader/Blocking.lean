/-
  ReceiverLink.Proofs.Reader.Blocking
  ────────────────────────────────
  **A blocking reader is framing, stretch by stretch.**

  A stream falls into stretches: each ends where the stream ends or fails in
  earnest.  What the calls of a blocking reader return is settled by the
  stretches alone, however the bytes are split up: the telegrams of framing the
  bytes of a stretch with a new framer, in between a failure for each wait, and
  at last the reason why the stretch has ended.

  Main statements:
    * `readFrom_turn` — what one call returns of a stretch;
    * `reads_stretch` — what the calls for one stretch return;
    * `blocking_reads` — what all calls return, and what has been counted.
-/
import ReceiverLink.Proofs.Reader.Calls

namespace ReceiverLink

/-! ## §1. Stretches. -/

/-- One thing that a blocking reader meets within a stretch. -/
inductive Part where
  | data (bytes : List UInt8)
  /-- A failure that leaves the telegram in progress alone. -/
  | pause (error : IoError)
  deriving Repr, DecidableEq

namespace Part

/-- The bytes served. -/
def bytes : Part → List UInt8
  | .data bytes => bytes
  | .pause _ => []

/-- The failure met. -/
def pause? : Part → Option ReadError
  | .data _ => none
  | .pause e => some (.io e)

/-- What is returned of a part that comes after these bytes: the telegrams that
it completes, or its failure. -/
def outcomes (maxBlock : Nat) (before : List UInt8) : Part → List Outcome
  | .data bytes => (completed maxBlock before bytes).map .frame
  | .pause e => [.failed (.io e)]

end Part

/-- The failure of the stream behind an error; a stream that ends has none. -/
def ReadError.failure? : ReadError → Option IoError
  | .io e => some e
  | .closed _ => none

/-- A stretch of a stream after which a reader starts afresh. -/
structure Stretch where
  parts : List Part := []
  /-- The failure that ends it; without one, the stream has ended. -/
  failure : Option IoError := none
  deriving Repr, DecidableEq

namespace Stretch

/-- All bytes of a stretch. -/
def bytes (s : Stretch) : List UInt8 :=
  s.parts.flatMap Part.bytes

/-- The failures within a stretch. -/
def pauses (s : Stretch) : List ReadError :=
  s.parts.filterMap Part.pause?

/-- The stretch with one part more in front. -/
def cons (p : Part) (s : Stretch) : Stretch :=
  { s with parts := p :: s.parts }

/-- What is returned of the parts of a stretch, coming after these bytes. -/
def woven (maxBlock : Nat) (before : List UInt8) : List Part → List Outcome
  | [] => []
  | p :: rest => p.outcomes maxBlock before ++ woven maxBlock (before ++ p.bytes) rest

/-- Why a stretch has ended; `all` are its bytes. -/
def ending (maxBlock : Nat) (all : List UInt8) (s : Stretch) : ReadError :=
  match s.failure with
  | some e => .io e
  | none => .closed (framing maxBlock all).framer.pending

/-- What is returned of the rest of a stretch, coming after these bytes. -/
def outcomesAfter (maxBlock : Nat) (before : List UInt8) (s : Stretch) : List Outcome :=
  woven maxBlock before s.parts ++ [.failed (s.ending maxBlock (before ++ s.bytes))]

/-- What is returned of a stretch. -/
def outcomes (maxBlock : Nat) (s : Stretch) : List Outcome :=
  woven maxBlock [] s.parts ++ [.failed (s.ending maxBlock s.bytes)]

end Stretch

namespace Stream

/-- Cut off the first stretch. -/
def cut : Stream → Stretch × Stream
  | [] => ({}, [])
  | .data bytes :: rest => ((cut rest).1.cons (.data bytes), (cut rest).2)
  | .wait :: rest => ((cut rest).1.cons (.pause ⟨.wouldBlock, none⟩), (cut rest).2)
  | .endOfStream :: rest => ({}, rest)
  | .failure e :: rest =>
      if e.kind = .interrupted then cut rest
      else if e.kind = .wouldBlock ∨ e.kind = .timedOut then
        ((cut rest).1.cons (.pause e), (cut rest).2)
      else ({ failure := some e }, rest)

/-- The first so many stretches.  A stream that is at its end goes on with empty
ones. -/
def stretches (s : Stream) : Nat → List Stretch
  | 0 => []
  | n + 1 => s.cut.1 :: s.cut.2.stretches n

/-- An end of the stream inside a block, a wait inside a line, and a failure. -/
example : stretches [.data [1], .failure ⟨.interrupted, none⟩, .data [2], .endOfStream, .data [3],
      .wait, .failure ⟨.brokenPipe, none⟩] 3
    = [⟨[.data [1], .data [2]], none⟩,
      ⟨[.data [3], .pause ⟨.wouldBlock, none⟩], some ⟨.brokenPipe, none⟩⟩, ⟨[], none⟩] := by
  decide

end Stream

/-! ## §2. Runs of calls. -/

/-- Read telegrams, one call for each of these times: the results in order, and
the reader afterwards. -/
def Reader.reads (mode : ReadMode) (r : Reader) : List Time → List ReadResult × Reader
  | [] => ([], r)
  | now :: later =>
      let call := r.read mode now
      (call.result :: (reads mode call.reader later).1, (reads mode call.reader later).2)

theorem Reader.reads_append (mode : ReadMode) (r : Reader) (times later : List Time) :
    r.reads mode (times ++ later)
      = ((r.reads mode times).1 ++ ((r.reads mode times).2.reads mode later).1,
        ((r.reads mode times).2.reads mode later).2) := by
  induction times generalizing r with
  | nil => rfl
  | cons now times ih =>
    have hrest := ih (r.read mode now).reader
    show Prod.mk (_ :: (reads mode _ (times ++ later)).1) (reads mode _ (times ++ later)).2 = _
    rw [hrest]
    rfl

/-! ## §3. What is returned of a stretch. -/

section Weaving

variable {maxBlock : Nat} {before : List UInt8}

theorem Stretch.outcomesAfter_cons (p : Part) (s : Stretch) :
    (s.cons p).outcomesAfter maxBlock before
      = p.outcomes maxBlock before ++ s.outcomesAfter maxBlock (before ++ p.bytes) := by
  have hbytes : before ++ (s.cons p).bytes = before ++ p.bytes ++ s.bytes := by
    rw [List.append_assoc]
    rfl
  show _ ++ [Outcome.failed (s.ending maxBlock _)] = _
  rw [hbytes]
  exact List.append_assoc _ _ _

/-- Empty data changes nothing. -/
theorem Stretch.outcomesAfter_cons_nil (s : Stretch) :
    (s.cons (.data [])).outcomesAfter maxBlock before = s.outcomesAfter maxBlock before := by
  rw [outcomesAfter_cons]
  show (completed maxBlock before []).map _ ++ s.outcomesAfter maxBlock (before ++ []) = _
  rw [completed_nil, List.append_nil]
  rfl

/-- Data may be split up. -/
theorem Stretch.outcomesAfter_split (a b : List UInt8) (s : Stretch) :
    (s.cons (.data (a ++ b))).outcomesAfter maxBlock before
      = (completed maxBlock before a).map .frame
        ++ (s.cons (.data b)).outcomesAfter maxBlock (before ++ a) := by
  rw [outcomesAfter_cons, outcomesAfter_cons]
  show (completed maxBlock before (a ++ b)).map _ ++ _
    = _ ++ ((completed maxBlock (before ++ a) b).map _ ++ _)
  rw [completed_append, List.map_append, List.append_assoc]
  show _ ++ (_ ++ s.outcomesAfter maxBlock (before ++ (a ++ b))) = _
  rw [List.append_assoc before]
  rfl

/-- What is put back is read again. -/
theorem Stream.cut_unread (maxBlock : Nat) (before bytes : List UInt8) (s : Stream) :
    (s.unread bytes).cut.1.outcomesAfter maxBlock before
        = (s.cut.1.cons (.data bytes)).outcomesAfter maxBlock before
      ∧ (s.unread bytes).cut.1.bytes = bytes ++ s.cut.1.bytes
      ∧ (s.unread bytes).cut.2 = s.cut.2 := by
  unfold unread
  split
  next hnone =>
    rw [hnone, Stretch.outcomesAfter_cons_nil]
    exact ⟨rfl, rfl, rfl⟩
  next => exact ⟨rfl, rfl, rfl⟩

/-- The telegrams returned of a stretch are those of framing its bytes with a
new framer, and its waits change nothing of them. -/
theorem Stretch.woven_account (maxBlock : Nat) (parts : List Part) (before : List UInt8) :
    framesOf maxBlock before ++ (woven maxBlock before parts).filterMap Outcome.frame?
        = framesOf maxBlock (before ++ parts.flatMap Part.bytes)
      ∧ (woven maxBlock before parts).filterMap Outcome.error?
        = parts.filterMap Part.pause? := by
  induction parts generalizing before with
  | nil =>
    show framesOf maxBlock before ++ [] = framesOf maxBlock (before ++ []) ∧ _
    rw [List.append_nil, List.append_nil]
    exact ⟨rfl, rfl⟩
  | cons p rest ih =>
    obtain ⟨hframes, herrors⟩ := ih (before ++ p.bytes)
    rw [woven, List.filterMap_append, List.filterMap_append, List.flatMap_cons]
    rw [List.append_assoc] at hframes
    cases p with
    | data bytes =>
      have hgiven : ((completed maxBlock before bytes).map Outcome.frame).filterMap Outcome.frame?
          = completed maxBlock before bytes := by
        rw [List.filterMap_map]
        exact List.filterMap_some
      have hquiet : ((completed maxBlock before bytes).map Outcome.frame).filterMap
          Outcome.error? = [] := by
        rw [List.filterMap_map, List.filterMap_eq_nil_iff]
        intro frame _
        rfl
      constructor
      · show _ ++ (((completed maxBlock before bytes).map Outcome.frame).filterMap _ ++ _) = _
        rw [hgiven, ← List.append_assoc, framesOf_completed]
        exact hframes
      · show ((completed maxBlock before bytes).map Outcome.frame).filterMap _ ++ _ = _
        rw [hquiet]
        exact herrors
    | pause e =>
      have hbytes : before ++ (Part.pause e).bytes = before := List.append_nil before
      rw [hbytes] at hframes herrors ⊢
      exact ⟨hframes, congrArg (ReadError.io e :: ·) herrors⟩

end Weaving

/-! ## §4. One call. -/

section Calls

variable {maxBlock : Nat} {base : FramingStats} {before : List UInt8}

/-- What a call does to a reader that has read `before` of its stretch and has
`s` to read: it returns the next outcome, which may be the last. -/
inductive Turn (maxBlock : Nat) (base : FramingStats) (before : List UInt8) (s : Stream)
    (call : ReadCall) : Prop where
  | within {read : List UInt8} (follows : Follows maxBlock base (before ++ read) call.reader.framer)
      (outcomes : s.cut.1.outcomesAfter maxBlock before = call.result.outcome
        :: call.reader.stream.cut.1.outcomesAfter maxBlock (before ++ read))
      (bytes : s.cut.1.bytes = read ++ call.reader.stream.cut.1.bytes)
      (rest : call.reader.stream.cut.2 = s.cut.2)
  | last (follows : Follows maxBlock (base + statsOf maxBlock (before ++ s.cut.1.bytes)) []
        call.reader.framer)
      (outcomes : s.cut.1.outcomesAfter maxBlock before = [call.result.outcome])
      (rest : call.reader.stream = s.cut.2)

/-- A turn that starts with reading bytes which complete nothing. -/
theorem Turn.after {s t : Stream} {read : List UInt8} {call : ReadCall}
    (outcomes : s.cut.1.outcomesAfter maxBlock before
      = t.cut.1.outcomesAfter maxBlock (before ++ read))
    (bytes : s.cut.1.bytes = read ++ t.cut.1.bytes) (rest : t.cut.2 = s.cut.2)
    (h : Turn maxBlock base (before ++ read) t call) : Turn maxBlock base before s call := by
  cases h with
  | @within more follows hout hbytes hrest =>
    rw [List.append_assoc] at follows hout
    refine .within follows (outcomes.trans hout) ?_ (hrest.trans rest)
    rw [bytes, hbytes, List.append_assoc]
  | last follows hout hrest =>
    rw [List.append_assoc, ← bytes] at follows
    exact .last follows (outcomes.trans hout) (hrest.trans rest)

/-- A call that gives up ends its stretch. -/
theorem Turn.giveUp {f : Framer} (h : Follows maxBlock base before f) {s t : Stream}
    {e : ReadError} (hcut : s.cut = ({ failure := e.failure? }, t))
    (he : e = Stretch.ending maxBlock before s.cut.1) (requests : Array Nat)
    (events : Array FramingEvent) :
    Turn maxBlock base before s (Reader.giveUp f t e requests events) := by
  have hbytes : s.cut.1.bytes = [] := by
    rw [hcut]
    rfl
  refine .last ?_ ?_ ?_
  · rw [hbytes, List.append_nil]
    exact h.abort
  · unfold Stretch.outcomesAfter
    rw [hbytes, List.append_nil, ← he, hcut]
    rfl
  · rw [hcut]
    rfl

/-- A read that fails. -/
theorem readFrom_failure_turn {f : Framer} (h : Follows maxBlock base before f) (e : IoError)
    (rest : Stream) (now : Time) (requests : Array Nat) (events : Array FramingEvent)
    (again : Turn maxBlock base before rest
      (Reader.readFrom .blocking now f rest (requests.push f.wanted) events)) :
    Turn maxBlock base before (.failure e :: rest)
      (Reader.readFrom .blocking now f (.failure e :: rest) requests events) := by
  have hread : Stream.read f.wanted (.failure e :: rest) = (.failed e, rest) := rfl
  by_cases hkind : e.kind = .interrupted
  · -- the call goes on by itself
    have hcut : Stream.cut (.failure e :: rest) = Stream.cut rest := if_pos hkind
    rw [Reader.readFrom_retry hread hkind]
    rw [← List.append_nil before] at again
    apply again.after
    · rw [hcut, List.append_nil]
    · rw [hcut]
      rfl
    · rw [hcut]
  · by_cases hpause : e.kind = .wouldBlock ∨ e.kind = .timedOut
    · -- the call returns, and the next one goes on with the telegram
      have hcut : Stream.cut (.failure e :: rest)
          = ((Stream.cut rest).1.cons (.pause e), (Stream.cut rest).2) := by
        rw [Stream.cut, if_neg hkind, if_pos hpause]
      have hkeeps : ReadMode.blocking.keeps e.kind = true := by
        rcases hpause with hkind | hkind <;> rw [hkind] <;> rfl
      rw [Reader.readFrom_kept hread hkind hkeeps]
      rw [← List.append_nil before] at h
      apply Turn.within h
      · rw [hcut]
        exact Stretch.outcomesAfter_cons _ _
      · rw [hcut]
        rfl
      · rw [hcut]
    · -- the telegram in progress is dropped, and a new stretch begins
      have hcut : Stream.cut (.failure e :: rest) = ({ failure := some e }, rest) := by
        rw [Stream.cut, if_neg hkind, if_neg hpause]
      have hkeeps : ReadMode.blocking.keeps e.kind = false := by
        cases hk : e.kind <;> first | rfl | simp [hk] at hpause
      rw [Reader.readFrom_dropped hread hkind hkeeps]
      apply Turn.giveUp h hcut
      rw [hcut]
      rfl

/-- A read that gives bytes.  They complete a telegram, or the call goes on with
the rest of the stream. -/
theorem readFrom_data_turn {f : Framer} (h : Follows maxBlock base before f) (b : UInt8)
    (bs : List UInt8) (rest : Stream) (now : Time) (requests : Array Nat)
    (events : Array FramingEvent)
    (next : ∀ {g : Framer} {read : List UInt8} {t : Stream} {requests : Array Nat}
      {events : Array FramingEvent}, Follows maxBlock base (before ++ read) g →
      t.weight < Stream.weight (.data (b :: bs) :: rest) →
      Turn maxBlock base (before ++ read) t (Reader.readFrom .blocking now g t requests events)) :
    Turn maxBlock base before (.data (b :: bs) :: rest)
      (Reader.readFrom .blocking now f (.data (b :: bs) :: rest) requests events) := by
  -- what is read is not empty, since something is wanted
  obtain ⟨n, hn⟩ := Nat.exists_eq_succ_of_ne_zero (Nat.pos_iff_ne_zero.mp h.coherent.wanted_pos)
  let left := (b :: bs).drop (n + 1)
  have hread : Stream.read f.wanted (.data (b :: bs) :: rest)
      = (.bytes (b :: bs.take n), Stream.unread left rest) := by
    rw [Stream.read, hn]
    rfl
  have hdata : b :: bs = (b :: bs.take n) ++ left :=
    congrArg (b :: ·) (List.take_append_drop n bs).symm
  obtain ⟨hfollows, hframes⟩ := h.push (Stream.length_of_read hread) now
  obtain ⟨hunread, hbytes, hrest⟩ :=
    Stream.cut_unread maxBlock (before ++ b :: bs.take n) left rest
  have houtcomes : (Stream.cut (.data (b :: bs) :: rest)).1.outcomesAfter maxBlock before
      = (completed maxBlock before (b :: bs.take n)).map .frame
        ++ (Stream.unread left rest).cut.1.outcomesAfter maxBlock (before ++ b :: bs.take n) := by
    rw [hunread, ← Stretch.outcomesAfter_split, ← hdata]
    rfl
  have hcut : (Stream.cut (.data (b :: bs) :: rest)).1.bytes
      = (b :: bs.take n) ++ (Stream.unread left rest).cut.1.bytes := by
    rw [hbytes, ← List.append_assoc, ← hdata]
    rfl
  rw [← hframes] at houtcomes
  cases hpush : (f.push (b :: bs.take n) now).2.telegram with
  | some telegram =>
    rw [Reader.readFrom_telegram hread hpush]
    rw [hpush] at houtcomes
    exact .within hfollows houtcomes hcut hrest
  | none =>
    rw [Reader.readFrom_more hread hpush]
    rw [hpush] at houtcomes
    exact (next hfollows (Stream.weight_read_bytes hread)).after houtcomes hcut hrest

/-- **One call** returns the next outcome of its stretch. -/
theorem readFrom_turn {before : List UInt8} {f : Framer} (h : Follows maxBlock base before f)
    (s : Stream) (now : Time) (requests : Array Nat) (events : Array FramingEvent) :
    Turn maxBlock base before s (Reader.readFrom .blocking now f s requests events) := by
  match s with
  | [] | .endOfStream :: rest =>
    rw [Reader.readFrom_closed rfl]
    apply Turn.giveUp h rfl
    rw [h.pending]
    rfl
  | .wait :: rest =>
    rw [Reader.readFrom_blocked rfl]
    rw [← List.append_nil before] at h
    exact .within h (Stretch.outcomesAfter_cons _ _) rfl rfl
  | .failure e :: rest =>
    exact readFrom_failure_turn h e rest now requests events
      (readFrom_turn h rest now (requests.push f.wanted) events)
  | .data [] :: rest =>
    have hnext := readFrom_turn h rest now requests events
    rw [Reader.readFrom_skip]
    rw [← List.append_nil before] at hnext
    apply hnext.after
    · rw [List.append_nil]
      exact Stretch.outcomesAfter_cons_nil _
    · rfl
    · rfl
  | .data (b :: bs) :: rest =>
    apply readFrom_data_turn h
    intro g read t requests events hfollows hshort
    exact readFrom_turn hfollows t now requests events
termination_by s.weight
decreasing_by
  · simp [Stream.weight]
  · simp [Stream.weight]
  · exact hshort

/-! ## §5. All calls. -/

/-- **The calls for one stretch** return what is returned of it. -/
theorem reads_stretch {r : Reader} (h : Follows maxBlock base before r.framer) (times : List Time)
    (hlength : times.length = (r.stream.cut.1.outcomesAfter maxBlock before).length) :
    (r.reads .blocking times).1.map ReadResult.outcome
        = r.stream.cut.1.outcomesAfter maxBlock before
      ∧ Follows maxBlock (base + statsOf maxBlock (before ++ r.stream.cut.1.bytes)) []
        (r.reads .blocking times).2.framer
      ∧ (r.reads .blocking times).2.stream = r.stream.cut.2 := by
  induction times generalizing r before with
  | nil =>
    -- every stretch has a last outcome
    have hlast : 0 < (r.stream.cut.1.outcomesAfter maxBlock before).length := by
      unfold Stretch.outcomesAfter
      simp
    exact absurd hlength (Nat.ne_of_lt hlast)
  | cons now times ih =>
    have hturn := readFrom_turn h r.stream now #[] #[]
    show _ :: List.map _ _ = _ ∧ _
    cases hturn with
    | @within read follows outcomes bytes rest =>
      rw [outcomes] at hlength
      obtain ⟨hresults, hfollows, hstream⟩ := ih follows (Nat.succ.inj hlength)
      rw [List.append_assoc] at hfollows
      rw [outcomes, bytes]
      exact ⟨congrArg (_ :: ·) hresults, hfollows, hstream.trans rest⟩
    | last follows outcomes rest =>
      rw [outcomes] at hlength
      obtain rfl := List.length_eq_zero_iff.mp (Nat.succ.inj hlength)
      rw [outcomes]
      exact ⟨rfl, follows, rest⟩

/-- The calls for the first stretches. -/
theorem reads_stretches {r : Reader} (h : Follows maxBlock base [] r.framer) (n : Nat)
    (times : List Time)
    (hlength : times.length = ((r.stream.stretches n).flatMap (Stretch.outcomes maxBlock)).length) :
    (r.reads .blocking times).1.map ReadResult.outcome
        = (r.stream.stretches n).flatMap (Stretch.outcomes maxBlock)
      ∧ (r.reads .blocking times).2.framer.stats
        = base + ((r.stream.stretches n).map fun s => statsOf maxBlock s.bytes).sum := by
  induction n generalizing r base times with
  | zero =>
    obtain rfl := List.length_eq_zero_iff.mp hlength
    have hstats := h.stats
    rw [framing_nil] at hstats
    exact ⟨rfl, hstats⟩
  | succ n ih =>
    -- the calls for the first stretch, and those for the others
    rw [Stream.stretches, List.flatMap_cons, List.length_append] at hlength
    let first := times.take (r.stream.cut.1.outcomes maxBlock).length
    let later := times.drop (r.stream.cut.1.outcomes maxBlock).length
    have hfirst : first.length = (r.stream.cut.1.outcomesAfter maxBlock []).length := by
      rw [List.length_take, hlength]
      exact Nat.min_eq_left (Nat.le_add_right _ _)
    obtain ⟨hresults, hfollows, hstream⟩ := reads_stretch h first hfirst
    have hlater : later.length
        = (((r.reads .blocking first).2.stream.stretches n).flatMap
            (Stretch.outcomes maxBlock)).length := by
      rw [List.length_drop, hlength, hstream]
      omega
    obtain ⟨hmore, hstats⟩ := ih hfollows later hlater
    rw [← List.take_append_drop (r.stream.cut.1.outcomes maxBlock).length times,
      Reader.reads_append, List.map_append, hresults, hmore, hstats, hstream,
      FramingStats.add_assoc]
    exact ⟨rfl, rfl⟩

end Calls

/-- Each stretch gives one outcome at least. -/
theorem Stream.le_length_outcomes (maxBlock : Nat) (s : Stream) (n : Nat) :
    n ≤ ((s.stretches n).flatMap (Stretch.outcomes maxBlock)).length := by
  induction n generalizing s with
  | zero => exact Nat.zero_le _
  | succ n ih =>
    have hrest := ih s.cut.2
    rw [stretches, List.flatMap_cons, List.length_append]
    unfold Stretch.outcomes at hrest ⊢
    rw [List.length_append, List.length_singleton]
    omega

/-- **A blocking reader is framing, stretch by stretch.**  Whatever the stream
serves and whenever the calls are made, the calls for the first stretches return
the outcomes of these stretches one after the other, and in the end each stretch
has been counted as framing its bytes counts, with a resynchronization more
where something was pending.  Of each stretch the telegrams are those that a
new framer gives when it is fed the bytes of the stretch, and the failures
those of its waits; the last outcome says why the stretch has ended. -/
theorem blocking_reads (maxBlock : Nat) (script : Stream) (clock : Nat → Time) (n : Nat) :
    let stretches := script.stretches n
    let outcomes := stretches.flatMap (Stretch.outcomes maxBlock)
    let run := Reader.reads .blocking ⟨.new maxBlock, script⟩
      ((List.range outcomes.length).map clock)
    run.1.map ReadResult.outcome = outcomes
      ∧ n ≤ outcomes.length
      ∧ run.2.framer.stats = (stretches.map fun s => statsOf maxBlock s.bytes).sum
      ∧ ∀ s ∈ stretches,
        (Stretch.woven maxBlock [] s.parts).filterMap Outcome.frame? = framesOf maxBlock s.bytes
          ∧ (Stretch.woven maxBlock [] s.parts).filterMap Outcome.error? = s.pauses := by
  intro stretches outcomes run
  have hlength : ((List.range outcomes.length).map clock).length = outcomes.length := by
    rw [List.length_map, List.length_range]
  obtain ⟨hresults, hstats⟩ :=
    reads_stretches (r := ⟨.new maxBlock, script⟩) (Follows.new maxBlock) n _ hlength
  rw [FramingStats.zero_add] at hstats
  refine ⟨hresults, script.le_length_outcomes maxBlock n, hstats, ?_⟩
  intro s _
  obtain ⟨hframes, herrors⟩ := Stretch.woven_account maxBlock s.parts []
  rw [framesOf_nil, List.nil_append] at hframes
  exact ⟨hframes, herrors⟩

end ReceiverLink
