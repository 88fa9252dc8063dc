/-
  ReceiverLink.Proofs.Reader.Polled
  ────────────────────────────────
  **A poll that is given up loses nothing.**

  A polled reader gives up a call when its stream has nothing at the moment,
  and a new call takes its place.  Over a stream whose failures are all in
  earnest such calls are those of a blocking reader, one for one, but that they
  end in `pending` where the blocking ones fail.  And what they return besides
  is what is returned over the same stream without its waits, that is by calls
  none of which is ever given up.

  Main statements:
    * `Course.polled` — one call of a blocking reader is one of a polled reader;
    * `Course.awaited` — a call that was given up is taken up by the next one;
    * `polled_calls` — both, for any number of calls.
-/
import ReceiverLink.Proofs.Reader.Course

namespace ReceiverLink

/-! ## §1. Streams. -/

/-- The stream as it is without its waits. -/
def Stream.awaited (s : Stream) : Stream :=
  s.filter (· ≠ .wait)

/-- No failure of the stream leaves the telegram in progress of a blocking
reader alone. -/
def Stream.Earnest (s : Stream) : Prop :=
  ∀ e, .failure e ∈ s → e.kind ≠ .wouldBlock ∧ e.kind ≠ .timedOut

namespace Stream

variable {size : Nat} {s t : Stream} {reading : Reading}

/-- What a read leaves was there before it. -/
theorem failure_of_read (h : s.read size = (reading, t)) {e : IoError} (he : .failure e ∈ t) :
    .failure e ∈ s := by
  fun_induction read size s with
  | case1 =>
    cases h
    exact he
  | case2 rest ih => exact List.mem_cons_of_mem _ (ih h)
  | case3 b bs rest =>
    cases h
    unfold unread at he
    split at he
    next => exact List.mem_cons_of_mem _ he
    next =>
      rcases List.mem_cons.mp he with hdata | hrest
      · cases hdata
      · exact List.mem_cons_of_mem _ hrest
  | case4 | case5 | case6 =>
    cases h
    exact List.mem_cons_of_mem _ he

/-- A read fails only with a failure of the stream. -/
theorem mem_of_read_failed {e : IoError} (h : s.read size = (.failed e, t)) : .failure e ∈ s := by
  fun_induction read size s with
  | case1 => cases h
  | case2 rest ih => exact List.mem_cons_of_mem _ (ih h)
  | case3 => cases h
  | case4 =>
    cases h
    exact List.mem_cons_self ..
  | case5 => cases h
  | case6 => cases h

theorem Earnest.of_read (hs : s.Earnest) (h : s.read size = (reading, t)) : t.Earnest :=
  fun e he => hs e (failure_of_read h he)

theorem awaited_unread (bytes : List UInt8) (s : Stream) :
    (s.unread bytes).awaited = s.awaited.unread bytes := by
  unfold unread
  split
  next => rfl
  next => rfl

/-- Without its waits a stream gives what it gives otherwise. -/
theorem read_awaited (h : s.read size = (reading, t)) (hgiven : reading ≠ .waiting) :
    s.awaited.read size = (reading, t.awaited) := by
  fun_induction read size s with
  | case1 =>
    cases h
    rfl
  | case2 rest ih => exact ih h
  | case3 b bs rest =>
    cases h
    rw [awaited_unread]
    rfl
  | case4 | case5 =>
    cases h
    rfl
  | case6 =>
    cases h
    exact absurd rfl hgiven

/-- After a wait it goes on as if there had been none. -/
theorem read_awaited_of_waiting (h : s.read size = (.waiting, t)) (n : Nat) :
    s.awaited.read n = t.awaited.read n := by
  fun_induction read size s with
  | case1 => cases h
  | case2 rest ih => exact ih h
  | case3 => cases h
  | case4 => cases h
  | case5 => cases h
  | case6 =>
    cases h
    rfl

end Stream

/-! ## §2. The same call of both readers. -/

/-- The result, as a polled reader returns it. -/
def ReadResult.polled : ReadResult → ReadResult
  | .failed (.io ⟨.wouldBlock, none⟩) => .pending
  | result => result

/-- The call, as a polled reader makes it. -/
def ReadCall.polled (call : ReadCall) : ReadCall :=
  { call with result := call.result.polled }

theorem ReadResult.polled_of_kind {e : IoError} (h : e.kind ≠ .wouldBlock) :
    (ReadResult.failed (.io e)).polled = .failed (.io e) := by
  unfold polled
  split
  next heq =>
    cases heq
    exact absurd rfl h
  next => rfl

namespace Reader

variable {mode : ReadMode} {now now' : Time} {f g : Framer} {s : Stream} {call : ReadCall}

/-- A call leaves no failure that was not there. -/
theorem Course.earnest (h : Course mode now f s call) (hs : s.Earnest) :
    call.reader.stream.Earnest := by
  induction h with
  | closed read => exact hs.of_read read
  | telegram read => exact hs.of_read read
  | more read _ _ ih => exact ih (hs.of_read read)
  | retry read _ _ ih => exact ih (hs.of_read read)
  | kept read => exact hs.of_read read
  | dropped read => exact hs.of_read read
  | wait read => exact hs.of_read read

/-- **A call of a blocking reader is one of a polled reader.** -/
theorem Course.polled (h : Course .blocking now f s call) (hs : s.Earnest) :
    Course .polled now f s call.polled := by
  induction h with
  | closed read => exact .closed read
  | telegram read whole => exact .telegram read whole
  | more read none _ ih => exact .more read none (ih (hs.of_read read))
  | retry read kind _ ih => exact .retry read kind (ih (hs.of_read read))
  | @kept _ _ _ e read kind keeps =>
    -- the kinds that are kept are those that do not occur
    obtain ⟨hblock, htime⟩ := hs e (Stream.mem_of_read_failed read)
    cases hkind : e.kind <;> simp_all [ReadMode.keeps]
  | @dropped _ _ _ e read kind =>
    obtain ⟨hblock, -⟩ := hs e (Stream.mem_of_read_failed read)
    unfold ReadCall.polled
    rw [ReadResult.polled_of_kind hblock]
    exact .dropped read kind (by cases e.kind <;> rfl)
  | wait read => exact .wait read

theorem calls_polled {r : Reader} (hs : r.stream.Earnest) (times : List Time) :
    r.calls .polled times = (r.calls .blocking times).map ReadCall.polled := by
  induction times generalizing r with
  | nil => rfl
  | cons now later ih =>
    have hcourse := read_course .blocking r now
    have hread : r.read .polled now = (r.read .blocking now).polled := (hcourse.polled hs).read_eq
    have hrest := ih (hcourse.earnest hs)
    unfold calls
    rw [hread, List.map_cons]
    exact congrArg (_ :: ·) hrest

/-! ## §3. Calls that are given up. -/

/-- What a call comes to over a stream without waits, for a reader whose framer
is the same but for capture times: the same, or what the next call comes to. -/
inductive Awaited (now' : Time) (g : Framer) (s : Stream) (call : ReadCall) : Prop where
  | through {whole : ReadCall} (result : call.result ≠ .pending)
      (course : Course .polled now' g s.awaited whole)
      (outcome : whole.result.outcome = call.result.outcome)
      (framer : whole.reader.framer.Alike call.reader.framer)
      (stream : whole.reader.stream = call.reader.stream.awaited)
  | givenUp {h : Framer} (result : call.result = .pending) (alike : h.Alike call.reader.framer)
      (next : ∀ whole, Course .polled now' h call.reader.stream.awaited whole →
        ∃ longer, Course .polled now' g s.awaited longer ∧ longer.result = whole.result
          ∧ longer.reader = whole.reader)

/-- A read that does not end the call comes before it. -/
theorem Awaited.before {h : Framer} {t : Stream} {requests requests' : Array Nat}
    {events events' : Array FramingEvent} (hawaited : Awaited now' h t call)
    (hnext : ∀ {whole : ReadCall}, Course .polled now' h t.awaited whole →
      Course .polled now' g s.awaited (whole.onto requests' events')) :
    Awaited now' g s (call.onto requests events) := by
  cases hawaited with
  | through result course outcome framer stream =>
    exact .through result (hnext course) outcome framer stream
  | givenUp result alike next =>
    refine .givenUp result alike ?_
    intro whole hwhole
    obtain ⟨longer, hlonger, hresult, hreader⟩ := next whole hwhole
    exact ⟨_, hnext hlonger, hresult, hreader⟩

/-- Framers that differ in capture times only find the same telegram whole. -/
theorem push_telegram_alike (h : g.Alike f) (bytes : List UInt8) (now now' : Time) :
    (g.push bytes now').2.telegram.map Telegram.frame
      = (f.push bytes now).2.telegram.map Telegram.frame := by
  have hframes := (Framer.push_alike h bytes now' now).frames
  cases hg : (g.push bytes now').2.telegram <;> cases hf : (f.push bytes now).2.telegram <;>
    simp_all [Framer.Step.fed]

/-- So they do in giving up. -/
theorem abort_alike (h : g.Alike f) : (g.abort 0).framer.Alike (f.abort 0).framer := by
  unfold Framer.abort
  rw [h.stage]
  split
  next => exact h
  next => exact (Framer.Fed.Alike.drop h (.shortRead 0 f.wanted)).framer

/-- **A call that was given up is taken up by the next one.** -/
theorem Course.awaited (h : Course .polled now f s call) (alike : g.Alike f) :
    Awaited now' g s call := by
  -- the reads are those of the framer that is the same but for capture times
  have hgiven : ∀ {f g : Framer} {s t : Stream} {reading : Reading}, g.Alike f →
      s.read f.wanted = (reading, t) → reading ≠ .waiting →
      s.awaited.read g.wanted = (reading, t.awaited) := by
    intro f g s t reading hfg hread hreading
    rw [hfg.wanted]
    exact Stream.read_awaited hread hreading
  induction h generalizing g with
  | closed read =>
    refine .through ReadResult.noConfusion (.closed (hgiven alike read Reading.noConfusion)) ?_
      (abort_alike alike) rfl
    have hpending : g.pending = _ := congrArg Array.size alike.bytes
    show Outcome.failed (.closed g.pending) = _
    rw [hpending]
    rfl
  | @telegram f _ _ b bs telegram read whole =>
    have hpush := Framer.push_alike alike (b :: bs) now' now
    have htelegram := push_telegram_alike alike (b :: bs) now now'
    rw [whole] at htelegram
    obtain ⟨t, ht, hframe⟩ := Option.map_eq_some_iff.mp htelegram
    exact .through ReadResult.noConfusion (.telegram (hgiven alike read Reading.noConfusion) ht)
      (congrArg Outcome.frame hframe) hpush.framer rfl
  | @more f _ _ b bs _ read none _ ih =>
    have hpush := Framer.push_alike alike (b :: bs) now' now
    have htelegram := push_telegram_alike alike (b :: bs) now now'
    rw [none] at htelegram
    have hnone := Option.map_eq_none_iff.mp htelegram
    exact (ih hpush.framer).before (.more (hgiven alike read Reading.noConfusion) hnone)
  | retry read kind _ ih =>
    exact (ih alike).before (.retry (hgiven alike read Reading.noConfusion) kind)
  | kept _ _ keeps => cases keeps
  | dropped read kind keeps =>
    exact .through ReadResult.noConfusion
      (.dropped (hgiven alike read Reading.noConfusion) kind keeps) rfl (abort_alike alike) rfl
  | wait read =>
    refine .givenUp rfl alike ?_
    intro whole hwhole
    exact ⟨whole, hwhole.congr (Stream.read_awaited_of_waiting read g.wanted).symm, rfl, rfl⟩

/-- What the calls return. -/
def returned (mode : ReadMode) (r : Reader) (times : List Time) : List Outcome :=
  (r.calls mode times).map (·.result.outcome)

theorem returned_cons (mode : ReadMode) (r : Reader) (now : Time) (later : List Time) :
    r.returned mode (now :: later)
      = (r.read mode now).result.outcome :: (r.read mode now).reader.returned mode later :=
  rfl

/-- Two readers whose next call returns the same and leaves the same return the
same altogether. -/
theorem returned_congr {r r' : Reader} {now : Time}
    (hresult : (r.read mode now).result.outcome = (r'.read mode now).result.outcome)
    (hreader : (r.read mode now).reader = (r'.read mode now).reader) (later : List Time) :
    r.returned mode (now :: later) = r'.returned mode (now :: later) := by
  rw [returned_cons, returned_cons, hresult, hreader]

/-- **Polls that are given up lose nothing**: but for them, what is returned is
what is returned over the stream without its waits. -/
theorem returned_awaited {r : Reader} (alike : g.Alike r.framer) (times later : List Time)
    (hlength : later.length = ((r.returned .polled times).filter (· ≠ .pending)).length) :
    (r.returned .polled times).filter (· ≠ .pending)
      = Reader.returned .polled ⟨g, r.stream.awaited⟩ later := by
  induction times generalizing r g later with
  | nil =>
    obtain rfl := List.length_eq_zero_iff.mp hlength
    rfl
  | cons now times ih =>
    have hawaited : ∀ now', Awaited now' g r.stream (r.read .polled now) :=
      fun now' => (read_course .polled r now).awaited alike
    rw [returned_cons] at hlength ⊢
    by_cases hpending : (r.read .polled now).result = .pending
    · -- the call that was given up is not counted, and the next one takes it up
      have hskip : ∀ rest : List Outcome,
          ((r.read .polled now).result.outcome :: rest).filter (· ≠ .pending)
            = rest.filter (· ≠ .pending) := by
        intro rest
        rw [hpending]
        rfl
      rw [hskip] at hlength ⊢
      cases later with
      | nil => exact List.length_eq_zero_iff.mp hlength.symm
      | cons now' later =>
        cases hawaited now' with
        | through result => exact absurd hpending result
        | @givenUp h _ alike' next =>
          obtain ⟨longer, hlonger, hresult, hreader⟩ :=
            next _ (read_course .polled ⟨h, (r.read .polled now).reader.stream.awaited⟩ now')
          have hread : Reader.read .polled ⟨g, r.stream.awaited⟩ now' = longer := hlonger.read_eq
          rw [ih alike' _ hlength]
          rw [← hread] at hresult hreader
          exact returned_congr (congrArg ReadResult.outcome hresult.symm) hreader.symm later
    · have hkeep : ∀ rest : List Outcome,
          ((r.read .polled now).result.outcome :: rest).filter (· ≠ .pending)
            = (r.read .polled now).result.outcome :: rest.filter (· ≠ .pending) := by
        intro rest
        apply List.filter_cons_of_pos
        cases hresult : (r.read .polled now).result with
        | telegram => rfl
        | failed => rfl
        | pending => exact absurd hresult hpending
      rw [hkeep] at hlength ⊢
      cases later with
      | nil => cases hlength
      | cons now' later =>
        cases hawaited now' with
        | givenUp result => exact absurd result hpending
        | @through whole _ course outcome framer stream =>
          have hread : Reader.read .polled ⟨g, r.stream.awaited⟩ now' = whole := course.read_eq
          rw [returned_cons, hread, outcome, ih framer later (Nat.succ.inj hlength), ← stream]

/-! ## §4. The agreement. -/

/-- **Polls that are given up are calls of a blocking reader.**  Over a stream
whose failures are all in earnest the calls agree one for one, each being made
at the same time: in what they return, but that a wait is `pending`, in the
framer with its counts and the rest of the stream that they leave, in the sizes
that they ask for and in what they note.  And no byte is lost, repeated or put
in another place by giving up polls: but for `pending` they return what is
returned over the same stream without its waits. -/
theorem polled_calls (maxBlock : Nat) (script : Stream) (earnest : script.Earnest)
    (times : List Time) :
    let first : Reader := ⟨.new maxBlock, script⟩
    first.calls .polled times = (first.calls .blocking times).map ReadCall.polled
      ∧ ∀ later : List Time,
        later.length = ((first.returned .polled times).filter (· ≠ .pending)).length →
        (first.returned .polled times).filter (· ≠ .pending)
          = Reader.returned .polled ⟨.new maxBlock, script.awaited⟩ later := by
  intro first
  refine ⟨calls_polled earnest times, ?_⟩
  intro later hlength
  exact returned_awaited (.refl _) times later hlength

/-- Waits inside a header and a line, an end of the stream inside a block, an
interruption and a failure. -/
theorem polled_calls_waits :
    let script : Stream := [.data [0x24], .wait, .data [0x40, 1], .wait,
      .failure ⟨.interrupted, none⟩, .endOfStream, .data [0x24, 0x47], .wait, .data [0x50, 0x0D],
      .wait, .data [0x0A, 0x24], .failure ⟨.brokenPipe, none⟩]
    let first : Reader := ⟨.new 100, script⟩
    let polls := [.pending, .pending, .failed (.closed 3), .pending, .pending,
      .frame (.nmea, [0x24, 0x47, 0x50, 0x0D, 0x0A]), .failed (.io ⟨.brokenPipe, none⟩)]
    script.Earnest
      ∧ first.returned .polled [1, 2, 3, 4, 5, 6, 7] = polls
      ∧ first.calls .polled [1, 2, 3, 4, 5, 6, 7]
        = (first.calls .blocking [1, 2, 3, 4, 5, 6, 7]).map ReadCall.polled
      ∧ Reader.returned .polled ⟨.new 100, script.awaited⟩ [3, 6, 7]
        = polls.filter (· ≠ .pending) := by
  intro script first polls
  have earnest : script.Earnest := by
    intro e he
    have hkind : e = ⟨.interrupted, none⟩ ∨ e = ⟨.brokenPipe, none⟩ := by simpa [script] using he
    rcases hkind with rfl | rfl <;> decide
  have hpolls : first.returned .polled [1, 2, 3, 4, 5, 6, 7] = polls := by decide +kernel
  obtain ⟨hcalls, hwaits⟩ := polled_calls 100 script earnest [1, 2, 3, 4, 5, 6, 7]
  have hlater := hwaits [3, 6, 7]
  rw [hpolls] at hlater
  exact ⟨earnest, hpolls, hcalls, (hlater rfl).symm⟩

end Reader

end ReceiverLink
