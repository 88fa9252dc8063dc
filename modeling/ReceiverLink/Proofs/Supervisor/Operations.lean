/-
  ReceiverLink.Proofs.Supervisor.Operations
  ────────────────────────────────
  **What a transfer can do, one operation at a time.**

  A transfer settles in turns, a turn has two halves, and a half has a budget.
  None of this matters for what happens: `Reads` and `Writes` list the single
  operations of the two halves with their conditions, and everything that a
  transfer does is a sequence of them.  Whatever each operation keeps is kept
  by settling.

  Main statements:
    * `Reads.keepsOutbound`, `Writes.keepsInbound` — a half leaves the other
      half's side of the transfer and of the link alone;
    * `settle_works` — settling is a sequence of operations.
-/
import Mathlib.Logic.Relation
import ReceiverLink.Supervisor.Transfer

namespace ReceiverLink

/-! ## §1. Whose doing a happening is. -/

/-- Who brings a happening about. -/
inductive Side where
  /-- The reading half of a transfer. -/
  | reading
  /-- The writing half, about an item of the queue. -/
  | writing
  /-- The writing half, when its link is over. -/
  | closing
  /-- Whoever puts an item in the queue. -/
  | queueing
  /-- The calls, and the watchdog. -/
  | steering
  deriving Repr, DecidableEq

/-- It is the doing of a transfer. -/
def Side.ofTransfer : Side → Bool
  | .reading => true
  | .writing => true
  | .closing => true
  | .queueing => false
  | .steering => false

def Happening.side : Happening → Side
  | .consumed _ _ => .reading
  | .framing _ => .reading
  | .handover _ => .reading
  | .closedByPeer _ => .reading
  | .readFailed _ => .reading
  | .linkFinished _ => .reading
  | .taken _ _ => .writing
  | .sent _ _ => .writing
  | .written _ => .writing
  | .writeFailed _ _ => .writing
  | .closingFailed _ => .closing
  | .writeCutOff => .closing
  | .queued _ => .queueing
  | .emptyCommand => .steering
  | .ping => .steering
  | .attempt => .steering
  | .connectFailed _ _ => .steering
  | .connected _ _ => .steering
  | .connectionLost _ => .steering
  | .reconnectFailed _ _ => .steering
  | .reconnected _ => .steering
  | .replayFinished _ => .steering
  | .stateChanged _ _ => .steering
  | .endpointUpdated _ => .steering
  | .stopped => .steering
  | .watchdogFailed => .steering
  | .transferFailed => .steering

/-- The link on which bytes move, or for which an item is taken. -/
def Happening.link? : Happening → Option Nat
  | .taken n _ => some n
  | .sent n _ => some n
  | .consumed n _ => some n
  | _ => none

/-- If this is about bytes or an item on a link, it is the given link. -/
def Happening.On (number : Nat) (h : Happening) : Prop :=
  ∀ n, h.link? = some n → n = number

theorem Happening.On.of_none {h : Happening} (hnone : h.link? = none) (number : Nat) :
    h.On number := by
  intro n hn
  rw [hnone] at hn
  cases hn

/-- What fits of some bytes is a part at their front. -/
theorem Pipe.fitting_eq_take (p : Pipe) (bytes : List UInt8) :
    p.fitting bytes = bytes.take (p.fitting bytes).length := by
  unfold fitting
  cases p.capacity with
  | none => exact List.take_length.symm
  | some c =>
    rw [List.length_take]
    simp

namespace Working

/-! ## §2. Operations. -/

/-- The failure prepared for the next read has been met. -/
def forgetReadFault (w : Working) : Working :=
  { w with link := { w.link with faults := { w.link.faults with read := none } } }

/-- The failure prepared for the next write has been met. -/
def forgetWriteFault (w : Working) : Working :=
  { w with link := { w.link with faults := { w.link.faults with write := none } } }

/-- The first item of the queue is taken to be written. -/
def takeItem (w : Working) (item : Outbound) (queue : List Outbound) : Working :=
  ({ w with queue := queue }.update ({ · with writer := .writing item item.payload })).note
    (.taken w.transfer.number item)

/-- The writing half ends in the middle of an item. -/
def cutWriter (w : Working) : Working :=
  w.update ({ · with writer := .closed false })

/-- An operation of the reading half. -/
inductive Reads (w : Working) : Working → Prop where
  | stop (reading : w.transfer.reading = true) (ended : w.transfer.ended = true) :
      Reads w w.stopReading
  /-- An interrupted read is repeated. -/
  | retry (reading : w.transfer.reading = true) (going : w.transfer.ended = false)
      (fault : w.link.faults.read = some .interrupted) : Reads w w.forgetReadFault
  | fail {kind : IoKind} (reading : w.transfer.reading = true)
      (going : w.transfer.ended = false) (fault : w.link.faults.read = some kind)
      (other : kind ≠ .interrupted) : Reads w (w.forgetReadFault.failReading kind)
  | close (reading : w.transfer.reading = true) (going : w.transfer.ended = false)
      (fault : w.link.faults.read = none) (atEnd : w.link.inbound.atEnd = true) :
      Reads w w.endReading
  | take (reading : w.transfer.reading = true) (going : w.transfer.ended = false)
      (fault : w.link.faults.read = none) (come : w.link.inbound.buffer ≠ []) :
      Reads w w.readOnce

/-- An operation of the writing half. -/
inductive Writes (w : Working) : Working → Prop where
  | shut (ended : w.transfer.ended = true) (idle : w.transfer.writer = .idle) :
      Writes w w.shutWriter
  | cut {item : Outbound} {rest : List UInt8} (ended : w.transfer.ended = true)
      (writing : w.transfer.writer = .writing item rest) : Writes w w.cutWriter
  | take {item : Outbound} {queue : List Outbound} (idle : w.transfer.writer = .idle)
      (first : w.queue = item :: queue) : Writes w (w.takeItem item queue)
  | fail {item : Outbound} {rest : List UInt8} {kind : IoKind}
      (writing : w.transfer.writer = .writing item rest)
      (fault : w.link.faults.write = some kind) :
      Writes w (w.forgetWriteFault.failWriting item kind)
  | refuse {item : Outbound} {rest : List UInt8}
      (writing : w.transfer.writer = .writing item rest)
      (broken : w.link.outbound.isBroken = true) : Writes w (w.failWriting item .brokenPipe)
  | send {item : Outbound} {rest : List UInt8} (writing : w.transfer.writer = .writing item rest)
      (whole : w.link.outbound.isBroken = false) (room : w.link.outbound.isFull = false) :
      Writes w (w.sendOnce item rest)

/-- One operation of a transfer. -/
inductive Operates (w : Working) : Working → Prop where
  /-- A turn begins or becomes due. -/
  | arrange (due : Bool) (turns : Nat) :
      Operates w (w.update ({ · with due := due, turns := turns }))
  | read {w' : Working} (reads : Reads w w') : Operates w w'
  | write {w' : Working} (writes : Writes w w') : Operates w w'
  | finish (done : w.transfer.isDone = true) : Operates w w.finish

/-- Operations one after the other. -/
abbrev Works : Working → Working → Prop :=
  Relation.ReflTransGen Operates

/-! ## §3. The record. -/

/-- What has been recorded, in order. -/
def happenings (w : Working) : List Happening :=
  w.record.toList

/-- Add several happenings to the record. -/
def add (w : Working) (hs : List Happening) : Working :=
  { w with record := w.record ++ hs.toArray }

@[simp] theorem happenings_add (w : Working) (hs : List Happening) :
    (w.add hs).happenings = w.happenings ++ hs := by
  simp [add, happenings]

theorem note_eq_add (w : Working) (h : Happening) : w.note h = w.add [h] := by
  simp [note, add]

/-- What framing one step adds to the record. -/
def framed (consumer : Bool) (step : Framer.Step) : List Happening :=
  step.events.map .framing ++ (step.telegram.map fun t => .handover (.push consumer t)).toList

/-- It is what the framer notes, and the telegram that is handed over. -/
theorem eq_of_mem_framed {consumer : Bool} {step : Framer.Step} {h : Happening}
    (hmem : h ∈ framed consumer step) :
    (∃ event, h = .framing event) ∨ ∃ t, h = .handover (.push consumer t) := by
  unfold framed at hmem
  rcases List.mem_append.mp hmem with hevent | htelegram
  · obtain ⟨event, -, rfl⟩ := List.mem_map.mp hevent
    exact .inl ⟨event, rfl⟩
  · obtain ⟨t, -, rfl⟩ : ∃ t, t ∈ step.telegram ∧ Happening.handover (.push consumer t) = h := by
      simpa using htelegram
    exact .inr ⟨t, rfl⟩

theorem side_framed {consumer : Bool} {step : Framer.Step} {h : Happening}
    (hmem : h ∈ framed consumer step) : h.side = .reading ∧ h.link? = none := by
  rcases eq_of_mem_framed hmem with ⟨event, rfl⟩ | ⟨t, rfl⟩
  · exact ⟨rfl, rfl⟩
  · exact ⟨rfl, rfl⟩

/-- Framing changes the framer and adds to the record. -/
theorem frame_eq (w : Working) (step : Framer.Step) :
    w.frame step = (w.update ({ · with framer := step.framer })).add (framed w.consumer step) := by
  unfold frame framed
  cases step.telegram with
  | none => simp [update, add]
  | some t => simp [update, add, note, Array.push_append]

/-- What is recorded when reading ends early, for the given reason. -/
def dropped (w : Working) (reason : Happening) : List Happening :=
  framed w.consumer (w.transfer.framer.abort 0)
    ++ [reason, .linkFinished (w.transfer.framer.abort 0).framer.stats]

/-- What is recorded when bytes are read. -/
def received (w : Working) (bytes : List UInt8) : List Happening :=
  .consumed w.transfer.number bytes :: framed w.consumer (w.transfer.framer.push bytes w.now).2

/-- The bytes that the framer takes next. -/
def incoming (w : Working) : List UInt8 :=
  w.link.inbound.buffer.take w.transfer.framer.wanted

theorem stopReading_eq (w : Working) :
    w.stopReading = (w.update ({ · with reading := false, ended := true })).add
      [.linkFinished w.transfer.framer.stats] := by
  unfold stopReading
  rw [note_eq_add]

/-- Reading ends early, and with it the telegram in progress. -/
theorem drop_eq (w : Working) (reason : Happening) :
    ((w.frame (w.transfer.framer.abort 0)).note reason).stopReading
      = (w.update ({ · with
          framer := (w.transfer.framer.abort 0).framer, reading := false, ended := true })).add
        (w.dropped reason) := by
  rw [stopReading_eq, note_eq_add, frame_eq]
  show ((((w.update _).add _).add _).update _).add _ = _
  simp only [update, add, dropped, Array.append_assoc]
  simp

theorem readOnce_eq (w : Working) :
    w.readOnce = (({ w with link := { w.link with
        inbound := { w.link.inbound with
          buffer := w.link.inbound.buffer.drop w.transfer.framer.wanted } } }).update
        ({ · with framer := (w.transfer.framer.push w.incoming w.now).2.framer })).add
      (w.received w.incoming) := by
  unfold readOnce
  dsimp only
  rw [note_eq_add, frame_eq]
  simp only [update, add, received, incoming, Pipe.take, Array.append_assoc]
  simp

/-- What is recorded when the link is let go. -/
def cutOff (w : Working) : List Happening :=
  if w.transfer.writer = .closed false then [.writeCutOff] else []

theorem eq_of_mem_cutOff {w : Working} {h : Happening} (hmem : h ∈ w.cutOff) :
    h = .writeCutOff := by
  unfold cutOff at hmem
  split at hmem
  next => exact List.mem_singleton.mp hmem
  next => cases hmem

theorem finish_eq (w : Working) :
    w.finish = { w with link := w.link.release }.add w.cutOff := by
  unfold Working.finish cutOff
  dsimp only
  split
  next => exact note_eq_add _ _
  next => simp [add]

/-! ## §4. What a half leaves alone. -/

/-- Nothing of the writing half's side changes, and nothing of its doing is
recorded. -/
structure KeepsOutbound (w w' : Working) : Prop where
  number : w'.transfer.number = w.transfer.number
  failed : w'.transfer.failed = w.transfer.failed
  receiver : w'.link.receiverOpen = w.link.receiverOpen
  consumer : w'.consumer = w.consumer
  now : w'.now = w.now
  writer : w'.transfer.writer = w.transfer.writer
  queue : w'.queue = w.queue
  outbound : w'.link.outbound = w.link.outbound
  record : ∃ hs, w'.happenings = w.happenings ++ hs ∧ ∀ h ∈ hs,
    h.side = .reading ∧ h.On w.transfer.number

/-- Nothing of the reading half's side changes, and nothing of its doing is
recorded. -/
structure KeepsInbound (w w' : Working) : Prop where
  transfer : { w'.transfer with writer := w.transfer.writer } = w.transfer
  inbound : w'.link.inbound = w.link.inbound
  fault : w'.link.faults.read = w.link.faults.read
  receiver : w'.link.receiverOpen = w.link.receiverOpen
  consumer : w'.consumer = w.consumer
  now : w'.now = w.now
  record : ∃ hs, w'.happenings = w.happenings ++ hs
    ∧ ∀ h ∈ hs, (h.side = .writing ∨ h.side = .closing) ∧ h.On w.transfer.number

theorem side_dropped {w : Working} {reason h : Happening}
    (hreason : reason.side = .reading ∧ reason.link? = none) (hmem : h ∈ w.dropped reason) :
    h.side = .reading ∧ h.link? = none := by
  unfold dropped at hmem
  rcases List.mem_append.mp hmem with hframed | hlast
  · exact side_framed hframed
  · rcases List.mem_cons.mp hlast with rfl | hlast
    · exact hreason
    · rw [List.mem_singleton.mp hlast]
      exact ⟨rfl, rfl⟩

theorem Reads.keepsOutbound {w w' : Working} (h : Reads w w') : KeepsOutbound w w' := by
  cases h with
  | stop =>
    rw [stopReading_eq]
    refine ⟨rfl, rfl, rfl, rfl, rfl, rfl, rfl, rfl, [.linkFinished w.transfer.framer.stats], ?_, ?_⟩
    · exact happenings_add _ _
    · simp [Happening.side, Happening.On, Happening.link?]
  | retry => exact ⟨rfl, rfl, rfl, rfl, rfl, rfl, rfl, rfl, [], (List.append_nil _).symm, by simp⟩
  | @fail kind =>
    unfold failReading
    rw [drop_eq]
    refine ⟨rfl, rfl, rfl, rfl, rfl, rfl, rfl, rfl, w.dropped (.readFailed (.io ⟨kind, none⟩)),
      ?_, ?_⟩
    · exact happenings_add _ _
    · intro h hmem
      have hdropped := side_dropped ⟨rfl, rfl⟩ hmem
      exact ⟨hdropped.1, .of_none hdropped.2 _⟩
  | close =>
    unfold endReading
    dsimp only
    rw [drop_eq]
    refine ⟨rfl, rfl, rfl, rfl, rfl, rfl, rfl, rfl,
      w.dropped (.closedByPeer w.transfer.framer.pending), ?_, ?_⟩
    · exact happenings_add _ _
    · intro h hmem
      have hdropped := side_dropped ⟨rfl, rfl⟩ hmem
      exact ⟨hdropped.1, .of_none hdropped.2 _⟩
  | take =>
    rw [readOnce_eq]
    refine ⟨rfl, rfl, rfl, rfl, rfl, rfl, rfl, rfl, w.received w.incoming, ?_, ?_⟩
    · exact happenings_add _ _
    · intro h hmem
      rcases List.mem_cons.mp hmem with rfl | hframed
      · exact ⟨rfl, fun n hn => (Option.some.inj hn).symm⟩
      · have hside := side_framed hframed
        exact ⟨hside.1, .of_none hside.2 _⟩

/-- Losing an item changes the writer only. -/
theorem failWriting_eq (w : Working) (item : Outbound) (kind : IoKind) :
    w.failWriting item kind
      = (w.update ({ · with writer := .idle })).add [.writeFailed item ⟨kind, none⟩] := by
  unfold failWriting
  rw [note_eq_add]

theorem takeItem_eq (w : Working) (item : Outbound) (queue : List Outbound) :
    w.takeItem item queue
      = ({ w with queue := queue }.update ({ · with writer := .writing item item.payload })).add
        [.taken w.transfer.number item] := by
  unfold takeItem
  rw [note_eq_add]

/-- A part of an item is put on the link. -/
def putPart (w : Working) (item : Outbound) (rest : List UInt8) : Working :=
  ({ w with link := { w.link with
      outbound := w.link.outbound.put (w.link.outbound.fitting rest) } }.update
    ({ · with
      writer := .writing item (rest.drop (w.link.outbound.fitting rest).length) })).add
    [.sent w.transfer.number (w.link.outbound.fitting rest)]

/-- With the last part of an item the item is flushed. -/
theorem sendOnce_eq (w : Working) (item : Outbound) (rest : List UInt8) :
    w.sendOnce item rest
      = if rest.drop (w.link.outbound.fitting rest).length = []
        then (w.putPart item rest).flush item else w.putPart item rest := by
  unfold sendOnce
  dsimp only
  rw [note_eq_add]
  rfl

/-- Flushing an item writes it, or loses it to the failure prepared. -/
theorem flush_eq (w : Working) (item : Outbound) :
    (∃ kind, w.flush item = ({ w with link := { w.link with
          faults := { w.link.faults with flush := none } } }.update
          ({ · with writer := .idle })).add [.writeFailed item ⟨kind, none⟩])
      ∨ w.flush item = (w.update ({ · with writer := .idle })).add [.written item] := by
  unfold flush
  split
  next kind hfault =>
    refine .inl ⟨kind, ?_⟩
    rw [failWriting_eq]
  next =>
    refine .inr ?_
    rw [note_eq_add]

namespace KeepsInbound

theorem number {a b : Working} (h : KeepsInbound a b) :
    b.transfer.number = a.transfer.number := by
  have hnumber := congrArg Transfer.number h.transfer
  exact hnumber

theorem reading {a b : Working} (h : KeepsInbound a b) :
    b.transfer.reading = a.transfer.reading := by
  have hreading := congrArg Transfer.reading h.transfer
  exact hreading

theorem ended {a b : Working} (h : KeepsInbound a b) : b.transfer.ended = a.transfer.ended := by
  have hended := congrArg Transfer.ended h.transfer
  exact hended

theorem failed {a b : Working} (h : KeepsInbound a b) :
    b.transfer.failed = a.transfer.failed := by
  have hfailed := congrArg Transfer.failed h.transfer
  exact hfailed

theorem due {a b : Working} (h : KeepsInbound a b) : b.transfer.due = a.transfer.due := by
  have hdue := congrArg Transfer.due h.transfer
  exact hdue

theorem framer {a b : Working} (h : KeepsInbound a b) :
    b.transfer.framer = a.transfer.framer := by
  have hframer := congrArg Transfer.framer h.transfer
  exact hframer

theorem trans {a b c : Working} (hab : KeepsInbound a b) (hbc : KeepsInbound b c) :
    KeepsInbound a c := by
  obtain ⟨hs, hrecord, hside⟩ := hab.record
  obtain ⟨hs', hrecord', hside'⟩ := hbc.record
  refine ⟨?_, hbc.inbound.trans hab.inbound, hbc.fault.trans hab.fault,
    hbc.receiver.trans hab.receiver, hbc.consumer.trans hab.consumer, hbc.now.trans hab.now,
    hs ++ hs', ?_, ?_⟩
  · rw [← hab.transfer, ← hbc.transfer]
  · rw [hrecord', hrecord, List.append_assoc]
  · intro h hmem
    rcases List.mem_append.mp hmem with hfirst | hlast
    · exact hside h hfirst
    · rw [← hab.number]
      exact hside' h hlast

theorem flush (w : Working) (item : Outbound) : KeepsInbound w (w.flush item) := by
  rcases w.flush_eq item with ⟨kind, hflush⟩ | hflush
  · rw [hflush]
    refine ⟨rfl, rfl, rfl, rfl, rfl, rfl, [.writeFailed item ⟨kind, none⟩], ?_, ?_⟩
    · exact happenings_add _ _
    · simp [Happening.side, Happening.On, Happening.link?]
  · rw [hflush]
    refine ⟨rfl, rfl, rfl, rfl, rfl, rfl, [.written item], ?_, ?_⟩
    · exact happenings_add _ _
    · simp [Happening.side, Happening.On, Happening.link?]

theorem putPart (w : Working) (item : Outbound) (rest : List UInt8) :
    KeepsInbound w (w.putPart item rest) := by
  refine ⟨rfl, rfl, rfl, rfl, rfl, rfl, _, happenings_add _ _, ?_⟩
  simp [Happening.side, Happening.On, Happening.link?]

theorem sendOnce (w : Working) (item : Outbound) (rest : List UInt8) :
    KeepsInbound w (w.sendOnce item rest) := by
  rw [sendOnce_eq]
  split
  next => exact (KeepsInbound.putPart w item rest).trans (.flush _ item)
  next => exact .putPart w item rest

theorem shutWriter (w : Working) : KeepsInbound w w.shutWriter := by
  unfold Working.shutWriter
  dsimp only
  split
  next kind hfault =>
    rw [note_eq_add]
    refine ⟨rfl, rfl, rfl, rfl, rfl, rfl, [.closingFailed ⟨kind, none⟩], ?_, ?_⟩
    · exact happenings_add _ _
    · simp [Happening.side, Happening.On, Happening.link?]
  next => exact ⟨rfl, rfl, rfl, rfl, rfl, rfl, [], (List.append_nil _).symm, by simp⟩

end KeepsInbound

theorem Writes.keepsInbound {w w' : Working} (h : Writes w w') : KeepsInbound w w' := by
  cases h with
  | shut => exact .shutWriter w
  | cut => exact ⟨rfl, rfl, rfl, rfl, rfl, rfl, [], (List.append_nil _).symm, by simp⟩
  | @take item queue =>
    rw [takeItem_eq]
    refine ⟨rfl, rfl, rfl, rfl, rfl, rfl, _, happenings_add _ _, ?_⟩
    simp [Happening.side, Happening.On, Happening.link?]
  | @fail item rest kind =>
    rw [failWriting_eq]
    refine ⟨rfl, rfl, rfl, rfl, rfl, rfl, [.writeFailed item ⟨kind, none⟩], ?_, ?_⟩
    · exact happenings_add _ _
    · simp [Happening.side, Happening.On, Happening.link?]
  | refuse =>
    rw [failWriting_eq]
    refine ⟨rfl, rfl, rfl, rfl, rfl, rfl, _, happenings_add _ _, ?_⟩
    simp [Happening.side, Happening.On, Happening.link?]
  | @send item rest => exact .sendOnce w item rest

/-- What no operation changes. -/
structure Same (w w' : Working) : Prop where
  number : w'.transfer.number = w.transfer.number
  failed : w'.transfer.failed = w.transfer.failed
  receiver : w'.link.receiverOpen = w.link.receiverOpen
  consumer : w'.consumer = w.consumer
  now : w'.now = w.now

theorem Operates.same {w w' : Working} (h : Operates w w') : Same w w' := by
  cases h with
  | arrange => exact ⟨rfl, rfl, rfl, rfl, rfl⟩
  | read reads =>
    have h := reads.keepsOutbound
    exact ⟨h.number, h.failed, h.receiver, h.consumer, h.now⟩
  | write writes =>
    have h := writes.keepsInbound
    exact ⟨h.number, h.failed, h.receiver, h.consumer, h.now⟩
  | finish =>
    rw [finish_eq]
    exact ⟨rfl, rfl, rfl, rfl, rfl⟩

/-- An operation adds to the record, about its own link. -/
theorem Operates.record {w w' : Working} (h : Operates w w') :
    ∃ hs, w'.happenings = w.happenings ++ hs
      ∧ ∀ h ∈ hs, h.On w.transfer.number ∧ h.side.ofTransfer = true := by
  cases h with
  | arrange => exact ⟨[], (List.append_nil _).symm, by simp⟩
  | read reads =>
    obtain ⟨hs, hrecord, hside⟩ := reads.keepsOutbound.record
    refine ⟨hs, hrecord, ?_⟩
    intro h hmem
    obtain ⟨hreading, hon⟩ := hside h hmem
    refine ⟨hon, ?_⟩
    rw [hreading]
    rfl
  | write writes =>
    obtain ⟨hs, hrecord, hside⟩ := writes.keepsInbound.record
    refine ⟨hs, hrecord, ?_⟩
    intro h hmem
    obtain ⟨hwriting, hon⟩ := hside h hmem
    refine ⟨hon, ?_⟩
    rcases hwriting with hwriting | hclosing
    · rw [hwriting]
      rfl
    · rw [hclosing]
      rfl
  | finish =>
    rw [finish_eq]
    refine ⟨w.cutOff, happenings_add _ _, ?_⟩
    intro h hmem
    rw [eq_of_mem_cutOff hmem]
    exact ⟨.of_none rfl _, rfl⟩

theorem Works.same {w w' : Working} (h : Works w w') : Same w w' := by
  induction h with
  | refl => exact ⟨rfl, rfl, rfl, rfl, rfl⟩
  | tail _ hop ih =>
    have hsame := hop.same
    exact ⟨hsame.number.trans ih.number, hsame.failed.trans ih.failed,
      hsame.receiver.trans ih.receiver, hsame.consumer.trans ih.consumer, hsame.now.trans ih.now⟩

/-- What has been recorded stays. -/
theorem Works.record {w w' : Working} (h : Works w w') :
    ∃ hs, w'.happenings = w.happenings ++ hs
      ∧ ∀ h ∈ hs, h.On w.transfer.number ∧ h.side.ofTransfer = true := by
  induction h with
  | refl => exact ⟨[], (List.append_nil _).symm, by simp⟩
  | @tail b c hworks hop ih =>
    obtain ⟨hs, hrecord, hon⟩ := ih
    obtain ⟨hs', hrecord', hon'⟩ := hop.record
    -- the number of the link is the same throughout
    rw [(Works.same hworks).number] at hon'
    refine ⟨hs ++ hs', ?_, ?_⟩
    · rw [hrecord', hrecord, List.append_assoc]
    · intro h hmem
      rcases List.mem_append.mp hmem with hfirst | hlast
      · exact hon h hfirst
      · exact hon' h hlast

/-- The writing half takes the first item of the queue at most. -/
theorem Writes.queue {w w' : Working} (h : Writes w w') :
    w'.queue = w.queue ∨ ∃ item, w.queue = item :: w'.queue := by
  have hflush : ∀ (v : Working) (item : Outbound), (v.flush item).queue = v.queue := by
    intro v item
    rcases v.flush_eq item with ⟨kind, hflush⟩ | hflush <;> rw [hflush] <;> rfl
  cases h with
  | shut =>
    unfold shutWriter
    dsimp only
    split <;> exact .inl rfl
  | cut => exact .inl rfl
  | @take item queue _ first => exact .inr ⟨item, first⟩
  | fail => exact .inl rfl
  | refuse => exact .inl rfl
  | send =>
    rw [sendOnce_eq]
    split
    next => exact .inl (hflush _ _)
    next => exact .inl rfl

theorem Operates.queue {w w' : Working} (h : Operates w w') :
    w'.queue = w.queue ∨ ∃ item, w.queue = item :: w'.queue := by
  cases h with
  | arrange => exact .inl rfl
  | read reads => exact .inl reads.keepsOutbound.queue
  | write writes => exact writes.queue
  | finish =>
    rw [finish_eq]
    exact .inl rfl

/-- Items leave the queue at its front only. -/
theorem Works.queue {w w' : Working} (h : Works w w') : w'.queue.IsSuffix w.queue := by
  induction h with
  | refl => exact List.suffix_refl _
  | tail _ hop ih =>
    refine List.IsSuffix.trans ?_ ih
    rcases hop.queue with hsame | ⟨item, hfirst⟩
    · exact ⟨[], hsame⟩
    · rw [hfirst]
      exact List.suffix_cons _ _

/-! ## §5. Turns are made of operations. -/

variable {w : Working}

/-- Operations of one half, between which a turn may become due. -/
abbrev Half (op : Working → Working → Prop) : Working → Working → Prop :=
  Relation.ReflTransGen fun a b => op a b ∨ b = a.postpone

theorem postpone_operates (w : Working) : Operates w w.postpone := by
  have h : Operates w (w.update ({ · with due := true, turns := w.transfer.turns })) :=
    .arrange true w.transfer.turns
  exact h

theorem Half.works {op : Working → Working → Prop} {w' : Working} (h : Half op w w')
    (hop : ∀ {a b : Working}, op a b → Operates a b) : Works w w' := by
  refine Relation.ReflTransGen.mono ?_ _ _ h
  rintro a b (hab | rfl)
  · exact hop hab
  · exact a.postpone_operates

theorem readOn_half (n : Nat) (reading : w.transfer.reading = true)
    (going : w.transfer.ended = false) (fault : w.link.faults.read = none) :
    Half Reads w (w.readOn n).1 := by
  -- reading on neither ends the link nor prepares a failure
  induction n generalizing w with
  | zero => exact .single (.inr rfl)
  | succ n ih =>
    unfold readOn
    split
    next hend => exact .single (.inl (.close reading going fault hend))
    next =>
      split
      next => exact .refl
      next hcome =>
        have hread : Reads w w.readOnce := by
          refine .take reading going fault ?_
          intro hnil
          exact hcome (by rw [hnil]; rfl)
        refine .head (.inl hread) (ih ?_ ?_ ?_)
        · rw [readOnce_eq]
          exact reading
        · rw [readOnce_eq]
          exact going
        · rw [readOnce_eq]
          exact fault

theorem readTurn_half (budget : Nat) (w : Working) :
    Half Reads w (w.readTurn budget).1 := by
  unfold readTurn
  split
  next => exact .refl
  next hreading =>
    have reading : w.transfer.reading = true := by simpa using hreading
    split
    next hended => exact .single (.inl (.stop reading hended))
    next hended =>
      have going : w.transfer.ended = false := by simpa using hended
      split
      next hfault => exact readOn_half budget reading going hfault
      next kind hfault =>
        dsimp only
        split
        next hkind =>
          subst hkind
          have hretry : Reads w w.forgetReadFault := .retry reading going hfault
          exact .head (.inl hretry) (readOn_half budget reading going rfl)
        next hkind => exact .single (.inl (.fail reading going hfault hkind))

theorem writeOn_half (n : Nat) (w : Working) : Half Writes w (w.writeOn n).1 := by
  -- the cases are those of the writer and then of the pipe, as `writeOn` has them
  induction n generalizing w with
  | zero => exact .single (.inr rfl)
  | succ n ih =>
    unfold writeOn
    split
    next => exact .refl
    next hidle =>
      split
      next => exact .refl
      next item queue hqueue =>
        have htake : Writes w (w.takeItem item queue) := .take hidle hqueue
        exact .head (.inl htake) (ih _)
    next item rest hwriting =>
      split
      next kind hfault =>
        have hfail : Writes w (w.forgetWriteFault.failWriting item kind) := .fail hwriting hfault
        exact .head (.inl hfail) (ih _)
      next hfault =>
        split
        next hbroken =>
          have hrefuse : Writes w (w.failWriting item .brokenPipe) := .refuse hwriting hbroken
          exact .head (.inl hrefuse) (ih _)
        next hbroken =>
          split
          next => exact .refl
          next hfull =>
            have hsend : Writes w (w.sendOnce item rest) :=
              .send hwriting (by simpa using hbroken) (by simpa using hfull)
            exact .head (.inl hsend) (ih _)

theorem writeTurn_half (budget : Nat) (w : Working) :
    Half Writes w (w.writeTurn budget).1 := by
  unfold writeTurn
  split
  next hended =>
    split
    next hidle => exact .single (.inl (.shut hended hidle))
    next hwriting => exact .single (.inl (.cut hended hwriting))
    next => exact .refl
  next => exact writeOn_half budget w

theorem turn_works (w : Working) : Works w w.turn := by
  have hbegin : Operates w
      (w.update ({ · with due := false, turns := w.transfer.turns + 1 })) :=
    .arrange false (w.transfer.turns + 1)
  refine .head hbegin ?_
  unfold turn
  dsimp only
  have hread : ∀ (budget : Nat) (a : Working), Works a (a.readTurn budget).1 :=
    fun budget a => (readTurn_half budget a).works .read
  have hwrite : ∀ (budget : Nat) (a : Working), Works a (a.writeTurn budget).1 :=
    fun budget a => (writeTurn_half budget a).works .write
  -- the halves act in one order or the other, and then the link may be let go
  have hend : ∀ {a b : Working}, Works a b →
      Works a (if b.transfer.isDone then b.finish else b) := by
    intro a b hab
    split
    next hdone => exact hab.tail (.finish hdone)
    next => exact hab
  split
  next => exact hend ((hread _ _).trans (hwrite _ _))
  next => exact hend ((hwrite _ _).trans (hread _ _))

theorem settleFor_works (n : Nat) (w : Working) : Works w (w.settleFor n) := by
  induction n generalizing w with
  | zero => exact .refl
  | succ n ih =>
    unfold settleFor
    split
    next => exact w.turn_works.trans (ih _)
    next => exact .refl

/-- **Settling is a sequence of operations.** -/
theorem settle_works (w : Working) : Works w w.settle := by
  unfold settle
  split
  next => exact settleFor_works _ _
  next => exact .refl

end Working

end ReceiverLink
