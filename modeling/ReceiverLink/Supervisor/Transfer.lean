/-
  ReceiverLink.Supervisor.Transfer
  ────────────────────────────────
  **Reading and writing on one link.**

  A transfer has two halves that take turns.  The reading half frames what
  comes in and hands the telegrams over; the writing half takes items from the
  front of the queue and writes each of them whole before the next.  Each half
  goes on until it has to wait, so a receiver that takes nothing in does not
  hold up framing.  The end of the inbound pipe, a failed read, or a
  cancellation ends both halves; a failed write loses the item only.

  A turn does a bounded number of operations.  A half that has used them up
  goes on in the next turn.  How many operations a turn has, and which half
  comes first in it, is up to the runtime (`Pace`).
-/
import ReceiverLink.Supervisor.Happening
import ReceiverLink.Supervisor.Link

namespace ReceiverLink

/-! ## §1. The state. -/

/-- How the halves of a transfer share its turns.  A turn is named by the
number of the link and the number of turns before it. -/
structure Pace where
  /-- The number of operations of a turn. -/
  budget : Nat → Nat → Nat
  /-- The reading half comes first in a turn. -/
  readerFirst : Nat → Nat → Bool
  /-- There is no turn without an operation. -/
  budget_pos : ∀ link turn, 0 < budget link turn

/-- The pace of a cooperative runtime: so many operations a turn, and the
halves change places after every turn. -/
def Pace.cooperative : Pace where
  budget _ _ := 128
  readerFirst _ turn := turn % 2 == 0
  budget_pos _ _ := by decide

/-- The writing half. -/
inductive Writer where
  /-- It waits for the next item. -/
  | idle
  /-- It writes an item, of which `rest` is not on the link yet. -/
  | writing (item : Outbound) (rest : List UInt8)
  /-- It has ended: between two items, or in the middle of one. -/
  | closed (clean : Bool)
  deriving Repr, DecidableEq

/-- What a transfer keeps between its turns. -/
structure Transfer where
  /-- The number of its link. -/
  number : Nat
  framer : Framer
  /-- The reading half has not ended. -/
  reading : Bool := true
  writer : Writer := .idle
  /-- The link is over. -/
  ended : Bool := false
  /-- The transfer has failed as a whole.  No operation does that to it. -/
  failed : Bool := false
  /-- The number of turns so far. -/
  turns : Nat := 0
  /-- A turn is due whatever the link holds. -/
  due : Bool := true
  deriving Repr, DecidableEq

/-- A transfer at work: with its link, the queue, and the record of what it
does.  `consumer` says that telegrams still have a consumer. -/
structure Working where
  pace : Pace
  transfer : Transfer
  link : Link
  queue : List Outbound
  consumer : Bool
  now : Time
  record : Array Happening := #[]

namespace Transfer

/-- Both halves have ended. -/
def isDone (t : Transfer) : Bool :=
  !t.reading && match t.writer with
    | .closed _ => true
    | _ => false

end Transfer

namespace Working

/-- Add to the record. -/
def note (w : Working) (h : Happening) : Working :=
  { w with record := w.record.push h }

/-- Change what the transfer keeps. -/
def update (w : Working) (f : Transfer → Transfer) : Working :=
  { w with transfer := f w.transfer }

/-- The operations of the turn are used up: another turn is due. -/
def postpone (w : Working) : Working :=
  w.update ({ · with due := true })

/-! ## §2. The reading half. -/

/-- The reading half ends, and with it the link. -/
def stopReading (w : Working) : Working :=
  (w.update ({ · with reading := false, ended := true })).note
    (.linkFinished w.transfer.framer.stats)

/-- Go on with a framer that has taken a step. -/
def frame (w : Working) (step : Framer.Step) : Working :=
  let w := w.update ({ · with framer := step.framer })
  let w := { w with record := w.record ++ (step.events.map .framing).toArray }
  match step.telegram with
  | some t => w.note (.handover (.push w.consumer t))
  | none => w

/-- Reading failed: the telegram in progress is dropped and the link is
over. -/
def failReading (w : Working) (kind : IoKind) : Working :=
  ((w.frame (w.transfer.framer.abort 0)).note (.readFailed (.io ⟨kind, none⟩))).stopReading

/-- The receiver has closed the link: the telegram in progress is dropped. -/
def endReading (w : Working) : Working :=
  let pending := w.transfer.framer.pending
  ((w.frame (w.transfer.framer.abort 0)).note (.closedByPeer pending)).stopReading

/-- Take what the framer wants out of the inbound pipe. -/
def readOnce (w : Working) : Working :=
  let (bytes, inbound) := w.link.inbound.take w.transfer.framer.wanted
  let w := { w with link := { w.link with inbound := inbound } }
  (w.note (.consumed w.transfer.number bytes)).frame (w.transfer.framer.push bytes w.now).2

/-- Read with at most so many operations; the rest of them is returned. -/
def readOn : Nat → Working → Working × Nat
  | 0, w => (w.postpone, 0)
  | n + 1, w =>
      if w.link.inbound.atEnd then (w.endReading, n)
      else if w.link.inbound.buffer.isEmpty then (w, n + 1)
      else readOn n w.readOnce

/-- The turn of the reading half. -/
def readTurn (budget : Nat) (w : Working) : Working × Nat :=
  if !w.transfer.reading then (w, budget)
  else if w.transfer.ended then (w.stopReading, budget)
  else match w.link.faults.read with
    | none => readOn budget w
    | some kind =>
        let w := { w with link := { w.link with faults := { w.link.faults with read := none } } }
        if kind = .interrupted then readOn budget w else (w.failReading kind, budget)

/-! ## §3. The writing half. -/

/-- The writing half ends between two items: it shuts its side down. -/
def shutWriter (w : Working) : Working :=
  let faults := w.link.faults
  let w := w.update ({ · with writer := .closed true })
  match faults.shutdown with
  | some kind =>
      { w with link := { w.link with faults := { faults with shutdown := none } } }.note
        (.closingFailed ⟨kind, none⟩)
  | none => { w with link := { w.link with outbound := w.link.outbound.closeWriter } }

/-- The item in progress is lost. -/
def failWriting (w : Working) (item : Outbound) (kind : IoKind) : Working :=
  (w.update ({ · with writer := .idle })).note (.writeFailed item ⟨kind, none⟩)

/-- All bytes of the item are on the link: flush them. -/
def flush (w : Working) (item : Outbound) : Working :=
  match w.link.faults.flush with
  | some kind =>
      { w with link := { w.link with faults := { w.link.faults with flush := none } } }.failWriting
        item kind
  | none => (w.update ({ · with writer := .idle })).note (.written item)

/-- Put as much of the item on the link as fits. -/
def sendOnce (w : Working) (item : Outbound) (rest : List UInt8) : Working :=
  let bytes := w.link.outbound.fitting rest
  let left := rest.drop bytes.length
  let w := { w with link := { w.link with outbound := w.link.outbound.put bytes } }
  let w := (w.update ({ · with writer := .writing item left })).note
    (.sent w.transfer.number bytes)
  if left = [] then w.flush item else w

/-- Write with at most so many operations. -/
def writeOn : Nat → Working → Working × Nat
  | 0, w => (w.postpone, 0)
  | n + 1, w =>
      match w.transfer.writer with
      | .closed _ => (w, n + 1)
      | .idle =>
          match w.queue with
          | [] => (w, n + 1)
          | item :: queue =>
              let w := { w with queue := queue }.update
                ({ · with writer := .writing item item.payload })
              writeOn n (w.note (.taken w.transfer.number item))
      | .writing item rest =>
          match w.link.faults.write with
          | some kind =>
              let faults := { w.link.faults with write := none }
              writeOn n ({ w with link := { w.link with faults := faults } }.failWriting item kind)
          | none =>
              if w.link.outbound.isBroken then writeOn n (w.failWriting item .brokenPipe)
              else if w.link.outbound.isFull then (w, n + 1)
              else writeOn n (w.sendOnce item rest)

/-- The turn of the writing half. -/
def writeTurn (budget : Nat) (w : Working) : Working × Nat :=
  if w.transfer.ended then
    match w.transfer.writer with
    | .idle => (w.shutWriter, budget)
    | .writing _ _ => (w.update ({ · with writer := .closed false }), budget)
    | .closed _ => (w, budget)
  else writeOn budget w

/-! ## §4. Turns. -/

/-- Something can be done: by the reading half, by the writing half, or
because a turn is due. -/
def isReady (w : Working) : Bool :=
  let canRead := w.transfer.reading &&
    (w.transfer.ended || w.link.faults.read.isSome || !w.link.inbound.buffer.isEmpty ||
      w.link.inbound.atEnd)
  let canWrite := match w.transfer.writer with
    | .closed _ => false
    | .idle => w.transfer.ended || !w.queue.isEmpty
    | .writing _ _ => w.transfer.ended || w.link.outbound.isBroken || !w.link.outbound.isFull
  !w.transfer.isDone && (w.transfer.due || canRead || canWrite)

/-- Both halves have ended: let go of the link. -/
def finish (w : Working) : Working :=
  let w := { w with link := w.link.release }
  if w.transfer.writer = .closed false then w.note .writeCutOff else w

/-- One turn of both halves. -/
def turn (w : Working) : Working :=
  let { number, turns, .. } := w.transfer
  let budget := w.pace.budget number turns
  let first := w.pace.readerFirst number turns
  let w := w.update ({ · with due := false, turns := turns + 1 })
  let w :=
    if first then
      let (w, left) := w.readTurn budget
      (w.writeTurn left).1
    else
      let (w, left) := w.writeTurn budget
      (w.readTurn left).1
  if w.transfer.isDone then w.finish else w

/-- A bound on the number of turns that do anything: a turn of one operation
may make another turn due. -/
def work (w : Working) : Nat :=
  let writing := match w.transfer.writer with
    | .closed _ => 0
    | .idle => 1
    | .writing _ rest => rest.length + 2
  2 * (w.link.inbound.buffer.length + w.queue.foldr (fun o n => o.payload.length + 3 + n) 0 +
    writing + (if w.transfer.reading then 2 else 0) + 1) + 1

/-- Turn after turn while something can be done, at most `n` of them. -/
def settleFor : Nat → Working → Working
  | 0, w => w
  | n + 1, w => if w.isReady then settleFor n w.turn else w

/-- Turn after turn until both halves wait or have ended. -/
def settle (w : Working) : Working :=
  if w.isReady then settleFor w.work w else w

end Working

end ReceiverLink
