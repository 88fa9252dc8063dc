/-
  ReceiverLink.Proofs.Supervisor.Circumstances
  ────────────────────────────────
  **What a run does not depend on.**

  A supervisor adds moments to what it does, and waits for moments that it has
  computed from others; when it began, and what it has recorded before, makes no
  difference to it.  Nor does it look at whether the telegrams that it hands
  over still have a consumer.  `under` changes a simulation accordingly: it is
  so many milliseconds later, with something in the record before, and perhaps
  without the consumer.  Every function of the supervisor keeps to that, so a
  whole run does.

  Main statements:
    * `Working.settle_under` — for a transfer at work;
    * `step_under` — for a step, with the same answer;
    * `run_under` — for a run.
-/
import ReceiverLink.Proofs.Framer.Delayed
import ReceiverLink.Proofs.Supervisor.Runs

namespace ReceiverLink

/-! ## §1. Circumstances. -/

/-- How much later it all is, and whether the consumer stays. -/
structure Circumstances where
  delay : Nat := 0
  stays : Bool := true
  deriving Repr, DecidableEq

variable {c : Circumstances}

/-- What becomes of the telegram under the circumstances. -/
def Handover.under (c : Circumstances) : Handover → Handover
  | .received t => .push c.stays (t.later c.delay)
  | .dropped format => .dropped format

theorem Handover.push_under (present : Bool) (t : Telegram) :
    (push present t).under c = push (present && c.stays) (t.later c.delay) := by
  cases present <;> rfl

/-- The same happening under the circumstances. -/
def Happening.under (c : Circumstances) : Happening → Happening
  | .handover outcome => .handover (outcome.under c)
  | h => h

/-- What is recorded of a step of the framer. -/
theorem Working.framed_under (consumer : Bool) (step : Framer.Step) :
    (framed consumer step).map (Happening.under c)
      = framed (consumer && c.stays) (step.later c.delay) := by
  have hevents : (step.events.map Happening.framing).map (Happening.under c)
      = step.events.map .framing := by
    rw [List.map_map]
    rfl
  unfold framed
  rw [List.map_append, hevents, Framer.Step.later]
  cases step.telegram with
  | none => rfl
  | some t => exact congrArg (fun h => _ ++ [Happening.handover h]) (Handover.push_under consumer t)

/-- The same transfer, so much later. -/
def Transfer.later (delay : Nat) (t : Transfer) : Transfer :=
  { t with framer := t.framer.later delay }

namespace Working

variable {w : Working}

/-- A transfer at work under the circumstances. -/
def under (c : Circumstances) (w : Working) : Working :=
  { w with
    transfer := w.transfer.later c.delay
    consumer := w.consumer && c.stays
    now := w.now + c.delay
    record := w.record.map (Happening.under c) }

@[simp] theorem link_under (w : Working) : (w.under c).link = w.link := rfl

@[simp] theorem queue_under (w : Working) : (w.under c).queue = w.queue := rfl

@[simp] theorem reading_under (w : Working) :
    (w.under c).transfer.reading = w.transfer.reading := rfl

@[simp] theorem ended_under (w : Working) : (w.under c).transfer.ended = w.transfer.ended := rfl

@[simp] theorem writer_under (w : Working) : (w.under c).transfer.writer = w.transfer.writer := rfl

@[simp] theorem wanted_under (w : Working) :
    (w.under c).transfer.framer.wanted = w.transfer.framer.wanted :=
  Framer.later_wanted _ _

theorem note_under (w : Working) (h : Happening) :
    (w.note h).under c = (w.under c).note (h.under c) := by
  exact congrArg (fun record => { w.under c with record }) (Array.map_push ..)

theorem add_under (w : Working) (hs : List Happening) :
    (w.add hs).under c = (w.under c).add (hs.map (Happening.under c)) := by
  have hrecord : (w.record ++ hs.toArray).map (Happening.under c)
      = w.record.map (Happening.under c) ++ (hs.map (Happening.under c)).toArray := by
    rw [Array.map_append, show hs.toArray.map (Happening.under c) = _ from List.map_toArray ..]
  exact congrArg (fun record => { w.under c with record }) hrecord

/-- A happening that is the same under all circumstances is noted. -/
theorem note_of_under {v : Working} (hv : v = w.under c) {h : Happening} (hh : h.under c = h) :
    v.note h = (w.note h).under c := by
  rw [note_under, hh, hv]

/-! ## §2. The reading half. -/

theorem stopReading_under (w : Working) : (w.under c).stopReading = w.stopReading.under c := by
  unfold stopReading
  rw [note_under, show (w.under c).transfer.framer.stats = w.transfer.framer.stats from
    Framer.later_stats _ _]
  rfl

/-- Going on with a framer that has taken the step later. -/
theorem frame_under (w : Working) (step : Framer.Step) :
    (w.under c).frame (step.later c.delay) = (w.frame step).under c := by
  rw [frame_eq, frame_eq, add_under, framed_under]
  rfl

/-- Dropping what is in progress, for whatever reason. -/
theorem drop_under (w : Working) {reason : Happening} (hreason : reason.under c = reason) :
    (((w.under c).frame ((w.under c).transfer.framer.abort 0)).note reason).stopReading
      = (((w.frame (w.transfer.framer.abort 0)).note reason).stopReading).under c := by
  rw [show (w.under c).transfer.framer.abort 0 = (w.transfer.framer.abort 0).later c.delay from
    Framer.abort_later _ _ _, frame_under, ← stopReading_under, note_under, hreason]

theorem failReading_under (w : Working) (kind : IoKind) :
    (w.under c).failReading kind = (w.failReading kind).under c :=
  w.drop_under rfl

theorem endReading_under (w : Working) : (w.under c).endReading = w.endReading.under c := by
  unfold endReading
  rw [show (w.under c).transfer.framer.pending = w.transfer.framer.pending from
    Framer.later_pending _ _]
  exact w.drop_under rfl

theorem readOnce_under (w : Working) : (w.under c).readOnce = w.readOnce.under c := by
  let part := w.link.inbound.take w.transfer.framer.wanted
  let taken : Working :=
    { w with link := { w.link with inbound := part.2 } }.note (.consumed w.transfer.number part.1)
  have hread : w.readOnce = taken.frame (w.transfer.framer.push part.1 w.now).2 := rfl
  have hlater : (w.under c).readOnce
      = (taken.under c).frame
        ((w.transfer.framer.later c.delay).push part.1 (w.now + c.delay)).2 := by
    unfold readOnce
    rw [wanted_under, note_under]
    rfl
  rw [hread, hlater, Framer.push_later, frame_under]

theorem readOn_under (n : Nat) (w : Working) :
    readOn n (w.under c) = ((readOn n w).1.under c, (readOn n w).2) := by
  induction n generalizing w with
  | zero => rfl
  | succ n ih =>
    unfold readOn
    rw [link_under, endReading_under, readOnce_under, ih]
    repeat' split
    all_goals rfl

theorem readTurn_under (budget : Nat) (w : Working) :
    readTurn budget (w.under c) = ((readTurn budget w).1.under c, (readTurn budget w).2) := by
  unfold readTurn
  rw [reading_under, ended_under, link_under, stopReading_under]
  split
  next => rfl
  next =>
    split
    next => rfl
    next =>
      split
      next => exact readOn_under budget w
      next kind _ =>
        -- the failure is forgotten before reading goes on or ends
        have hforget : { w.under c with link := { w.link with
            faults := { w.link.faults with read := none } } } = w.forgetReadFault.under c := rfl
        rw [hforget]
        dsimp only
        split
        next => exact readOn_under budget w.forgetReadFault
        next => exact congrArg (·, budget) (w.forgetReadFault.failReading_under kind)

/-! ## §3. The writing half. -/

theorem shutWriter_under (w : Working) : (w.under c).shutWriter = w.shutWriter.under c := by
  unfold shutWriter
  rw [link_under]
  dsimp only
  split
  next => refine note_of_under ?_ ?_ <;> rfl
  next => rfl

theorem failWriting_under (w : Working) (item : Outbound) (kind : IoKind) :
    (w.under c).failWriting item kind = (w.failWriting item kind).under c := by
  refine note_of_under ?_ ?_ <;> rfl

theorem flush_under (w : Working) (item : Outbound) :
    (w.under c).flush item = (w.flush item).under c := by
  unfold flush
  rw [link_under]
  split
  next kind _ =>
    exact failWriting_under { w with link := { w.link with
      faults := { w.link.faults with flush := none } } } item kind
  next => refine note_of_under ?_ ?_ <;> rfl

theorem sendOnce_under (w : Working) (item : Outbound) (rest : List UInt8) :
    (w.under c).sendOnce item rest = (w.sendOnce item rest).under c := by
  have hput : (w.under c).putPart item rest = (w.putPart item rest).under c := by
    unfold putPart
    rw [add_under]
    rfl
  rw [sendOnce_eq, sendOnce_eq, link_under, hput]
  split
  next => exact flush_under _ item
  next => rfl

theorem writeOn_under (n : Nat) (w : Working) :
    writeOn n (w.under c) = ((writeOn n w).1.under c, (writeOn n w).2) := by
  induction n generalizing w with
  | zero => rfl
  | succ n ih =>
    unfold writeOn
    rw [writer_under, queue_under, link_under]
    split
    next => rfl
    next =>
      split
      next => rfl
      next item queue _ =>
        have htake : (w.under c).takeItem item queue = (w.takeItem item queue).under c := by
          refine note_of_under ?_ ?_ <;> rfl
        exact (congrArg (writeOn n) htake).trans (ih _)
    next item rest _ =>
      split
      next kind _ =>
        have hfail : (w.under c).forgetWriteFault.failWriting item kind
            = (w.forgetWriteFault.failWriting item kind).under c :=
          w.forgetWriteFault.failWriting_under item kind
        exact (congrArg (writeOn n) hfail).trans (ih _)
      next =>
        rw [failWriting_under, sendOnce_under, ih, ih]
        repeat' split
        all_goals rfl

theorem writeTurn_under (budget : Nat) (w : Working) :
    writeTurn budget (w.under c) = ((writeTurn budget w).1.under c, (writeTurn budget w).2) := by
  unfold writeTurn
  rw [ended_under, writer_under, shutWriter_under, writeOn_under]
  repeat' split
  all_goals rfl

/-! ## §4. Turns. -/

theorem isReady_under (w : Working) : (w.under c).isReady = w.isReady := rfl

theorem work_under (w : Working) : (w.under c).work = w.work := rfl

theorem finish_under (w : Working) : (w.under c).finish = w.finish.under c := by
  have hcut : (w.under c).cutOff = w.cutOff.map (Happening.under c) := by
    unfold cutOff
    rw [writer_under]
    split <;> rfl
  rw [finish_eq, finish_eq, add_under, hcut]
  rfl

/-- After the turns of both halves, in the order that is due. -/
def halved (w : Working) : Working :=
  let begun := w.update fun t => { t with due := false, turns := w.transfer.turns + 1 }
  let budget := w.pace.budget w.transfer.number w.transfer.turns
  if w.pace.readerFirst w.transfer.number w.transfer.turns then
    (writeTurn (readTurn budget begun).2 (readTurn budget begun).1).1
  else (readTurn (writeTurn budget begun).2 (writeTurn budget begun).1).1

theorem turn_eq (w : Working) :
    w.turn = if w.halved.transfer.isDone then w.halved.finish else w.halved := rfl

theorem halved_under (w : Working) : (w.under c).halved = w.halved.under c := by
  let begun := w.update fun t => { t with due := false, turns := w.transfer.turns + 1 }
  show (if w.pace.readerFirst w.transfer.number w.transfer.turns then
      (writeTurn (readTurn _ (begun.under c)).2 (readTurn _ (begun.under c)).1).1
    else (readTurn (writeTurn _ (begun.under c)).2 (writeTurn _ (begun.under c)).1).1) = _
  rw [readTurn_under, writeTurn_under, writeTurn_under, readTurn_under]
  unfold halved
  split <;> rfl

theorem turn_under (w : Working) : (w.under c).turn = w.turn.under c := by
  rw [turn_eq, turn_eq, halved_under, finish_under,
    show (w.halved.under c).transfer.isDone = w.halved.transfer.isDone from rfl]
  split <;> rfl

theorem settleFor_under (n : Nat) (w : Working) :
    settleFor n (w.under c) = (settleFor n w).under c := by
  induction n generalizing w with
  | zero => rfl
  | succ n ih =>
    unfold settleFor
    rw [isReady_under, turn_under, ih]
    split <;> rfl

/-- **A transfer at work settles** under all circumstances alike. -/
theorem settle_under (w : Working) : (w.under c).settle = w.settle.under c := by
  unfold settle
  rw [isReady_under, work_under, settleFor_under]
  split <;> rfl

end Working

/-- The same moment to wait for, so much later. -/
def Watch.later (delay : Nat) : Watch → Watch
  | .off => .off
  | .looking moment => .looking (moment + delay)
  | .attempting number outcome moment => .attempting number outcome (moment + delay)
  | .pausing number moment => .pausing number (moment + delay)
  | .failed => .failed

theorem Watch.later_hasFailed (delay : Nat) (watch : Watch) :
    (watch.later delay).hasFailed = watch.hasFailed := by
  cases watch <;> rfl

/-- What the watchdog does when it goes is not a matter of time. -/
theorem Watch.goes_later (delay : Nat) (links : Array Link) (watch : Watch) :
    (watch.later delay).goes links = watch.goes links := by
  cases watch with
  | attempting number outcome moment => cases outcome <;> rfl
  | _ => rfl

/-- What is done to links from outside: by the receiver at its end, or by preparing a
failure. -/
def Action.isOutside : Action → Bool
  | .fail _ _ _ => true
  | .receiverWrite _ _ => true
  | .receiverRead _ => true
  | .receiverShutdown _ => true
  | .receiverClose _ => true
  | _ => false

namespace Simulation

/-! ## §5. A supervisor under other circumstances. -/

/-- The same record under the circumstances. -/
def recordUnder (c : Circumstances) (record : Array (Nat × Happening)) :
    Array (Nat × Happening) :=
  record.map fun p => (p.1 + c.delay, p.2.under c)

/-- A simulation under the circumstances, with something in its record before. -/
def under (c : Circumstances) (past : Array (Nat × Happening)) (s : Simulation) : Simulation :=
  { s with
    clock := s.clock + c.delay
    watch := s.watch.later c.delay
    transfer := s.transfer.map (Transfer.later c.delay)
    consumer := s.consumer && c.stays
    record := past ++ recordUnder c s.record }

variable {past : Array (Nat × Happening)} {s : Simulation}

theorem note_under (s : Simulation) (h : Happening) :
    (s.note h).under c past = (s.under c past).note (h.under c) := by
  have hrecord : past ++ recordUnder c (s.record.push (s.clock, h))
      = (past ++ recordUnder c s.record).push (s.clock + c.delay, h.under c) := by
    unfold recordUnder
    rw [Array.map_push, Array.append_push]
  exact congrArg (fun record => { s.under c past with record }) hrecord

/-- A happening that is the same under all circumstances is noted. -/
theorem note_of_under {t : Simulation} (ht : t = s.under c past) {h : Happening}
    (hh : h.under c = h) : t.note h = (s.note h).under c past := by
  rw [note_under, hh, ht]

theorem publish_under (s : Simulation) (new : Lifecycle) :
    (s.under c past).publish new = (s.publish new).under c past := by
  unfold publish
  rw [show (s.under c past).lifecycle = s.lifecycle from rfl]
  split
  next => rfl
  next => refine note_of_under ?_ ?_ <;> rfl

theorem enqueue_under (s : Simulation) (item : Outbound) :
    (s.under c past).enqueue item = (s.enqueue item).under c past := by
  refine note_of_under ?_ ?_ <;> rfl

theorem working_under (s : Simulation) (t : Transfer) (link : Link) :
    (s.under c past).working (t.later c.delay) link = (s.working t link).under c := by
  have hnow : ((s.clock + c.delay : Nat) : Time) = s.clock + c.delay := Int.natCast_add ..
  have hrecord : #[].map (Happening.under c) = #[] := Array.map_empty
  show { (s.working t link).under c with now := ((s.clock + c.delay : Nat) : Time), record := #[] }
    = { (s.working t link).under c with record := #[].map (Happening.under c) }
  rw [hnow, hrecord]
  rfl

theorem absorb_under (s : Simulation) (w : Working) :
    (s.under c past).absorb (w.under c) = (s.absorb w).under c past := by
  have hrecord : past ++ recordUnder c s.record
        ++ (w.record.map (Happening.under c)).map (fun h => (s.clock + c.delay, h))
      = past ++ recordUnder c (s.record ++ w.record.map fun h => (s.clock, h)) := by
    unfold recordUnder
    rw [Array.map_append, Array.map_map, Array.map_map, Array.append_assoc]
    rfl
  have hqueue : (if (s.watch.later c.delay).hasFailed && w.transfer.isDone then [] else w.queue)
      = if s.watch.hasFailed && w.transfer.isDone then [] else w.queue := by
    rw [Watch.later_hasFailed]
  exact congrArg₂ (fun record queue => { (s.absorb w).under c past with record, queue }) hrecord
    hqueue

/-- **The transfer does what it can** under all circumstances alike. -/
theorem settle_under (s : Simulation) :
    (s.under c past).settle = s.settle.under c past := by
  cases htransfer : s.transfer with
  | none =>
    have hlater : (s.under c past).transfer = none := congrArg (Option.map _) htransfer
    rw [settle_of_none htransfer, settle_of_none hlater]
  | some t =>
    have hlater : (s.under c past).transfer = some (t.later c.delay) :=
      congrArg (Option.map _) htransfer
    cases hlink : s.links[t.number]? with
    | none => rw [settle_of_missing htransfer hlink, settle_of_missing hlater hlink]
    | some link =>
      rw [settle_of_there htransfer hlink, settle_of_there hlater hlink, working_under,
        Working.settle_under, absorb_under]

/-! ## §6. The watchdog. -/

theorem linkIsOver_under (s : Simulation) : (s.under c past).linkIsOver = s.linkIsOver := by
  unfold linkIsOver
  rw [show (s.under c past).transfer = s.transfer.map (Transfer.later c.delay) from rfl]
  cases s.transfer <;> rfl

theorem linkHasFailed_under (s : Simulation) :
    (s.under c past).linkHasFailed = s.linkHasFailed := by
  unfold linkHasFailed
  rw [show (s.under c past).transfer = s.transfer.map (Transfer.later c.delay) from rfl]
  cases s.transfer <;> rfl

theorem isForsaken_under (s : Simulation) : (s.under c past).isForsaken = s.isForsaken := by
  unfold isForsaken
  rw [linkIsOver_under, show (s.under c past).watch = s.watch.later c.delay from rfl,
    Watch.later_hasFailed]

theorem dismiss_under (s : Simulation) :
    (s.under c past).dismiss = s.dismiss.under c past :=
  congrArg (fun links => { s.dismiss.under c past with links }) (s.watch.goes_later c.delay s.links)

theorem startTransfer_under (s : Simulation) (link : Nat) :
    (s.under c past).startTransfer link = (s.startTransfer link).under c past := by
  unfold startTransfer
  rw [← settle_under]
  -- a new framer has nothing in progress, and so no moment that could be another
  have hfresh : (Framer.new s.config.maxBlock).later c.delay = .new s.config.maxBlock :=
    Framer.later_of_idle rfl
  have htransfer : (some { number := link, framer := .new s.config.maxBlock } : Option Transfer)
      = some { number := link, framer := (Framer.new s.config.maxBlock).later c.delay } := by
    rw [hfresh]
  exact congrArg (fun transfer => settle { s.under c past with transfer := transfer }) htransfer

/-- The watchdog waits so much longer from so much later. -/
theorem watch_under (s : Simulation) {watch watch' : Watch} (h : watch = watch'.later c.delay) :
    ({ s.under c past with watch := watch } : Simulation)
      = { s with watch := watch' }.under c past :=
  congrArg (fun watch : Watch => { s.under c past with watch := watch }) h

theorem looking_under (s : Simulation) (ms : Nat) :
    ({ s.under c past with watch := .looking ((s.under c past).clock + ms) } : Simulation)
      = { s with watch := .looking (s.clock + ms) }.under c past :=
  s.watch_under (congrArg Watch.looking (Nat.add_right_comm ..))

theorem firstLook_under (s : Simulation) :
    (s.under c past).firstLook = s.firstLook.later c.delay := by
  unfold firstLook
  rw [show (s.under c past).config = s.config from rfl]
  split
  next => rfl
  next => exact congrArg Watch.looking (Nat.add_right_comm ..)

theorem linkUp_under (s : Simulation) (link : Nat) :
    (s.under c past).linkUp link = (s.linkUp link).under c past := by
  unfold linkUp
  rw [← startTransfer_under, publish_under]
  exact congrArg (startTransfer · link) ((s.publish .active).watch_under s.firstLook_under)

theorem reconnected_under (s : Simulation) (link : Nat) :
    (s.under c past).reconnected link = (s.reconnected link).under c past := by
  unfold reconnected
  rw [← linkUp_under, note_under]
  rfl

theorem reconnectFailed_under (s : Simulation) (number : Nat) (kind : IoKind) (pause : Nat) :
    (s.under c past).reconnectFailed number kind pause
      = (s.reconnectFailed number kind pause).under c past := by
  have hwatch : Watch.pausing number (s.clock + c.delay + pause)
      = (Watch.pausing number (s.clock + pause)).later c.delay :=
    congrArg (Watch.pausing number) (Nat.add_right_comm ..)
  unfold reconnectFailed
  rw [← watch_under _ hwatch, note_under]
  rfl

theorem reconnect_under (s : Simulation) (number : Nat) (plan : List Attempt) :
    (s.under c past).reconnect number plan = (s.reconnect number plan).under c past := by
  induction plan generalizing s number with
  | nil =>
    unfold reconnect
    rw [← reconnectFailed_under, note_under]
    rfl
  | cons a plan ih =>
    let begun : Simulation := { s with plan := plan }.note .attempt
    have hbegun : { s.under c past with plan := plan }.note .attempt = begun.under c past := by
      refine note_of_under ?_ ?_ <;> rfl
    unfold reconnect
    dsimp only
    rw [hbegun]
    split
    next =>
      exact begun.watch_under (congrArg (Watch.attempting number a.outcome)
        (Nat.add_right_comm ..))
    next =>
      split
      next link _ => exact reconnected_under begun link
      next kind _ =>
        rw [reconnectFailed_under, ih]
        exact (apply_ite (under c past) ..).symm

theorem inspect_under (s : Simulation) : (s.under c past).inspect = s.inspect.under c past := by
  unfold inspect
  rw [linkIsOver_under]
  split
  next =>
    -- no transfer is left, so nothing of it can be later
    let free : Simulation := { s with transfer := none }
    have hfinish : ((free.under c past).note (.replayFinished s.endpoint.text)).publish .drained
        = ((free.note (.replayFinished s.endpoint.text)).publish .drained).under c past := by
      rw [← publish_under, note_under]
      rfl
    have hlose : ((free.under c past).note (.connectionLost s.endpoint.text)).publish .reconnecting
        = ((free.note (.connectionLost s.endpoint.text)).publish .reconnecting).under c past := by
      rw [← publish_under, note_under]
      rfl
    let gone := (free.under c past).note (.connectionLost s.endpoint.text)
    show (if s.replays then
        dismiss (((free.under c past).note (.replayFinished s.endpoint.text)).publish .drained)
      else (gone.publish .reconnecting).reconnect 1 (gone.publish .reconnecting).plan) = _
    rw [hfinish, hlose, dismiss_under, reconnect_under]
    exact (apply_ite (under c past) ..).symm
  next =>
    let looking : Simulation := { s with watch := .looking (s.clock + s.config.watchdog) }
    let waiting : Simulation := { s.under c past with
      watch := .looking (s.clock + c.delay + s.config.watchdog) }
    have hwaiting : waiting = looking.under c past := s.looking_under _
    have hping : ((looking.under c past).enqueue .keepalive).note .ping
        = ((looking.enqueue .keepalive).note .ping).under c past := by
      rw [enqueue_under, note_under]
      rfl
    show (if waiting.keepsAlive then ((waiting.enqueue .keepalive).note .ping).settle
      else waiting) = _
    rw [hwaiting, hping, settle_under]
    exact (apply_ite (under c past) ..).symm

theorem look_under (s : Simulation) : (s.under c past).look = s.look.under c past := by
  have hstop : ({ s.under c past with transfer := none }.note .transferFailed).publish .stopped
      = (({ s with transfer := none }.note .transferFailed).publish .stopped).under c past := by
    rw [← publish_under, note_under]
    rfl
  unfold look
  rw [linkHasFailed_under, inspect_under, hstop, dismiss_under]
  exact (apply_ite (under c past) ..).symm

/-! ## §7. Time. -/

theorem deadline?_under (s : Simulation) :
    (s.under c past).deadline? = s.deadline?.map (· + c.delay) := by
  unfold deadline?
  rw [show (s.under c past).watch = s.watch.later c.delay from rfl]
  cases s.watch <;> rfl

theorem wake_under (s : Simulation) : (s.under c past).wake = s.wake.under c past := by
  unfold wake
  rw [show (s.under c past).watch = s.watch.later c.delay from rfl]
  cases s.watch with
  | off => rfl
  | looking moment => exact s.look_under
  | attempting number outcome moment =>
    cases outcome with
    | ok link => exact s.reconnected_under link
    | error kind =>
      show (if s.config.reconnect = 0 then
          ((s.under c past).reconnectFailed number kind s.config.reconnect).reconnect (number + 1)
            ((s.under c past).reconnectFailed number kind s.config.reconnect).plan
        else (s.under c past).reconnectFailed number kind s.config.reconnect) = _
      rw [reconnectFailed_under]
      rw [reconnect_under]
      exact (apply_ite (under c past) ..).symm
  | pausing number moment => exact s.reconnect_under (number + 1) s.plan
  | failed => rfl

theorem runUntil_under (moment n : Nat) (s : Simulation) :
    runUntil (moment + c.delay) n (s.under c past) = (runUntil moment n s).under c past := by
  induction n generalizing s with
  | zero => rfl
  | succ n ih =>
    unfold runUntil
    rw [deadline?_under]
    cases s.deadline? with
    | none => rfl
    | some t =>
      have hmax : max (s.clock + c.delay) (t + c.delay) = max s.clock t + c.delay := by omega
      have hclock : ({ s.under c past with
            clock := max (s.under c past).clock (t + c.delay) } : Simulation)
          = { s with clock := max s.clock t }.under c past :=
        congrArg (fun clock => { s.under c past with clock := clock }) hmax
      dsimp only [Option.map]
      rw [hclock, wake_under, ih]
      by_cases hdue : t ≤ moment
      · rw [if_pos hdue, if_pos (Nat.add_le_add_right hdue _)]
      · rw [if_neg hdue, if_neg fun h => hdue (Nat.le_of_add_le_add_right h)]
        rfl

/-- **Time passes** under all circumstances alike. -/
theorem elapse_under (s : Simulation) (ms : Nat) :
    (s.under c past).elapse ms = (s.elapse ms).under c past := by
  unfold elapse
  rw [show (s.under c past).clock + ms = s.clock + ms + c.delay from Nat.add_right_comm ..]
  exact runUntil_under _ _ s

/-! ## §8. Calls. -/

theorem setPort_under (s : Simulation) (text : String) :
    (s.under c past).setPort text = ((s.setPort text).1.under c past, (s.setPort text).2) := by
  unfold setPort
  rw [show (s.under c past).handedOver = s.handedOver from rfl,
    show (s.under c past).endpoint = s.endpoint from rfl]
  split
  next => rfl
  next =>
    split
    next endpoint _ =>
      have hnote : { s.under c past with endpoint := endpoint }.note (.endpointUpdated endpoint)
          = ({ s with endpoint := endpoint }.note (.endpointUpdated endpoint)).under c past := by
        refine note_of_under ?_ ?_ <;> rfl
      exact congrArg (fun t => (t, Except.ok ())) hnote
    next => rfl

theorem connectFailed_under (s : Simulation) (kind : IoKind) :
    (s.under c past).connectFailed kind
      = ((s.connectFailed kind).1.under c past, (s.connectFailed kind).2) := by
  unfold connectFailed
  rw [note_under]
  rfl

theorem connect_under (s : Simulation) :
    (s.under c past).connect = (s.connect.1.under c past, s.connect.2) := by
  have hattempt : (s.under c past).note .attempt = (s.note .attempt).under c past := by
    refine note_of_under ?_ ?_ <;> rfl
  unfold connect
  rw [show (s.under c past).lifecycle = s.lifecycle from rfl,
    show (s.under c past).plan = s.plan from rfl, hattempt]
  cases s.lifecycle with
  | disconnected =>
    cases s.plan with
    | nil => exact connectFailed_under _ _
    | cons a plan =>
      -- the attempt takes as long as it takes, from whatever moment
      let begun : Simulation :=
        { s.note .attempt with plan := plan, clock := s.clock + a.delay }
      have hbegun : ({ (s.note .attempt).under c past with
            plan := plan, clock := s.clock + c.delay + a.delay } : Simulation)
          = begun.under c past :=
        congrArg (fun clock => { (s.note .attempt).under c past with plan := plan, clock := clock })
          (Nat.add_right_comm ..)
      dsimp only
      cases a.outcome with
      | error kind =>
        exact (congrArg (connectFailed · kind) hbegun).trans (begun.connectFailed_under kind)
      | ok link =>
        have hup : ∀ t : Simulation, t = begun.under c past →
            linkUp { t.note (.connected t.endpoint.text t.endpoint.kind) with handedOver := true }
              link
            = (linkUp { begun.note (.connected begun.endpoint.text begun.endpoint.kind) with
                handedOver := true } link).under c past := by
          rintro t rfl
          rw [← linkUp_under, show (begun.under c past).note _ = _ from note_of_under rfl rfl]
          rfl
        exact congrArg (fun t => (t, Except.ok ())) (hup _ hbegun)
  | _ => rfl

theorem send_under (s : Simulation) (command : List UInt8) :
    (s.under c past).send command = ((s.send command).1.under c past, (s.send command).2) := by
  unfold send
  rw [show (s.under c past).lifecycle = s.lifecycle from rfl, isForsaken_under, enqueue_under,
    settle_under]
  split
  next =>
    rw [note_under]
    rfl
  next =>
    split
    next => rfl
    next => rfl
    next => split <;> rfl

theorem ending_under (s : Simulation) : (s.under c past).ending = s.ending.under c past := by
  have htransfer : (s.transfer.map (Transfer.later c.delay)).map
        (fun t : Transfer => { t with ended := true })
      = s.ending.transfer.map (Transfer.later c.delay) := by
    show _ = (s.transfer.map _).map _
    rw [Option.map_map, Option.map_map]
    rfl
  exact congrArg (fun transfer => { s.under c past with transfer := transfer }) htransfer

theorem endLink_under (s : Simulation) : (s.under c past).endLink = s.endLink.under c past := by
  unfold endLink
  rw [ending_under, settle_under]

theorem cancel_under (s : Simulation) : (s.under c past).cancel = s.cancel.under c past := by
  unfold cancel
  rw [endLink_under, dismiss_under]

theorem stop_under (s : Simulation) : (s.under c past).stop = s.stop.under c past := by
  unfold stop
  rw [publish_under, note_under]
  rfl

theorem shutdown_under (s : Simulation) :
    (s.under c past).shutdown = s.shutdown.under c past := by
  have hfailed : (s.under c past).watch.hasFailed = s.watch.hasFailed :=
    s.watch.later_hasFailed c.delay
  have hgone : (s.under c past).dismiss.note .watchdogFailed
      = (s.dismiss.note .watchdogFailed).under c past :=
    note_of_under s.dismiss_under rfl
  unfold shutdown
  rw [hfailed, hgone, stop_under, endLink_under, cancel_under, stop_under]
  exact (apply_ite (under c past) ..).symm

theorem release_under (s : Simulation) : (s.under c past).release = s.release.under c past := by
  unfold release
  rw [cancel_under]
  rfl

/-! ## §9. Steps. -/

/-- A change of a simulation that cannot be told at the receiver's end of a
link, nor by whether the caller still has the supervisor. -/
structure Hidden (v : Simulation → Simulation) : Prop where
  released : ∀ s, (v s).released = s.released
  links : ∀ s, (v s).links = s.links
  work : ∀ s, (v s).outboundWork = s.outboundWork
  onLink : ∀ s number f, (v s).onLink number f = v (s.onLink number f)

namespace Hidden

variable {v : Simulation → Simulation}

theorem receiverWrite (h : Hidden v) (number n count : Nat) (bytes : List UInt8)
    (s : Simulation) :
    Simulation.receiverWrite number n count bytes (v s)
      = (v (Simulation.receiverWrite number n count bytes s).1,
        (Simulation.receiverWrite number n count bytes s).2) := by
  induction n generalizing count bytes s with
  | zero => rfl
  | succ n ih =>
    unfold Simulation.receiverWrite
    rw [h.links]
    split
    next => rfl
    next link _ =>
      dsimp only
      rw [h.onLink, ih]
      repeat' split
      all_goals rfl

theorem receiverRead (h : Hidden v) (number n : Nat) (got : List UInt8) (s : Simulation) :
    Simulation.receiverRead number n got (v s)
      = (v (Simulation.receiverRead number n got s).1,
        (Simulation.receiverRead number n got s).2) := by
  induction n generalizing got s with
  | zero => rfl
  | succ n ih =>
    unfold Simulation.receiverRead
    rw [h.links]
    split
    next => rfl
    next link _ =>
      dsimp only
      rw [h.onLink, ih]
      repeat' split
      all_goals rfl

theorem receiverDoes (h : Hidden v) (s : Simulation) (number : Nat) (f : Link → Link) :
    (v s).receiverDoes number f = (v (s.receiverDoes number f).1, (s.receiverDoes number f).2) := by
  unfold Simulation.receiverDoes
  rw [h.links, h.onLink]
  repeat' split
  all_goals rfl

theorem call (h : Hidden v) {f : Simulation → Simulation × Except SupervisorError Unit}
    (hf : f (v s) = (v (f s).1, (f s).2)) :
    (v s).call f = (v (s.call f).1, (s.call f).2) := by
  unfold Simulation.call
  rw [h.released, hf]
  split <;> rfl

/-- What the receiver does, and failures that are prepared, are answered alike. -/
theorem step_outside (h : Hidden v) (s : Simulation) {a : Action} (ha : a.isOutside = true) :
    (v s).step a = (v (s.step a).1, (s.step a).2) := by
  cases a with
  | fail number operation kind =>
    exact congrArg (fun t => (t, Answer.done)) (h.onLink s number (·.prepare operation kind))
  | receiverWrite number bytes => exact h.receiverWrite number _ 0 bytes s
  | receiverRead number =>
    unfold Simulation.step
    dsimp only
    rw [h.links, h.work, h.receiverRead]
  | receiverShutdown number => exact h.receiverDoes s number _
  | receiverClose number => exact h.receiverDoes s number _
  | _ => cases ha

end Hidden

theorem outboundWork_under (s : Simulation) : (s.under c past).outboundWork = s.outboundWork := by
  unfold outboundWork
  rw [show (s.under c past).transfer = s.transfer.map (Transfer.later c.delay) from rfl]
  cases s.transfer <;> rfl

theorem hidden_under : Hidden (under c past) :=
  ⟨fun _ => rfl, fun _ => rfl, outboundWork_under,
    fun s number f => settle_under { s with links := s.links.modify number f }⟩

/-- **A step** is the same one under all circumstances, with the same answer. -/
theorem step_under (s : Simulation) (a : Action) :
    (s.under c past).step a = ((s.step a).1.under c past, (s.step a).2) := by
  have hcall : ∀ {f : Simulation → Simulation × Except SupervisorError Unit},
      f (s.under c past) = ((f s).1.under c past, (f s).2) →
      (s.under c past).call f = ((s.call f).1.under c past, (s.call f).2) :=
    hidden_under.call
  cases a with
  | accept capacity delay => rfl
  | refuse kind delay => rfl
  | connect => exact hcall (f := connect) s.connect_under
  | send command => exact hcall (f := (send · command)) (s.send_under command)
  | setPort text => exact hcall (f := (setPort · text)) (s.setPort_under text)
  | shutdown =>
    exact hcall (f := fun s => (s.shutdown, .ok ()))
      (congrArg (fun t => (t, Except.ok ())) s.shutdown_under)
  | drop =>
    exact hcall (f := fun s => (s.release, .ok ()))
      (congrArg (fun t => (t, Except.ok ())) s.release_under)
  | dropConsumer => rfl
  | advance ms => exact congrArg (fun t => (t, Answer.done)) (s.elapse_under ms)
  | _ => exact hidden_under.step_outside s rfl

/-- **A run** is the same one under all circumstances. -/
theorem run_under (s : Simulation) (actions : List Action) :
    (s.under c past).run actions = (s.run actions).under c past := by
  induction actions generalizing s with
  | nil => rfl
  | cons a rest ih =>
    show ((s.under c past).step a).1.run rest = ((s.step a).1.run rest).under c past
    rw [step_under, ih]

theorem answers_under (s : Simulation) (actions : List Action) :
    (s.under c past).answers actions = s.answers actions := by
  induction actions generalizing s with
  | nil => rfl
  | cons a rest ih =>
    unfold answers
    rw [step_under, ih]

/-! ## §10. Nothing but another record. -/

/-- The record does not matter: a simulation from which what was recorded is taken away. -/
def unlogged (s : Simulation) : Simulation :=
  { s with record := #[] }

/-- Circumstances that are no others change no happening. -/
theorem recordUnder_same (record : Array (Nat × Happening)) : recordUnder {} record = record := by
  have hsame : ∀ h : Happening, h.under {} = h := by
    intro h
    cases h with
    | handover outcome =>
      cases outcome with
      | received t => exact congrArg (fun t => Happening.handover (.received t)) t.later_zero
      | dropped format => rfl
    | _ => rfl
  unfold recordUnder
  simp [hsame]

/-- Nor anything else, except that something may be recorded before. -/
theorem under_same (s : Simulation) (past : Array (Nat × Happening)) :
    s.under {} past = { s with record := past ++ s.record } := by
  have hwatch : s.watch.later 0 = s.watch := by cases s.watch <;> rfl
  have hlater : Transfer.later 0 = id := by
    funext t
    exact congrArg (fun f => { t with framer := f }) t.framer.later_zero
  unfold under
  rw [recordUnder_same, hwatch, hlater, Option.map_id, Bool.and_true]
  rfl

/-- Without its record a simulation is under the circumstances what it is without it. -/
theorem under_unlogged (s : Simulation) (before : Array (Nat × Happening)) :
    (s.under c before).unlogged = s.unlogged.under c #[] := by
  have hrecord : #[] ++ recordUnder c #[] = (#[] : Array (Nat × Happening)) := by
    unfold recordUnder
    rw [Array.map_empty, Array.empty_append]
  exact (congrArg (fun record => { s.under c before with record }) hrecord).symm

/-- Taking the record away and putting it back. -/
theorem unlogged_under (s : Simulation) : s.unlogged.under {} s.record = s := by
  rw [under_same]
  exact congrArg (fun record => { s with record }) Array.append_empty

end Simulation

end ReceiverLink
