/-
  ReceiverLink.Supervisor.Simulation
  ────────────────────────────────
  **A supervisor at work, on a clock of whole milliseconds.**

  The supervisor connects to a receiver, moves bytes over the link, and looks
  after it: its watchdog looks at the link once per interval.  While the link
  is up, each look queues a keepalive on a network link.  When it finds the
  link over, a live supervisor connects again, pausing after each attempt that
  fails, and a replaying one is drained.

  Connecting follows a plan of attempts, each of which succeeds or fails after
  a delay; without a plan it is refused at once.  Time passes only when the
  simulation is told so (`elapse`), and at each moment everything that can
  happen does happen before the clock moves on.

  Two bounds are not checked by a supervisor.  Without an interval the watchdog
  fails before its first look (`Watch.failed`), and the link goes on alone.
  Without a pause attempts that are refused at once follow each other without
  end: this is simulated as long as there is a plan (`restPause`).
-/
import ReceiverLink.Supervisor.Transfer

namespace ReceiverLink

/-! ## §1. The state. -/

/-- How an attempt to connect will go: it ends after a delay, with the link of
the given number or with a failure. -/
structure Attempt where
  outcome : Except IoKind Nat
  delay : Nat

/-- What the watchdog waits for. -/
inductive Watch where
  /-- There is no watchdog: not yet, or no more. -/
  | off
  /-- The next look at the link. -/
  | looking (moment : Nat)
  /-- The end of the attempt to reconnect with the given number. -/
  | attempting (number : Nat) (outcome : Except IoKind Nat) (moment : Nat)
  /-- The end of the pause after the attempt with the given number. -/
  | pausing (number : Nat) (moment : Nat)
  /-- Nothing any more: it has failed, since its looks would be no time apart. -/
  | failed

/-- The watchdog has failed. -/
def Watch.hasFailed : Watch → Bool
  | .failed => true
  | _ => false

/-- What becomes of the links when the watchdog is told to go, wherever it
waits. -/
def Watch.goes (links : Array Link) : Watch → Array Link
  | .off => links
  -- it does not wait for its next look, but it has waited for the transfer to end
  | .looking _ => links
  -- it gives up the attempt, and with it the link that this would have brought
  | .attempting _ (.ok link) _ => links.modify link Link.release
  | .attempting _ (.error _) _ => links
  -- it does not wait for the end of the pause
  | .pausing _ _ => links
  -- it has gone already
  | .failed => links

/-- A supervisor and all that it is connected to. -/
structure Simulation where
  /-- How the transfers share their turns. -/
  pace : Pace := .cooperative
  config : SupervisorConfig
  endpoint : Endpoint
  clock : Nat := 0
  lifecycle : Lifecycle := .disconnected
  /-- A call to connect has succeeded: the watchdog owns the endpoint. -/
  handedOver : Bool := false
  /-- The caller has let go of the supervisor. -/
  released : Bool := false
  watch : Watch := .off
  transfer : Option Transfer := none
  queue : List Outbound := []
  /-- The consumer of the telegrams is there. -/
  consumer : Bool := true
  links : Array Link := #[]
  plan : List Attempt := []
  /-- What happened, and when. -/
  record : Array (Nat × Happening) := #[]

namespace Simulation

/-- Add to the record. -/
def note (s : Simulation) (h : Happening) : Simulation :=
  { s with record := s.record.push (s.clock, h) }

/-- Publish a state. -/
def publish (s : Simulation) (new : Lifecycle) : Simulation :=
  if s.lifecycle = new then s
  else { s with lifecycle := new }.note (.stateChanged s.lifecycle new)

/-- Put something at the end of the queue. -/
def enqueue (s : Simulation) (item : Outbound) : Simulation :=
  { s with queue := s.queue ++ [item] }.note (.queued item)

/-- The input is a recording: its end is no loss of the connection. -/
def replays (s : Simulation) : Bool :=
  s.config.settings.isReplay || s.endpoint.kind == .replay

/-- The link is kept alive by writing on it. -/
def keepsAlive (s : Simulation) : Bool :=
  s.config.keepalive && s.endpoint.kind.needsKeepalive

/-! ## §2. The link. -/

/-- The link of the transfer is over, or there is none. -/
def linkIsOver (s : Simulation) : Bool :=
  match s.transfer with
  | some t => t.isDone
  | none => true

/-- The link of the transfer has failed as a whole. -/
def linkHasFailed (s : Simulation) : Bool :=
  match s.transfer with
  | some t => t.failed
  | none => false

/-- Nobody takes over what is queued: the link is over, and the watchdog has
failed. -/
def isForsaken (s : Simulation) : Bool :=
  s.watch.hasFailed && s.linkIsOver

/-- Let the transfer do all that it can do at this moment.  The queue is in its
hands, and when it is done and there is nobody to hand it over to, it is
lost. -/
def settle (s : Simulation) : Simulation :=
  match s.transfer with
  | none => s
  | some t =>
      match s.links[t.number]? with
      | none => s
      | some link =>
          let w := Working.settle
            { pace := s.pace, transfer := t, link := link, queue := s.queue,
              consumer := s.consumer, now := s.clock }
          { s with
            transfer := some w.transfer
            links := s.links.setIfInBounds t.number w.link
            queue := if s.watch.hasFailed && w.transfer.isDone then [] else w.queue
            record := s.record ++ w.record.map fun h => (s.clock, h) }

/-- Start to move bytes over a link. -/
def startTransfer (s : Simulation) (link : Nat) : Simulation :=
  { s with transfer := some { number := link, framer := .new s.config.maxBlock } }.settle

/-! ## §3. The watchdog. -/

/-- The watchdog goes, and what is still queued is lost. -/
def dismiss (s : Simulation) : Simulation :=
  { s with links := s.watch.goes s.links, watch := .off, queue := [] }

/-- The first look at a link that is up now: one interval from now.  Without an
interval there is none. -/
def firstLook (s : Simulation) : Watch :=
  if s.config.watchdog = 0 then .failed else .looking (s.clock + s.config.watchdog)

/-- The link is up: the watchdog looks at it from now on. -/
def linkUp (s : Simulation) (link : Nat) : Simulation :=
  { s.publish .active with watch := s.firstLook }.startTransfer link

/-- An attempt to reconnect has succeeded. -/
def reconnected (s : Simulation) (link : Nat) : Simulation :=
  (s.note (.reconnected s.endpoint.text)).linkUp link

/-- The refusal of an attempt. -/
def refusal (s : Simulation) (kind : IoKind) : TransportError :=
  .connect s.endpoint.text ⟨kind, none⟩

/-- An attempt to reconnect has failed: pause. -/
def reconnectFailed (s : Simulation) (number : Nat) (kind : IoKind) (pause : Nat) : Simulation :=
  { s.note (.reconnectFailed number (s.refusal kind)) with
    watch := .pausing number (s.clock + pause) }

/-- The pause after an attempt that nothing was planned for.  Attempts without
a plan and without a pause would never let time pass, so the pause is one
millisecond at least: without a plan, what is simulated is a supervisor that
pauses. -/
def restPause (s : Simulation) : Nat :=
  max 1 s.config.reconnect

/-- Try to reconnect, beginning with the attempt of the given number and the
plan as given.  A pause of no length ends at once. -/
def reconnect (s : Simulation) (number : Nat) : List Attempt → Simulation
  | [] =>
      { s with plan := [] }.note .attempt |>.reconnectFailed number .connectionRefused
        s.restPause
  | a :: plan =>
      let s := { s with plan := plan }.note .attempt
      if 0 < a.delay then { s with watch := .attempting number a.outcome (s.clock + a.delay) }
      else match a.outcome with
        | .ok link => s.reconnected link
        | .error kind =>
            let s := s.reconnectFailed number kind s.config.reconnect
            if s.config.reconnect = 0 then s.reconnect (number + 1) plan else s

/-- The watchdog finds the link up, or it finds a transfer that is over and has
given the queue back. -/
def inspect (s : Simulation) : Simulation :=
  if s.linkIsOver then
    let s := { s with transfer := none }
    if s.replays then
      ((s.note (.replayFinished s.endpoint.text)).publish .drained).dismiss
    else
      let s := (s.note (.connectionLost s.endpoint.text)).publish .reconnecting
      s.reconnect 1 s.plan
  else
    let s := { s with watch := .looking (s.clock + s.config.watchdog) }
    if s.keepsAlive then ((s.enqueue .keepalive).note .ping).settle else s

/-- The watchdog looks at the link.  A transfer that has failed gives nothing
back, and the supervisor stops. -/
def look (s : Simulation) : Simulation :=
  if s.linkHasFailed then
    (({ s with transfer := none }.note .transferFailed).publish .stopped).dismiss
  else s.inspect

/-- The time at which the watchdog acts next. -/
def deadline? (s : Simulation) : Option Nat :=
  match s.watch with
  | .off => none
  | .looking t => some t
  | .attempting _ _ t => some t
  | .pausing _ t => some t
  | .failed => none

/-- The watchdog acts: what it has waited for is there. -/
def wake (s : Simulation) : Simulation :=
  match s.watch with
  | .off => s
  | .looking _ => s.look
  | .attempting _ (.ok link) _ => s.reconnected link
  | .attempting number (.error kind) _ =>
      let s := s.reconnectFailed number kind s.config.reconnect
      if s.config.reconnect = 0 then s.reconnect (number + 1) s.plan else s
  | .pausing number _ => s.reconnect (number + 1) s.plan
  | .failed => s

/-! ## §4. Time. -/

/-- Let time pass until the given moment; at most `n` times the watchdog has
something to do. -/
def runUntil (moment : Nat) : Nat → Simulation → Simulation
  | 0, s => { s with clock := moment }
  | n + 1, s =>
      match s.deadline? with
      | none => { s with clock := moment }
      | some t =>
          if t ≤ moment then runUntil moment n { s with clock := max s.clock t }.wake
          else { s with clock := moment }

/-- Let so many milliseconds pass.  The watchdog acts at most once in each of
them. -/
def elapse (s : Simulation) (ms : Nat) : Simulation :=
  runUntil (s.clock + ms) ms s

/-! ## §5. Calls. -/

/-- Change the endpoint: possible until a call to connect has succeeded. -/
def setPort (s : Simulation) (text : String) : Simulation × Except SupervisorError Unit :=
  if s.handedOver then (s, .error .alreadyConnected)
  else match s.endpoint.setPort text with
    | .ok endpoint => ({ s with endpoint := endpoint }.note (.endpointUpdated endpoint), .ok ())
    | .error e => (s, .error (.transport e))

/-- A call to connect has failed. -/
def connectFailed (s : Simulation) (kind : IoKind) : Simulation × Except SupervisorError Unit :=
  let e := s.refusal kind
  (s.note (.connectFailed s.endpoint.text e), .error (.transport e))

/-- Open the link, which takes as long as the attempt takes.  A failure leaves
everything as it was. -/
def connect (s : Simulation) : Simulation × Except SupervisorError Unit :=
  match s.lifecycle with
  | .active => (s, .error .alreadyConnected)
  | .reconnecting => (s, .error .alreadyConnected)
  | .drained => (s, .error .drained)
  | .stopped => (s, .error .stopped)
  | .disconnected =>
      match s.plan with
      | [] => (s.note .attempt).connectFailed .connectionRefused
      | a :: plan =>
          let s := { s.note .attempt with plan := plan, clock := s.clock + a.delay }
          match a.outcome with
          | .error kind => s.connectFailed kind
          | .ok link =>
              let s := s.note (.connected s.endpoint.text s.endpoint.kind)
              let s := { s with handedOver := true }
              (s.linkUp link, .ok ())

/-- Queue a command for the receiver.  Commands are written in order, as soon
as there is a link.  A queue that is lost takes none. -/
def send (s : Simulation) (command : List UInt8) : Simulation × Except SupervisorError Unit :=
  if command = [] then (s.note .emptyCommand, .error .emptyCommand)
  else match s.lifecycle with
    | .stopped => (s, .error .stopped)
    | .drained => (s, .error .drained)
    | _ =>
        if s.isForsaken then (s, .error .stopped)
        else ((s.enqueue (.command command)).settle, .ok ())

/-- The link is to end. -/
def ending (s : Simulation) : Simulation :=
  { s with transfer := s.transfer.map fun t : Transfer => { t with ended := true } }

/-- The link is to end, and it does. -/
def endLink (s : Simulation) : Simulation :=
  s.ending.settle

/-- End everything that runs: the link is closed and the watchdog goes. -/
def cancel (s : Simulation) : Simulation :=
  s.endLink.dismiss

/-- The supervisor has stopped. -/
def stop (s : Simulation) : Simulation :=
  (s.publish .stopped).note .stopped

/-- Shut the supervisor down.  The watchdog waits for the link to end, and the
caller for the watchdog; if it has failed, nobody waits for the link. -/
def shutdown (s : Simulation) : Simulation :=
  if s.watch.hasFailed then (s.dismiss.note .watchdogFailed).stop.endLink
  else s.cancel.stop

/-- Let go of the supervisor without waiting for anything: no state is
published any more. -/
def release (s : Simulation) : Simulation :=
  { s.cancel with released := true }

end Simulation

end ReceiverLink
