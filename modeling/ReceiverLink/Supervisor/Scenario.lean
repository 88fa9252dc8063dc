/-
  ReceiverLink.Supervisor.Scenario
  ────────────────────────────────
  **Scenarios: what is done to a supervisor and its links, step by step.**

  A step is a call of the supervisor, something that the receiver does at its
  end of a link, a failure prepared on a link, an attempt added to the plan,
  or the passing of time.  Each step has an answer.  After each step all that
  can happen at that moment has happened.
-/
import ReceiverLink.Supervisor.Simulation

namespace ReceiverLink

/-! ## §1. Steps and answers. -/

/-- One step of a scenario. -/
inductive Action where
  /-- Plan an attempt that succeeds after a delay. -/
  | accept (capacity delay : Nat)
  /-- Plan an attempt that fails after a delay. -/
  | refuse (kind : IoKind) (delay : Nat)
  | connect
  | send (command : List UInt8)
  | setPort (text : String)
  | shutdown
  /-- Let go of the supervisor without waiting for anything. -/
  | drop
  /-- The consumer of the telegrams goes away. -/
  | dropConsumer
  | advance (ms : Nat)
  /-- Prepare a failure. -/
  | fail (link : Nat) (operation : LinkOperation) (kind : IoKind)
  /-- The receiver writes until all is written or nothing more fits. -/
  | receiverWrite (link : Nat) (bytes : List UInt8)
  /-- The receiver reads until nothing more comes. -/
  | receiverRead (link : Nat)
  /-- The receiver closes its side of the inbound pipe. -/
  | receiverShutdown (link : Nat)
  /-- The receiver lets go of its end. -/
  | receiverClose (link : Nat)
  deriving Repr, DecidableEq

/-- The answer to a step. -/
inductive Answer where
  | done
  | refused (error : SupervisorError)
  /-- The number of a planned link. -/
  | link (number : Nat)
  /-- So many bytes were written; the write failed after them, or not. -/
  | written (count : Nat) (broken : Bool)
  /-- Bytes were read; they were the last ones, or not. -/
  | read (bytes : List UInt8) (atEnd : Bool)
  /-- There is no such end of a link (any more). -/
  | closed
  deriving Repr, DecidableEq

/-- The answer to a call of the supervisor. -/
def Answer.ofCall : Except SupervisorError Unit → Answer
  | .ok () => .done
  | .error e => .refused e

namespace Simulation

/-! ## §2. The receiver. -/

/-- Change a link, and let everything happen that can happen then. -/
def onLink (s : Simulation) (number : Nat) (f : Link → Link) : Simulation :=
  { s with links := s.links.modify number f }.settle

/-- Write from the receiver's side, at most `n` times; `count` bytes have been
written already. -/
def receiverWrite (number : Nat) : Nat → Nat → List UInt8 → Simulation → Simulation × Answer
  | 0, count, _, s => (s, .written count false)
  | n + 1, count, bytes, s =>
      match s.links[number]? with
      | none => (s, .closed)
      | some link =>
          if !link.receiverOpen then (s, .closed)
          else if bytes = [] then (s, .written count false)
          else if link.inbound.isBroken then (s, .written count true)
          else if link.inbound.isFull then (s, .written count false)
          else
            let part := link.inbound.fitting bytes
            receiverWrite number n (count + part.length) (bytes.drop part.length)
              (s.onLink number fun l => { l with inbound := l.inbound.put part })

/-- A bound on what a transfer can still put on its link. -/
def outboundWork (s : Simulation) : Nat :=
  let writing := match s.transfer with
    | some t =>
        match t.writer with
        | .writing _ rest => rest.length
        | _ => 0
    | none => 0
  writing + s.queue.foldr (fun o n => o.payload.length + n) 0

/-- Read at the receiver's side, at most `n` times; `got` has been read
already. -/
def receiverRead (number : Nat) : Nat → List UInt8 → Simulation → Simulation × Answer
  | 0, got, s => (s, .read got false)
  | n + 1, got, s =>
      match s.links[number]? with
      | none => (s, .closed)
      | some link =>
          if !link.receiverOpen then (s, .closed)
          else if link.outbound.buffer = [] then (s, .read got link.outbound.atEnd)
          else
            receiverRead number n (got ++ link.outbound.buffer)
              (s.onLink number fun l => { l with outbound := { l.outbound with buffer := [] } })

/-- Something that the receiver does once, while its end is there. -/
def receiverDoes (s : Simulation) (number : Nat) (f : Link → Link) : Simulation × Answer :=
  match s.links[number]? with
  | some link => if link.receiverOpen then (s.onLink number f, .done) else (s, .closed)
  | none => (s, .closed)

/-! ## §3. Running a scenario. -/

/-- A call of the supervisor, while the caller still has it. -/
def call (s : Simulation) (f : Simulation → Simulation × Except SupervisorError Unit) :
    Simulation × Answer :=
  if s.released then (s, .closed)
  else
    let (s, r) := f s
    (s, .ofCall r)

/-- Do one step. -/
def step (s : Simulation) : Action → Simulation × Answer
  | .accept capacity delay =>
      let number := s.links.size
      ({ s with links := s.links.push (.new capacity)
                plan := s.plan ++ [⟨.ok number, delay⟩] }, .link number)
  | .refuse kind delay => ({ s with plan := s.plan ++ [⟨.error kind, delay⟩] }, .done)
  | .connect => s.call connect
  | .send command => s.call (send · command)
  | .setPort text => s.call (setPort · text)
  | .shutdown => s.call fun s => (s.shutdown, .ok ())
  | .drop => s.call fun s => (s.release, .ok ())
  | .dropConsumer => ({ s with consumer := false }, .done)
  | .advance ms => (s.elapse ms, .done)
  | .fail number operation kind => (s.onLink number (·.prepare operation kind), .done)
  | .receiverWrite number bytes => receiverWrite number (bytes.length + 1) 0 bytes s
  | .receiverRead number =>
      let held := match s.links[number]? with
        | some link => link.outbound.buffer.length
        | none => 0
      receiverRead number (held + s.outboundWork + 1) [] s
  | .receiverShutdown number =>
      s.receiverDoes number fun l => { l with inbound := l.inbound.closeWriter }
  | .receiverClose number => s.receiverDoes number Link.hangUp

/-- Do steps in order. -/
def run (s : Simulation) (actions : List Action) : Simulation :=
  actions.foldl (fun s a => (s.step a).1) s

end Simulation

end ReceiverLink
