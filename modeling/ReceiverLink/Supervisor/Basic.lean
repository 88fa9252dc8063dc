/-
  ReceiverLink.Supervisor.Basic
  ────────────────────────────────
  **What a supervisor is asked for, and what it answers.**

  A supervisor keeps a link to a receiver alive.  This module holds the states
  of its life, its configuration, the things that it writes, and the errors of
  its calls.
-/
import ReceiverLink.Endpoint.Basic
import ReceiverLink.Framer.Basic
import ReceiverLink.Settings.Json

namespace ReceiverLink

/-! ## §1. The life of a supervisor. -/

/-- The states of a supervisor's life. -/
inductive Lifecycle where
  /-- Not connected yet. -/
  | disconnected
  /-- The link is up. -/
  | active
  /-- The link is lost; connecting is tried again and again. -/
  | reconnecting
  /-- The recording has come to its end. -/
  | drained
  /-- Shut down. -/
  | stopped
  deriving Repr, DecidableEq

/-- The name of a state. -/
def Lifecycle.name : Lifecycle → String
  | .disconnected => "disconnected"
  | .active => "active"
  | .reconnecting => "reconnecting"
  | .drained => "drained"
  | .stopped => "stopped"

/-- Nothing more will come. -/
def Lifecycle.isTerminal : Lifecycle → Bool
  | .drained => true
  | .stopped => true
  | _ => false

/-! ## §2. Configuration. -/

/-- How a supervisor works.  Times are in milliseconds. -/
structure SupervisorConfig where
  /-- How often the watchdog looks at the link.  Without an interval it never
  does. -/
  watchdog : Nat := 1000
  /-- The pause after an attempt to reconnect that failed. -/
  reconnect : Nat := 1000
  /-- Whether network links are kept alive by writing on them. -/
  keepalive : Bool := true
  /-- The greatest block length accepted. -/
  maxBlock : Nat := Block.maxSize
  settings : Settings := {}

/-! ## §3. What is written. -/

/-- One thing to be written to the receiver. -/
inductive Outbound where
  | command (bytes : List UInt8)
  | keepalive
  deriving Repr, DecidableEq

/-- What keeps a network link alive: one space, which receivers ignore. -/
def keepaliveBytes : List UInt8 := [0x20]

/-- The bytes that are written for it. -/
def Outbound.payload : Outbound → List UInt8
  | .command bytes => bytes
  | .keepalive => keepaliveBytes

/-! ## §4. Errors. -/

/-- Why a call of a supervisor is refused. -/
inductive SupervisorError where
  | transport (error : TransportError)
  | emptyCommand
  | alreadyConnected
  | drained
  | stopped
  deriving Repr, DecidableEq

/-- The error in words. -/
def SupervisorError.text : SupervisorError → String
  | .transport e => "transport error: " ++ e.text
  | .emptyCommand => "refusing to send an empty command"
  | .alreadyConnected => "supervisor is already connected"
  | .drained => "replay finished"
  | .stopped => "supervisor stopped"

end ReceiverLink
