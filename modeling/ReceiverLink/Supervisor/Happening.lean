/-
  ReceiverLink.Supervisor.Happening
  ────────────────────────────────
  **The record of a supervised link.**

  Everything that a supervisor does is recorded as a happening, in order: what
  it reads and writes, the telegrams it hands over, the attempts it makes and
  the states it publishes.  Some happenings are shown in the log (`line?`),
  the others are what an observer of the link, of the queue or of the consumer
  sees.
-/
import ReceiverLink.Handover
import ReceiverLink.Reader
import ReceiverLink.Supervisor.Basic

namespace ReceiverLink

/-- One thing that happened to a supervisor. -/
inductive Happening where
  /-- An attempt to connect begins. -/
  | attempt
  /-- An attempt by the caller failed. -/
  | connectFailed (endpoint : String) (error : TransportError)
  /-- The caller's attempt succeeded. -/
  | connected (endpoint : String) (kind : LinkKind)
  /-- A link lost is noticed. -/
  | connectionLost (endpoint : String)
  /-- An attempt to reconnect failed. -/
  | reconnectFailed (attempt : Nat) (error : TransportError)
  /-- An attempt to reconnect succeeded. -/
  | reconnected (endpoint : String)
  /-- The end of a recording is noticed. -/
  | replayFinished (endpoint : String)
  /-- A new state is published. -/
  | stateChanged (old new : Lifecycle)
  /-- The endpoint was changed. -/
  | endpointUpdated (endpoint : Endpoint)
  /-- An empty command was refused. -/
  | emptyCommand
  /-- Shutting down is complete. -/
  | stopped
  /-- The watchdog is found to have failed. -/
  | watchdogFailed
  /-- The transfer is found to have failed. -/
  | transferFailed
  /-- The watchdog has queued a keepalive. -/
  | ping
  /-- Something was put at the end of the queue. -/
  | queued (item : Outbound)
  /-- The first item of the queue was taken to be written on a link. -/
  | taken (link : Nat) (item : Outbound)
  /-- Bytes were put on a link. -/
  | sent (link : Nat) (bytes : List UInt8)
  /-- An item was written. -/
  | written (item : Outbound)
  /-- An item could not be written, or not wholly. -/
  | writeFailed (item : Outbound) (error : IoError)
  /-- Bytes were read from a link. -/
  | consumed (link : Nat) (bytes : List UInt8)
  /-- Framing noted something. -/
  | framing (event : FramingEvent)
  /-- A telegram was pushed to the consumer. -/
  | handover (outcome : Handover)
  /-- The receiver closed the link in the middle of so many bytes. -/
  | closedByPeer (pending : Nat)
  /-- Reading failed. -/
  | readFailed (error : ReadError)
  /-- The link is over; these are its counts. -/
  | linkFinished (stats : FramingStats)
  /-- The writing half could not be shut down. -/
  | closingFailed (error : IoError)
  /-- The link ended in the middle of a write. -/
  | writeCutOff
  deriving Repr, DecidableEq

namespace Happening

/-- A command as the log shows it: read as text, without blanks at its end. -/
def commandText (bytes : List UInt8) : String :=
  String.ofList (Text.trimEnd (Text.decodeLossy bytes))

/-- The entry of the log, for a happening that has one.  The words of the
runtime for a failure are left out. -/
def line? : Happening → Option LogLine
  | .connectFailed endpoint e =>
      some ⟨.error, "connect failed", [("endpoint", endpoint), ("error", e.text)]⟩
  | .connected endpoint kind =>
      some ⟨.info, "receiver connected", [("endpoint", endpoint), ("kind", kind.name)]⟩
  | .connectionLost endpoint =>
      some ⟨.error, "connection lost, reconnecting", [("endpoint", endpoint)]⟩
  | .reconnectFailed n e =>
      some ⟨.debug, "reconnect attempt failed", [("attempt", Text.decimal n), ("error", e.text)]⟩
  | .reconnected endpoint => some ⟨.info, "receiver reconnected", [("endpoint", endpoint)]⟩
  | .replayFinished endpoint => some ⟨.info, "replay finished", [("endpoint", endpoint)]⟩
  | .stateChanged old new =>
      some ⟨.debug, "supervisor state changed", [("from", old.name), ("to", new.name)]⟩
  | .endpointUpdated endpoint => some endpoint.updated
  | .emptyCommand => some ⟨.error, "refusing to send an empty command", []⟩
  | .stopped => some ⟨.info, "supervisor stopped", []⟩
  | .watchdogFailed => some ⟨.error, "watchdog task failed", []⟩
  | .transferFailed => some ⟨.error, "I/O task failed", []⟩
  | .ping => some ⟨.debug, "ping", []⟩
  | .written .keepalive => some ⟨.trace, "keepalive written", []⟩
  | .written (.command bytes) =>
      some ⟨.debug, "command written",
        [("len", Text.decimal bytes.length), ("command", commandText bytes)]⟩
  | .writeFailed item e =>
      some ⟨.error, "write failed",
        [("len", Text.decimal item.payload.length), ("error", e.text)]⟩
  | .framing event => some event.line
  | .handover outcome => outcome.line?
  | .closedByPeer pending =>
      some ⟨.info, "link closed by peer", [("pending", Text.decimal pending)]⟩
  | .readFailed e => some ⟨.error, "link read failed", [("error", e.text)]⟩
  | .linkFinished stats =>
      some ⟨.debug, "I/O task finished",
        [("delivered", Text.decimal stats.delivered), ("resyncs", Text.decimal stats.resyncs),
          ("crc_failures", Text.decimal stats.checksumFailures)]⟩
  | .closingFailed e => some ⟨.debug, "closing link failed", [("error", e.text)]⟩
  | .writeCutOff => some ⟨.debug, "link dropped with a write in flight", []⟩
  | .attempt => none
  | .queued _ => none
  | .taken _ _ => none
  | .sent _ _ => none
  | .consumed _ _ => none

/-- The telegram that the consumer receives. -/
def telegram? : Happening → Option Telegram
  | .handover outcome => outcome.telegram?
  | _ => none

end Happening

end ReceiverLink
