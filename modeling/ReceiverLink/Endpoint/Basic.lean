/-
  ReceiverLink.Endpoint.Basic
  ────────────────────────────────
  **Where a receiver is reached.**

  A receiver is reached over the network, over a serial line, or in a
  recording of an earlier session.  Each kind of endpoint can be told another
  place by a text (`setPort`): a network endpoint takes `host:port`, split at
  the last colon, or a port number alone; a serial line takes a device; a
  recording takes a path.  A text that is refused changes nothing.
-/
import ReceiverLink.IoError
import ReceiverLink.Log
import ReceiverLink.Text.Blank
import ReceiverLink.Text.Duration
import ReceiverLink.Text.Quoted

namespace ReceiverLink

/-! ## §1. Kinds of links. -/

/-- The ways to reach a receiver. -/
inductive LinkKind where
  | tcp
  | serial
  | replay
  deriving Repr, DecidableEq

/-- The name of a kind. -/
def LinkKind.name : LinkKind → String
  | .tcp => "tcp"
  | .serial => "serial"
  | .replay => "replay"

/-- Whether links of this kind are kept alive by writing on them. -/
def LinkKind.needsKeepalive : LinkKind → Bool
  | .tcp => true
  | _ => false

/-! ## §2. Errors. -/

/-- Why a receiver cannot be reached. -/
inductive TransportError where
  | connect (endpoint : String) (source : IoError)
  | connectTimeout (endpoint : String) (timeout : Text.Duration)
  | serialPort (port source : String)
  | openRecording (path : String) (source : IoError)
  | invalidPort (text : String)
  | io (source : IoError)
  deriving Repr, DecidableEq

/-- The error in words. -/
def TransportError.text : TransportError → String
  | .connect endpoint source => "failed to connect to " ++ endpoint ++ ": " ++ source.text
  | .connectTimeout endpoint timeout =>
      "connect to " ++ endpoint ++ " timed out after " ++ timeout.text
  | .serialPort port source => "failed to open serial port " ++ port ++ ": " ++ source
  | .openRecording path source => "failed to open replay file " ++ path ++ ": " ++ source.text
  | .invalidPort text => "invalid port identifier '" ++ text ++ "'"
  | .io source => "transport I/O error: " ++ source.text

/-! ## §3. Network endpoints. -/

/-- A host, a port, and the longest time that connecting may take. -/
structure TcpEndpoint where
  host : String := "192.168.3.1"
  port : UInt16 := 28784
  connectTimeout : Text.Duration := .ofMillis 5000
  deriving Repr, DecidableEq

namespace TcpEndpoint

/-- The parts before and after the last colon of a text, if it has one. -/
def splitLastColon (s : List Char) : Option (List Char × List Char) :=
  let back := s.reverse
  match back.dropWhile (· ≠ ':') with
  | [] => none
  | _ :: front => some (front.reverse, (back.takeWhile (· ≠ ':')).reverse)

/-- A port number: an optional `+` and ASCII digits, at most 65535. -/
def port? (s : List Char) : Option UInt16 :=
  (Text.natural? 65535 s).map Nat.toUInt16

/-- The endpoint as text. -/
def text (e : TcpEndpoint) : String :=
  e.host ++ ":" ++ Text.decimal e.port.toNat

/-- Change the port, and the host if the text names one. -/
def setPort (e : TcpEndpoint) (text : String) : Except TransportError TcpEndpoint :=
  let trimmed := Text.trim text.toList
  let refused : Except TransportError TcpEndpoint := .error (.invalidPort (String.ofList trimmed))
  match splitLastColon trimmed with
  | some (host, number) =>
      match port? number with
      | some port => if host = [] then refused else .ok { e with host := String.ofList host, port }
      | none => refused
  | none =>
      match port? trimmed with
      | some port => .ok { e with port }
      | none => refused

end TcpEndpoint

/-! ## §4. Serial lines. -/

/-- A device, its line rate, and whether it uses hardware flow control. -/
structure SerialEndpoint where
  device : String := "/dev/ttyACM0"
  baud : Nat := 921600
  flowControl : Bool := false
  deriving Repr, DecidableEq

namespace SerialEndpoint

/-- The endpoint as text. -/
def text (e : SerialEndpoint) : String :=
  e.device ++ "@" ++ Text.decimal e.baud

/-- Change the device. -/
def setPort (e : SerialEndpoint) (text : String) : Except TransportError SerialEndpoint :=
  let trimmed := Text.trim text.toList
  if trimmed = [] then .error (.invalidPort (String.ofList trimmed))
  else .ok { e with device := String.ofList trimmed }

end SerialEndpoint

/-! ## §5. Recordings. -/

/-- A recording of what a receiver sent. -/
structure ReplayEndpoint where
  path : String
  deriving Repr, DecidableEq

namespace ReplayEndpoint

/-- Change the path.  A refused text is quoted as it came, blanks included. -/
def setPort (_ : ReplayEndpoint) (text : String) : Except TransportError ReplayEndpoint :=
  let trimmed := Text.trim text.toList
  if trimmed = [] then .error (.invalidPort text) else .ok ⟨String.ofList trimmed⟩

end ReplayEndpoint

/-! ## §6. Endpoints of any kind. -/

/-- The place where a receiver is reached. -/
inductive Endpoint where
  | tcp (e : TcpEndpoint)
  | serial (e : SerialEndpoint)
  | replay (e : ReplayEndpoint)
  deriving Repr, DecidableEq

namespace Endpoint

/-- The kind of its links. -/
def kind : Endpoint → LinkKind
  | .tcp _ => .tcp
  | .serial _ => .serial
  | .replay _ => .replay

/-- The endpoint as text. -/
def text : Endpoint → String
  | .tcp e => e.text
  | .serial e => e.text
  | .replay e => e.path

/-- Change the place. -/
def setPort (e : Endpoint) (text : String) : Except TransportError Endpoint :=
  match e with
  | .tcp t => (t.setPort text).map .tcp
  | .serial s => (s.setPort text).map .serial
  | .replay r => (r.setPort text).map .replay

/-- The entry of the log after a change of place. -/
def updated : Endpoint → LogLine
  | .tcp e => ⟨.debug, "tcp endpoint updated", [("endpoint", e.text)]⟩
  | .serial e => ⟨.debug, "serial port updated", [("port", e.device)]⟩
  | .replay e => ⟨.debug, "replay file updated", [("path", Text.quoted e.path)]⟩

end Endpoint

end ReceiverLink
