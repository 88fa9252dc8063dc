/-
  ReceiverLink.Monitor.Display
  ────────────────────────────────
  **Showing every telegram of a receiver.**

  The monitor connects a supervisor to a recording, sends the commands it was
  given, and shows one line for each telegram.  The recording is read bit
  by bit, and that takes as long as it takes (`PlayStep`).  The monitor waits
  for two things at once, a telegram or a new state of the supervisor, and
  takes whichever is there (`Turn`).  When it learns that the supervisor is
  drained it shows what has arrived and is not shown yet, and ends.
-/
import ReceiverLink.Endpoint.Recording
import ReceiverLink.Supervisor.Scenario

namespace ReceiverLink.Monitor

/-! ## §1. Lines. -/

/-- The line that shows a telegram. -/
def line (t : Telegram) : String :=
  Text.padRight 22 t.format.name ++ " " ++
    if t.format = .binary then
      "block " ++ Text.padLeft 5 (Text.decimal ((t.blockNumber?.getD 0).toNat)) ++
        " rev " ++ Text.decimal (t.blockRevision?.getD 0).toNat ++
        " (" ++ Text.decimal t.size ++ " bytes)"
    else t.text?.getD ""

/-! ## §2. Waiting for two things at once. -/

/-- What the supervisor makes known to the monitor. -/
inductive Notice where
  | telegram (t : Telegram)
  | state (l : Lifecycle)
  deriving Repr, DecidableEq

/-- The notice that a happening is, if it is one. -/
def Notice.of? : Happening → Option Notice
  | .handover (.received t) => some (.telegram t)
  | .stateChanged _ new => some (.state new)
  | _ => none

/-- One of the two things that the monitor waits for. -/
inductive Branch where
  | telegram
  | state
  deriving Repr, DecidableEq

/-- One turn of waiting: so many notices arrive first, and if both things are
there then, `preferred` is taken. -/
structure Turn where
  arrivals : Nat
  preferred : Branch
  deriving Repr, DecidableEq

/-- What the monitor has before it: telegrams not shown yet, and the last
state, if it has not looked at it. -/
structure View where
  waiting : List Telegram := []
  unseen : Option Lifecycle := none
  shown : List Telegram := []
  deriving Repr, DecidableEq

namespace View

/-- A notice arrives. -/
def arrive (v : View) : Notice → View
  | .telegram t => { v with waiting := v.waiting ++ [t] }
  | .state l => { v with unseen := some l }

/-- Show the first telegram that waits. -/
def showOne (v : View) : View :=
  match v.waiting with
  | [] => v
  | t :: ts => { v with waiting := ts, shown := v.shown ++ [t] }

/-- The branch that is taken: the preferred one, if it can be. -/
def choose (v : View) (preferred : Branch) : Option Branch :=
  match v.waiting, v.unseen, preferred with
  | [], none, _ => none
  | [], some _, _ => some .state
  | _ :: _, none, _ => some .telegram
  | _ :: _, some _, b => some b

end View

/-- Wait turn after turn.  The result is all that was shown once the
supervisor is known to be drained; there is none if the turns end before. -/
def watch : List Turn → List Notice → View → Option (List Telegram)
  | [], _, _ => none
  | turn :: turns, notices, v =>
      let v := (notices.take turn.arrivals).foldl View.arrive v
      let rest := notices.drop turn.arrivals
      match v.choose turn.preferred with
      | none => watch turns rest v
      | some .telegram => watch turns rest v.showOne
      | some .state =>
          if v.unseen = some .drained then some (v.shown ++ v.waiting)
          else watch turns rest { v with unseen := none }

/-! ## §3. The monitor. -/

/-- Send a command, with its line end. -/
def sendLine (s : Simulation) (command : String) : Except SupervisorError Simulation := do
  let (s, result) := s.send (Text.encodeUtf8 (command ++ "\r\n"))
  result
  return s

/-- What happens next while a recording is played. -/
inductive PlayStep where
  /-- Up to so many bytes of it are read. -/
  | read (count : Nat)
  /-- The next command is sent. -/
  | command
  /-- Reading takes so many milliseconds. -/
  | wait (ms : Nat)
  deriving Repr, DecidableEq

/-- Play the rest of a recording, step by step.  The monitor sends its commands
before it waits for anything, and a read that finds nothing finds the end.
After the given steps all that is left is sent, and read, at once. -/
def play : List PlayStep → Recording → List String → Simulation → Except SupervisorError Simulation
  | [], recording, commands, s => do
      let s ← commands.foldlM sendLine s
      return s.run [.receiverWrite 0 recording.rest, .receiverShutdown 0]
  | .read count :: later, recording, commands, s =>
      if recording.rest = [] then commands.foldlM sendLine (s.step (.receiverShutdown 0)).1
      else
        let (bytes, recording) := recording.read count
        play later recording commands (s.step (.receiverWrite 0 bytes)).1
  | .command :: later, recording, [], s => play later recording [] s
  | .command :: later, recording, command :: commands, s => do
      let s ← sendLine s command
      play later recording commands s
  | .wait ms :: later, recording, [], s => play later recording [] (s.elapse ms)
  | .wait _ :: later, recording, command :: commands, s =>
      play later recording (command :: commands) s

/-- The supervisor of the monitor, connected to a recording that has been read
to its end, with all commands sent. -/
def start (pace : Pace) (steps : List PlayStep) (path : String) (file : Option (List UInt8))
    (commands : List String) (replay : Bool) : Except SupervisorError Simulation := do
  let endpoint : ReplayEndpoint := ⟨path⟩
  let recording ← (endpoint.play file).mapError .transport
  let idle : Simulation :=
    { pace
      config := { settings := { fromLog := replay } }
      endpoint := .replay endpoint
      links := #[.unread]
      plan := [⟨.ok 0, 0⟩] }
  let (connected, result) := idle.connect
  result
  play steps recording commands connected

/-- Everything that the supervisor makes known until the watchdog has looked at
the link after its end. -/
def notices (s : Simulation) : List Notice :=
  (s.elapse s.config.watchdog).record.toList.filterMap fun h => Notice.of? h.2

/-- The lines that the monitor shows when a recording is read in the given
steps and it waits in the given turns. -/
def linesIn (pace : Pace) (steps : List PlayStep) (turns : List Turn) (path : String)
    (file : Option (List UInt8)) (commands : List String) (replay : Bool) :
    Except SupervisorError (List String) := do
  let s ← start pace steps path file commands replay
  return ((watch turns (notices s) {}).getD []).map line

/-- The lines that the monitor shows for a recording.  It is read at once, and
all notices arrive before the first turn, which looks at the state; any other
steps, and any other turns that last long enough, show the same. -/
def lines (path : String) (file : Option (List UInt8)) (commands : List String)
    (replay : Bool) : Except SupervisorError (List String) := do
  let s ← start .cooperative [] path file commands replay
  linesIn .cooperative [] [⟨(notices s).length, .state⟩] path file commands replay

end ReceiverLink.Monitor
