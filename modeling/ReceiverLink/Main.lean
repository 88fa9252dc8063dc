/-
  ReceiverLink.Main
  ────────────────────────────────
  **The monitor as a program.**

  It shows every telegram of a recording.  Links to a live receiver need a
  network or a serial line, which this program does not open.
-/
import ReceiverLink.Monitor.CommandLine
import ReceiverLink.Monitor.Display

namespace ReceiverLink.Monitor

/-- The contents of a file, if there is one that can be read. -/
def contents? (path : String) : IO (Option (List UInt8)) := do
  try
    let bytes ← IO.FS.readBinFile path
    return some bytes.toList
  catch _ => return none

/-- Say what went wrong. -/
def complain (text : String) : IO UInt32 := do
  IO.eprintln ("error: " ++ text)
  return 1

/-- The words for a command line that cannot be gone by. -/
def Refusal.text : Refusal → String
  | .unknownArgument => "unexpected argument"
  | .invalidValue => "a value is required"
  | .valueValidation => "invalid value"
  | .argumentConflict => "an argument cannot be used multiple times"
  | .tooManyValues => "unexpected value"
  | .missingArgument => "a required argument was not provided"
  | .missingLink => "a link is required: tcp, serial or replay"
  | .unknownLink => "unrecognized link"
  | .help => "monitor tcp HOST | serial DEVICE | replay PATH"
  | .helpInsteadOfNothing => "monitor tcp HOST | serial DEVICE | replay PATH"

/-- Run the monitor. -/
def run (words : List String) : IO UInt32 := do
  match CommandLine.ofWords words with
  | .error refusal => complain refusal.text
  | .ok line =>
      match line.target with
      | .tcp host port =>
          complain ("cannot open a network link to " ++ host ++ ":" ++ Text.decimal port)
      | .serial device _ => complain ("cannot open the serial line " ++ device)
      | .replay path =>
          match lines path (← contents? path) line.commands true with
          | .error e => complain e.text
          | .ok shown =>
              for l in shown do IO.println l
              return 0

end ReceiverLink.Monitor

/-- Run the monitor on the words of the command line. -/
def main (words : List String) : IO UInt32 :=
  ReceiverLink.Monitor.run words
