/-
  ReceiverLink.Monitor.CommandLine
  ────────────────────────────────
  **The command line of the monitor.**

      monitor [options] tcp HOST [--port PORT]
      monitor [options] serial DEVICE [--baud RATE]
      monitor [options] replay PATH

  The options `--json-logs`, `--log-level LEVEL` and `--command TEXT` may stand
  before or after the name of the link.  A value follows its option as the
  next word, or after `=` in the same word.  Only `--command` may be repeated
  on one side of the name; of an option given on both sides, the side after
  the name counts.

  Words are taken in order.  The value of an option is looked at when the next
  option or place is taken, or at the end; so of two mistakes the one that is
  met first in this sense is reported.

  This is how the program reads its own command line, and no theorem is about
  it.
-/
import ReceiverLink.Log
import ReceiverLink.Text.Numeral

namespace ReceiverLink.Monitor

/-! ## §1. What a command line says. -/

/-- The link to be watched. -/
inductive Target where
  | tcp (host : String) (port : Nat)
  | serial (device : String) (baud : Nat)
  | replay (path : String)
  deriving Repr, DecidableEq

/-- A command line. -/
structure CommandLine where
  jsonLogs : Bool
  logLevel : Level
  commands : List String
  target : Target
  deriving Repr, DecidableEq

/-- Why there is no command line to go by. -/
inductive Refusal where
  | unknownArgument
  | invalidValue
  | valueValidation
  | argumentConflict
  | tooManyValues
  | missingArgument
  | missingLink
  | unknownLink
  /-- Help is asked for. -/
  | help
  /-- Nothing is asked for. -/
  | helpInsteadOfNothing
  deriving Repr, DecidableEq

/-! ## §2. Words. -/

/-- The names of links. -/
inductive LinkName where
  | tcp
  | serial
  | replay
  deriving Repr, DecidableEq

/-- The link that a word names. -/
def LinkName.ofWord? (word : String) : Option LinkName :=
  if word = "tcp" then some .tcp
  else if word = "serial" then some .serial
  else if word = "replay" then some .replay
  else none

/-- Options with a value. -/
inductive Valued where
  | logLevel
  | command
  /-- The port of a network link, or the line rate of a serial one. -/
  | number
  deriving Repr, DecidableEq

/-- What an option stands for. -/
inductive OptionName where
  | help
  | jsonLogs
  | valued (o : Valued)
  deriving Repr, DecidableEq

/-- The option with a name, where `link` is the link that has been named. -/
def OptionName.ofName? (link : Option LinkName) (name : String) : Option OptionName :=
  if name = "help" then some .help
  else if name = "json-logs" then some .jsonLogs
  else if name = "log-level" then some (.valued .logLevel)
  else if name = "command" then some (.valued .command)
  else if name = "port" ∧ link = some .tcp then some (.valued .number)
  else if name = "baud" ∧ link = some .serial then some (.valued .number)
  else none

/-- The form of a word. -/
inductive Word where
  /-- Two dashes: only places follow. -/
  | escape
  /-- An option by its name, and the value after `=`. -/
  | long (name : String) (value : Option String)
  /-- An option by its letter. -/
  | short (letter : Char)
  | plain
  deriving Repr, DecidableEq

/-- The form of a word.  A single dash is a plain word. -/
def Word.of (word : String) : Word :=
  match word.toList with
  | ['-', '-'] => .escape
  | '-' :: '-' :: rest =>
      let name := String.ofList (rest.takeWhile (· ≠ '='))
      match rest.dropWhile (· ≠ '=') with
      | [] => .long name none
      | _ :: value => .long name (some (String.ofList value))
  | '-' :: letter :: _ => .short letter
  | _ => .plain

/-! ## §3. Values. -/

/-- The level with a name, in letters of either case, or with a number from 1
to 5. -/
def levelOfText? (text : String) : Option Level :=
  match Text.natural? (UInt64.size - 1) text.toList with
  | some 1 => some .error
  | some 2 => some .warn
  | some 3 => some .info
  | some 4 => some .debug
  | some 5 => some .trace
  | some _ => none
  | none =>
      [Level.error, .warn, .info, .debug, .trace].find? fun l => l.name.toLower = text.toLower

/-- A whole number from zero to a bound; a sign may stand before it. -/
def numberOfText? (bound : Nat) (text : String) : Option Nat :=
  match Text.integer? text.toList with
  | some n => if 0 ≤ n ∧ n ≤ bound then some n.toNat else none
  | none => none

/-- The greatest number that the link's option takes. -/
def LinkName.bound : LinkName → Nat
  | .serial => 4294967295
  | _ => 65535

/-- What was given on one side of the link's name. -/
structure Given where
  jsonLogs : Option Unit := none
  logLevel : Option Level := none
  commands : Option (List String) := none
  number : Option Nat := none
  place : Option String := none
  deriving Repr, DecidableEq

/-- A value that has been read but not looked at. -/
inductive Pending where
  | nothing
  /-- An option whose value is still to come. -/
  | awaiting (o : Valued)
  | value (o : Valued) (text : String)
  | place (text : String)
  deriving Repr, DecidableEq

/-- The side of the link's name that is being read. -/
structure Side where
  link : Option LinkName
  given : Given := {}
  pending : Pending := .nothing
  /-- The place has been read. -/
  placed : Bool := false
  /-- Two dashes have been read. -/
  escaped : Bool := false
  deriving Repr, DecidableEq

/-- Store a value, unless there is one already. -/
def once {α : Type} (old : Option α) (new : Option α) : Except Refusal (Option α) :=
  match old, new with
  | some _, _ => .error .argumentConflict
  | none, none => .error .valueValidation
  | none, some a => .ok (some a)

namespace Side

/-- Look at the value of an option. -/
def store (s : Side) (o : Valued) (text : String) : Except Refusal Side := do
  let g := s.given
  let g ← match o with
    | .logLevel => do pure { g with logLevel := ← once g.logLevel (levelOfText? text) }
    | .command => pure { g with commands := some (g.commands.getD [] ++ [text]) }
    | .number => do
        let bound := (s.link.getD .tcp).bound
        pure { g with number := ← once g.number (numberOfText? bound text) }
  return { s with given := g, pending := .nothing }

/-- Look at a place.  The path of a recording must not be empty. -/
def storePlace (s : Side) (text : String) : Except Refusal Side :=
  if s.link = some .replay ∧ text = "" then .error .invalidValue
  else .ok { s with given := { s.given with place := some text }, pending := .nothing }

/-- Look at the value that has been read last. -/
def resolve (s : Side) : Except Refusal Side :=
  match s.pending with
  | .nothing => .ok s
  | .awaiting _ => .error .invalidValue
  | .value o text => s.store o text
  | .place text => s.storePlace text

/-! ## §4. One side of the link's name. -/

/-- An option by its name. -/
def takeLong (s : Side) (name : String) (value : Option String) : Except Refusal Side :=
  match OptionName.ofName? s.link name, value with
  | none, _ => .error .unknownArgument
  | some .help, some _ => .error .tooManyValues
  | some .jsonLogs, some _ => .error .tooManyValues
  | some .help, none => do
      let _ ← s.resolve
      throw .help
  | some .jsonLogs, none => do
      let s ← s.resolve
      return { s with given := { s.given with jsonLogs := ← once s.given.jsonLogs (some ()) } }
  | some (.valued o), some text => do
      let s ← s.resolve
      s.store o text
  | some (.valued o), none => do
      let s ← s.resolve
      return { s with pending := .awaiting o }

/-- An option by its letter: only `-h` is one. -/
def takeShort (s : Side) (letter : Char) : Except Refusal Side := do
  if letter ≠ 'h' then throw .unknownArgument
  let _ ← s.resolve
  throw .help

/-- A word that is no option: the value that an option waits for, or a
place. -/
def takePlain (s : Side) (word : String) : Except Refusal Side :=
  match s.escaped, s.pending with
  | false, .awaiting o => .ok { s with pending := .value o word }
  | _, _ =>
      match s.link with
      | none =>
          if s.escaped ∧ (LinkName.ofWord? word ≠ none ∨ word = "help") then
            .error .unknownArgument
          else .error .unknownLink
      | some _ =>
          if s.placed then .error .unknownArgument
          else do
            let s ← s.resolve
            return { s with pending := .place word, placed := true }

/-- One word. -/
def take (s : Side) (word : String) : Except Refusal Side :=
  if s.escaped then s.takePlain word
  else match Word.of word with
    | .escape => .ok { s with escaped := true }
    | .long name value => s.takeLong name value
    | .short letter => s.takeShort letter
    | .plain => s.takePlain word

end Side

/-! ## §5. The whole line. -/

/-- The words after `help` must name at most one link. -/
def helpOn : List String → Refusal
  | [] => .help
  | [word] => if LinkName.ofWord? word ≠ none ∨ word = "help" then .help else .unknownLink
  | _ => .unknownLink

/-- The words after the link's name. -/
def afterName (s : Side) : List String → Except Refusal Given
  | [] => do
      let s ← s.resolve
      if s.given.place = none then throw .missingArgument
      return s.given
  | word :: rest => do afterName (← s.take word) rest

/-- The words from the start: what was given before the link's name, the name,
and what was given after it.  A value still unlooked-at before the name is
looked at last. -/
def beforeName (s : Side) : List String → Except Refusal (Given × LinkName × Given)
  | [] => do
      let s ← s.resolve
      if s.given = {} then throw .helpInsteadOfNothing else throw .missingLink
  | word :: rest =>
      let awaits := match s.pending with
        | .awaiting _ => true
        | _ => false
      if s.escaped || awaits then do beforeName (← s.take word) rest
      else if word = "help" then .error (helpOn rest)
      else match LinkName.ofWord? word with
        | some link => do
            let after ← afterName { link := some link } rest
            let s ← s.resolve
            return (s.given, link, after)
        | none => do beforeName (← s.take word) rest

/-- The link with the given name. -/
def Target.of (link : LinkName) (given : Given) : Target :=
  let place := given.place.getD ""
  match link with
  | .tcp => .tcp place (given.number.getD 28784)
  | .serial => .serial place (given.number.getD 921600)
  | .replay => .replay place

/-- Read a command line, without the name of the program. -/
def CommandLine.ofWords (words : List String) : Except Refusal CommandLine := do
  let (before, link, after) ← beforeName { link := none } words
  return {
    jsonLogs := (after.jsonLogs <|> before.jsonLogs).isSome
    logLevel := (after.logLevel <|> before.logLevel).getD .info
    commands := (after.commands <|> before.commands).getD []
    target := .of link after }

end ReceiverLink.Monitor
