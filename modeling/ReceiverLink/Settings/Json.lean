/-
  ReceiverLink.Settings.Json
  ────────────────────────────────
  **Settings, and reading them from JSON.**

  Two flags say that the input is not live but recorded.  They are read from
  an object, in which unknown names are passed over, or from an array that
  holds the two in order and may end early.  Of several problems of a text the
  first one, from left to right, is reported.
-/
import ReceiverLink.Settings.Token

namespace ReceiverLink

/-! ## §1. Settings. -/

/-- Where the input comes from. -/
structure Settings where
  /-- The input is a recorded log of a receiver. -/
  fromLog : Bool := false
  /-- The input is a capture of network traffic. -/
  fromCapture : Bool := false
  deriving Repr, DecidableEq

namespace Settings

/-- The input is recorded: its end is not a loss of the connection. -/
def isReplay (s : Settings) : Bool :=
  s.fromLog || s.fromCapture

/-- A setting. -/
inductive Key where
  | log
  | capture
  deriving Repr, DecidableEq

/-- The name of a setting. -/
def Key.name : Key → String
  | .log => "read_from_log_file"
  | .capture => "read_from_capture_file"

/-- The setting that has a name. -/
def Key.ofName? (name : List UInt8) : Option Key :=
  [Key.log, Key.capture].find? fun k => Text.encodeUtf8 k.name == name

/-- Change one setting. -/
def set (s : Settings) : Key → Bool → Settings
  | .log, b => { s with fromLog := b }
  | .capture, b => { s with fromCapture := b }

/-! ## §2. Values. -/

/-- What is wrong with a token where another type is asked for. -/
def unsuitable : Token → Problem
  | .null => .mismatched
  | .bool _ => .mismatched
  | .openObject => .mismatched
  | .openArray => .mismatched
  | .number tooLarge => if tooLarge then .malformed else .mismatched
  | .string (.ok _) => .mismatched
  | .string (.error p) => p
  | .brokenString strict _ => strict
  | .brokenNumber strict => strict
  | .broken p => p
  | _ => .malformed

/-- Read a flag. -/
def flag : List Token → Except Problem (Bool × List Token)
  | [] => .error .truncated
  | .bool b :: rest => .ok (b, rest)
  | t :: _ => .error (unsuitable t)

/-- The brackets that are open while a value is passed over. -/
inductive Bracket where
  | array
  | object
  deriving Repr, DecidableEq

/-- What a value that is passed over needs next. -/
inductive Expected where
  | value
  | element
  | member
  | key
  | colon
  | separator
  deriving Repr, DecidableEq

/-- Whether the token closes the bracket. -/
def closes : Bracket → Token → Bool
  | .array, .closeArray => true
  | .object, .closeObject => true
  | _, _ => false

/-- A token where a value is to start. -/
def startValue (stack : List Bracket) : Token → Except Problem (Expected × List Bracket)
  | .openArray => .ok (.element, .array :: stack)
  | .openObject => .ok (.member, .object :: stack)
  | .null => .ok (.separator, stack)
  | .bool _ => .ok (.separator, stack)
  | .number _ => .ok (.separator, stack)
  | .string _ => .ok (.separator, stack)
  | .brokenString _ skipped => .error skipped
  | .broken p => .error p
  | _ => .error .malformed

/-- A token where the name of a member is to stand. -/
def startMember (stack : List Bracket) : Token → Except Problem (Expected × List Bracket)
  | .string _ => .ok (.colon, stack)
  | .brokenString _ skipped => .error skipped
  | _ => .error .malformed

/-- What one token does to a value that is passed over: what is needed after
it, and the brackets that are open then. -/
def advance (stack : List Bracket) : Expected → Token → Except Problem (Expected × List Bracket)
  | .value, t => startValue stack t
  | .element, .closeArray => .ok (.separator, stack.tail)
  | .element, t => startValue stack t
  | .key, t => startMember stack t
  | .member, .closeObject => .ok (.separator, stack.tail)
  | .member, t => startMember stack t
  | .colon, .colon => .ok (.value, stack)
  | .colon, _ => .error .malformed
  | .separator, t =>
      match stack with
      | [] => .error .malformed
      | b :: outer =>
          if closes b t then .ok (.separator, outer)
          else match t, b with
            | .comma, .array => .ok (.value, stack)
            | .comma, .object => .ok (.key, stack)
            | _, _ => .error .malformed

/-- Pass over one value, of which `expected` is needed next, and return the
tokens after it. -/
def skip (expected : Expected) (stack : List Bracket) : List Token → Except Problem (List Token)
  | [] => .error .truncated
  | t :: rest => do
      let (next, stack) ← advance stack expected t
      if next = .separator ∧ stack = [] then return rest
      else skip next stack rest

/-! ## §3. Arrays. -/

/-- The array is closed, and nothing follows it. -/
def closeArray : List Token → Except Problem Unit
  | [] => .error .truncated
  | [.closeArray] => .ok ()
  | _ => .error .malformed

/-- The two flags in order, after the opening bracket. -/
def ofArray : List Token → Except Problem Settings
  | [] => .error .truncated
  | .closeArray :: rest => do
      closeArray (.closeArray :: rest)
      return {}
  | ts => do
      let (log, ts) ← flag ts
      match ts with
      | [] => throw .truncated
      | [.comma] => throw .truncated
      | .comma :: .closeArray :: _ => throw .malformed
      | .comma :: ts =>
          let (capture, ts) ← flag ts
          closeArray ts
          return ⟨log, capture⟩
      | ts =>
          closeArray ts
          return { fromLog := log }

/-! ## §4. Objects. -/

/-- Read the value after a name: a flag for a known setting, anything for an
unknown one.  A setting that was given before is refused at its name. -/
def member (s : Settings) (seen : List Key) (name : List UInt8) (ts : List Token) :
    Except Problem (Settings × List Key × List Token) := do
  let key := Key.ofName? name
  match key with
  | some k => if k ∈ seen then throw .mismatched
  | none => pure ()
  match ts with
  | [] => throw .truncated
  | .colon :: ts =>
      match key with
      | some k =>
          let (b, ts) ← flag ts
          return (s.set k b, k :: seen, ts)
      | none => return (s, seen, ← skip .value [] ts)
  | _ => throw .malformed

/-- The name that a token holds. -/
def nameOf : Token → Except Problem (List UInt8)
  | .string content => content
  | .brokenString strict _ => .error strict
  | _ => .error .malformed

/-- The name of the next member and the tokens after it, or nothing at the end
of the object, which must be the end of the text.  Before the first member
stands no comma. -/
def nextName (first : Bool) : List Token → Except Problem (Option (List UInt8 × List Token))
  | [] => .error .truncated
  | [.closeObject] => .ok none
  | .closeObject :: _ => .error .malformed
  | t :: rest =>
      if first then (nameOf t).map fun name => some (name, rest)
      else match t, rest with
        | .comma, [] => .error .truncated
        | .comma, t :: rest => (nameOf t).map fun name => some (name, rest)
        | _, _ => .error .malformed

/-- The members of an object from here on.  Each takes tokens away. -/
def members (first : Bool) (s : Settings) (seen : List Key) (ts : List Token) :
    Except Problem Settings :=
  match nextName first ts with
  | .error p => .error p
  | .ok none => .ok s
  | .ok (some (name, rest)) =>
      match member s seen name rest with
      | .error p => .error p
      | .ok (s, seen, rest) =>
          if rest.length < ts.length then members false s seen rest else .error .malformed
termination_by ts.length

/-! ## §5. Texts. -/

/-- Read settings from a JSON text. -/
def ofJson (text : String) : Except Problem Settings :=
  match tokens (Text.encodeUtf8 text) with
  | [] => .error .truncated
  | .openArray :: ts => ofArray ts
  | .openObject :: ts => members true {} [] ts
  | t :: _ => .error (unsuitable t)

end Settings

end ReceiverLink
