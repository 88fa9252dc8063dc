/-
  ReceiverLink.Handover
  ────────────────────────────────
  **Handing telegrams to their consumer.**

  Framing only ever pushes and never waits: what stands between it and the
  consumer is a queue without a bound.  What is pushed after the consumer went
  away is dropped and noted.
-/
import ReceiverLink.Framer.Basic

namespace ReceiverLink

/-- What became of a telegram that was pushed. -/
inductive Handover where
  | received (t : Telegram)
  | dropped (format : Format)
  deriving Repr, DecidableEq

namespace Handover

/-- Push a telegram to a consumer that is there or is not. -/
def push (present : Bool) (t : Telegram) : Handover :=
  if present then .received t else .dropped t.format

/-- Push telegrams in order to a consumer that goes away, if at all, just
before the one with the index `leaving`. -/
def pushAll (leaving : Option Nat) (ts : List Telegram) : List Handover :=
  match leaving with
  | none => ts.map (push true)
  | some n => (ts.take n).map (push true) ++ (ts.drop n).map (push false)

/-- The telegram that the consumer has. -/
def telegram? : Handover → Option Telegram
  | .received t => some t
  | .dropped _ => none

/-- The entry of the log. -/
def line? : Handover → Option LogLine
  | .received _ => none
  | .dropped format =>
      some ⟨.debug, "telegram consumer gone, dropping", [("format", format.name)]⟩

end Handover

end ReceiverLink
