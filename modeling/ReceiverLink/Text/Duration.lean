/-
  ReceiverLink.Text.Duration
  ────────────────────────────────
  **Lengths of time in the largest unit that has a whole part.**

  A duration is written in seconds, milliseconds, microseconds or nanoseconds,
  whichever is the largest unit of which it holds at least one; what is left
  follows as a decimal fraction without trailing zeros.  No time is `0ns`.
-/
import ReceiverLink.Text.Numeral

namespace ReceiverLink.Text

/-- A number of nanoseconds. -/
structure Duration where
  nanos : Nat
  deriving Repr, DecidableEq

/-- A whole number of milliseconds. -/
def Duration.ofMillis (ms : Nat) : Duration :=
  ⟨ms * 1000000⟩

/-- A fraction of `places` decimal places, point included, without its
trailing zeros. -/
def fraction (places part : Nat) : String :=
  let digits := Nat.toDigits 10 part
  let full := List.replicate (places - digits.length) '0' ++ digits
  match (full.reverse.dropWhile (· == '0')).reverse with
  | [] => ""
  | kept => "." ++ String.ofList kept

/-- The duration as text. -/
def Duration.text (d : Duration) : String :=
  if 1000000000 ≤ d.nanos then unit 9 "s"
  else if 1000000 ≤ d.nanos then unit 6 "ms"
  else if 1000 ≤ d.nanos then unit 3 "µs"
  else unit 0 "ns"
where
  /-- Written in units of `10 ^ places` nanoseconds. -/
  unit (places : Nat) (name : String) : String :=
    let size := Nat.pow 10 places
    decimal (d.nanos / size) ++
      (if d.nanos % size = 0 then "" else fraction places (d.nanos % size)) ++ name

end ReceiverLink.Text
