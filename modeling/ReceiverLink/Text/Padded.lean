/-
  ReceiverLink.Text.Padded
  ────────────────────────────────
  **Fields of a fixed width.**

  A text is first cut to at most `precision` characters, if one is given, and
  then filled up to `width` characters.  Widths count characters, not bytes.
-/

namespace ReceiverLink.Text

/-- Where a text stands in its field. -/
inductive Alignment where
  | left
  | right
  | center
  deriving Repr, DecidableEq

/-- The shape of a field: fill character, alignment, least width, and greatest
length of the text in it. -/
structure Field where
  fill : Char := ' '
  alignment : Alignment := .left
  width : Nat := 0
  precision : Option Nat := none
  deriving Repr, DecidableEq

/-- The text as the field shows it.  When centring leaves an odd number of
places, the extra one is on the right. -/
def Field.fit (field : Field) (text : List Char) : List Char :=
  let shown := match field.precision with
    | some p => text.take p
    | none => text
  let room := field.width - shown.length
  let before := match field.alignment with
    | .left => 0
    | .right => room
    | .center => room / 2
  List.replicate before field.fill ++ shown ++ List.replicate (room - before) field.fill

/-- The text filled with spaces on the right up to `width` characters. -/
def padRight (width : Nat) (text : String) : String :=
  String.ofList ({ width := width : Field }.fit text.toList)

/-- The text filled with spaces on the left up to `width` characters. -/
def padLeft (width : Nat) (text : String) : String :=
  String.ofList ({ alignment := .right, width := width : Field }.fit text.toList)

end ReceiverLink.Text
