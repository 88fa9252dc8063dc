/-
  ReceiverLink.Proofs.Telegram.Shape
  ────────────────────────────────
  **What a telegram looks like on the wire.**

  `WellFormed maxBlock format bytes` is the grammar of a receiver's output,
  one constructor for each kind of telegram, without a word about framing.
  The first three bytes of a line that names its format are those of `Opens`;
  `opens_iff` ties them to the two classification functions.
-/
import ReceiverLink.Proofs.Telegram.Layout

namespace ReceiverLink

/-! ## §1. The first bytes of a line. -/

/-- The three bytes that open a line which names its format. -/
inductive Opens : Format → List UInt8 → Prop where
  /-- `$GP` -/
  | nmea : Opens .nmea [syncByte, 0x47, 0x50]
  /-- `$IN` -/
  | inertial : Opens .inertial [syncByte, 0x49, 0x4E]
  /-- `$R:` -/
  | reply : Opens .response [syncByte, 0x52, 0x3A]
  /-- `$R!` -/
  | notice : Opens .response [syncByte, 0x52, 0x21]
  /-- `$R?` -/
  | refusal : Opens .errorResponse [syncByte, 0x52, 0x3F]

/-- A line is opened by `$`, a selector of a text format, and a byte that
confirms it. -/
theorem opens_iff (format : Format) (opening : List UInt8) :
    Opens format opening ↔ ∃ selector third provisional, opening = [syncByte, selector, third]
      ∧ classifySecond selector = some provisional ∧ provisional ≠ .binary
      ∧ confirmThird provisional third = some format := by
  constructor
  · intro h
    cases h with
    | nmea => exact ⟨_, _, .nmea, rfl, rfl, by decide, rfl⟩
    | inertial => exact ⟨_, _, .inertial, rfl, rfl, by decide, rfl⟩
    | reply => exact ⟨_, _, .response, rfl, rfl, by decide, rfl⟩
    | notice => exact ⟨_, _, .response, rfl, rfl, by decide, rfl⟩
    | refusal => exact ⟨_, _, .response, rfl, rfl, by decide, rfl⟩
  · rintro ⟨selector, third, provisional, rfl, hselector, htext, hthird⟩
    -- each selector has confirming bytes of its own
    unfold classifySecond at hselector
    repeat' split at hselector
    all_goals cases hselector
    · exact absurd rfl htext
    all_goals
      subst selector
      simp only [confirmThird] at hthird
      repeat' split at hthird
      all_goals cases hthird
    · subst third
      exact .nmea
    · subst third
      exact .inertial
    · next h =>
        rcases h with rfl | rfl
        · exact .reply
        · exact .notice
    · subst third
      exact .refusal

namespace Opens

variable {format : Format} {opening : List UInt8}

theorem ne_unknown (h : Opens format opening) : format ≠ .unknown := by
  cases h <;> decide

theorem ne_nil (h : Opens format opening) : opening ≠ [] := by
  cases h <;> decide

/-- No opening ends in a carriage return. -/
theorem getLast?_ne (h : Opens format opening) : opening.getLast? ≠ some carriageReturn := by
  cases h <;> decide

end Opens

/-! ## §2. The grammar. -/

/-- Text of a line that names its format: no `$` and no line feed. -/
def LineText (text : List UInt8) : Prop :=
  ∀ b ∈ text, b ≠ syncByte ∧ b ≠ lineFeed

/-- Text of a line without a format: no `$`, no line feed and no `>`. -/
def PlainText (text : List UInt8) : Prop :=
  ∀ b ∈ text, b ≠ syncByte ∧ b ≠ lineFeed ∧ b ≠ promptEnd

instance (text : List UInt8) : Decidable (LineText text) :=
  List.decidableBAll (fun b => b ≠ syncByte ∧ b ≠ lineFeed) text

instance (text : List UInt8) : Decidable (PlainText text) :=
  List.decidableBAll (fun b => b ≠ syncByte ∧ b ≠ lineFeed ∧ b ≠ promptEnd) text

/-- The bytes are one whole telegram of the format. -/
inductive WellFormed (maxBlock : Nat) : Format → List UInt8 → Prop where
  /-- A block of at most `maxBlock` bytes. -/
  | block {bytes : List UInt8} (block : Block.IsBlock maxBlock bytes) :
      WellFormed maxBlock .binary bytes
  /-- A line that names its format. -/
  | line {format : Format} {opening text : List UInt8} (opens : Opens format opening)
      (clean : LineText text) :
      WellFormed maxBlock format (opening ++ text ++ [carriageReturn, lineFeed])
  /-- A line without a format.  Its first byte is any but `$`, and may be the
  carriage return before the line feed. -/
  | unknown {first : UInt8} {text : List UInt8} (head : first ≠ syncByte)
      (clean : PlainText text) (ends : (first :: text).getLast? = some carriageReturn) :
      WellFormed maxBlock .unknown (first :: text ++ [lineFeed])
  /-- A connection prompt. -/
  | prompt {first : UInt8} {text : List UInt8} (head : first ≠ syncByte)
      (clean : PlainText text) :
      WellFormed maxBlock .prompt (first :: text ++ [promptEnd])

/-- Text may be cut at any place. -/
theorem lineText_append {a b : List UInt8} : LineText (a ++ b) ↔ LineText a ∧ LineText b :=
  List.forall_mem_append

theorem plainText_append {a b : List UInt8} : PlainText (a ++ b) ↔ PlainText a ∧ PlainText b :=
  List.forall_mem_append

end ReceiverLink
