/-
  ReceiverLink.Proofs.Text.Shape
  ────────────────────────────────
  **What trimming leaves, and which texts are numbers.**

  The functions that trim a text and read a number are loops over its
  characters.  Here they are described by the shape of the text alone: what
  trimming leaves is the part between the blank characters at both ends
  (`Trims`), and a text is read as a number exactly when it is an optional
  `+` and ASCII digits (`Numeral`).

  Main statements:
    * `trims_iff` — trimming leaves that part, and nothing else is it;
    * `natural?_eq_some_iff` — the numbers that are read, up to a bound;
    * `numeral_toDigits` — a number in decimal digits reads as itself.
-/
import Mathlib.Data.List.DropRight
import ReceiverLink.Text.Blank
import ReceiverLink.Text.Numeral

namespace ReceiverLink.Text

/-! ## §1. Trimming. -/

/-- A text that neither starts nor ends with a blank character. -/
structure Sharp (t : List Char) : Prop where
  start : ∀ c ∈ t.head?, ¬ isBlank c
  finish : ∀ c ∈ t.getLast?, ¬ isBlank c

/-- `t` is the text `s` without the blank characters at its two ends. -/
structure Trims (s t : List Char) : Prop extends Sharp t where
  around : ∃ front back, s = front ++ t ++ back ∧
    (∀ c ∈ front, isBlank c) ∧ ∀ c ∈ back, isBlank c

theorem trimStart_append {front : List Char} (hfront : ∀ c ∈ front, isBlank c) (s : List Char) :
    trimStart (front ++ s) = trimStart s :=
  List.dropWhile_append_of_pos hfront

theorem trimStart_eq_self {s : List Char} (h : ∀ c ∈ s.head?, ¬ isBlank c) : trimStart s = s := by
  cases s with
  | nil => rfl
  | cons c cs => exact List.dropWhile_cons_of_neg (h c rfl)

theorem trimEnd_append {back : List Char} (hback : ∀ c ∈ back, isBlank c) (s : List Char) :
    trimEnd (s ++ back) = trimEnd s := by
  have hreverse : ∀ c ∈ back.reverse, isBlank c := fun c hc => hback c (List.mem_reverse.mp hc)
  rw [trimEnd, List.reverse_append, List.dropWhile_append_of_pos hreverse, trimEnd]

theorem trimEnd_eq_self {s : List Char} (h : ∀ c ∈ s.getLast?, ¬ isBlank c) : trimEnd s = s := by
  have hreverse : trimStart s.reverse = s.reverse :=
    trimStart_eq_self (by rwa [List.head?_reverse])
  rw [trimEnd, ← trimStart, hreverse, List.reverse_reverse]

/-- Trimming takes away what is blank before and after a text that is not blank at its ends. -/
theorem trim_append {front back : List Char} (hfront : ∀ c ∈ front, isBlank c)
    (hback : ∀ c ∈ back, isBlank c) {t : List Char} (ht : Sharp t) :
    trim (front ++ t ++ back) = t := by
  rw [List.append_assoc, trim, trimStart_append hfront]
  cases t with
  | nil =>
      have hnil : trimStart back = [] := List.dropWhile_eq_nil_iff.mpr hback
      rw [List.nil_append, hnil]
      rfl
  | cons c cs =>
      rw [trimStart_eq_self (s := c :: cs ++ back) (by simpa using ht.start), trimEnd_append hback,
        trimEnd_eq_self ht.finish]

/-- What trimming leaves is the text without the blank characters at its ends. -/
theorem trims_trim (s : List Char) : Trims s (trim s) := by
  obtain ⟨front, hfront, hs⟩ : ∃ front, (∀ c ∈ front, isBlank c) ∧ s = front ++ trimStart s :=
    ⟨s.takeWhile isBlank, fun _ => List.mem_takeWhile_imp, List.takeWhile_append_dropWhile.symm⟩
  obtain ⟨back, hback, hrest⟩ :
      ∃ back, (∀ c ∈ back, isBlank c) ∧ trimStart s = trim s ++ back := by
    refine ⟨((trimStart s).reverse.takeWhile isBlank).reverse, fun c hc => ?_, ?_⟩
    · exact List.mem_takeWhile_imp (List.mem_reverse.mp hc)
    · rw [trim, trimEnd, ← List.reverse_append, List.takeWhile_append_dropWhile,
        List.reverse_reverse]
  have hstart : ∀ c ∈ (trimStart s).head?, ¬ isBlank c := by
    intro c hc
    have hnot := List.head?_dropWhile_not isBlank s
    rw [← trimStart, Option.mem_def.mp hc] at hnot
    simp [hnot]
  refine ⟨⟨fun c hc => hstart c ?_, fun c hc => ?_⟩, front, back, ?_, hfront, hback⟩
  · rw [hrest, Option.mem_def, List.head?_append, Option.mem_def.mp hc, Option.some_or]
  · have hnot := List.head?_dropWhile_not isBlank (trimStart s).reverse
    rw [trim, trimEnd, List.getLast?_reverse, Option.mem_def] at hc
    rw [hc] at hnot
    simp [hnot]
  · rw [List.append_assoc, ← hrest]
    exact hs

/-- Trimming leaves the text without the blank characters at its ends, and no other text is that. -/
theorem trims_iff {s t : List Char} : Trims s t ↔ t = trim s := by
  constructor
  · rintro ⟨hsharp, front, back, rfl, hfront, hback⟩
    exact (trim_append hfront hback hsharp).symm
  · rintro rfl
    exact trims_trim s

/-- A text with nothing blank at its ends is left as it is. -/
theorem Sharp.trims {t : List Char} (h : Sharp t) : Trims t t :=
  ⟨h, [], [], by simp, by simp, by simp⟩

/-! ## §2. Numbers. -/

/-- The text is the number `n`: an optional `+`, then ASCII digits that spell `n`. -/
def Numeral (s : List Char) (n : Nat) : Prop :=
  ∃ digits, (s = digits ∨ s = '+' :: digits) ∧ digits ≠ [] ∧
    (∀ c ∈ digits, c.isDigit) ∧ Nat.ofDigitChars 10 digits 0 = n

theorem digit?_of_isDigit {c : Char} (h : c.isDigit) : digit? c = some (c.toNat - '0'.toNat) := by
  rw [Char.isDigit, Bool.and_eq_true, decide_eq_true_eq, decide_eq_true_eq] at h
  exact if_pos h

theorem digit?_eq_none {c : Char} (h : ¬ c.isDigit) : digit? c = none := by
  rw [Char.isDigit, Bool.and_eq_true, decide_eq_true_eq, decide_eq_true_eq] at h
  exact if_neg h

/-- A row of digits is read from the left, each shifting the value so far by one place. -/
theorem foldl_digits {s : List Char} (h : ∀ c ∈ s, c.isDigit) (acc : Nat) :
    s.foldl (fun acc c => do return (← acc) * 10 + (← digit? c)) (some acc) =
      some (Nat.ofDigitChars 10 s acc) := by
  induction s generalizing acc with
  | nil => rfl
  | cons c cs ih =>
      have hstep : (do return (← some acc) * 10 + (← digit? c)) =
          some (10 * acc + (c.toNat - '0'.toNat)) := by
        rw [digit?_of_isDigit (h c List.mem_cons_self), Nat.mul_comm]
        rfl
      rw [List.foldl_cons, hstep, ih fun d hd => h d (List.mem_cons_of_mem c hd)]
      rfl

/-- A single character that is no digit spoils the number. -/
theorem foldl_spoiled {s : List Char} (acc : Option Nat) (h : acc = none ∨ ∃ c ∈ s, ¬ c.isDigit) :
    s.foldl (fun acc c => do return (← acc) * 10 + (← digit? c)) acc = none := by
  induction s generalizing acc with
  | nil => exact h.resolve_right (by simp)
  | cons c cs ih =>
      rw [List.foldl_cons]
      apply ih
      rcases h with rfl | ⟨d, hd, hnot⟩
      · exact .inl rfl
      rcases List.mem_cons.mp hd with rfl | hd
      · left
        rw [digit?_eq_none hnot]
        cases acc <;> rfl
      · exact .inr ⟨d, hd, hnot⟩

/-- The rows of digits that are read, with their values. -/
theorem digits?_eq_some_iff {s : List Char} {n : Nat} :
    digits? s = some n ↔ s ≠ [] ∧ (∀ c ∈ s, c.isDigit) ∧ Nat.ofDigitChars 10 s 0 = n := by
  cases s with
  | nil => simp [digits?]
  | cons c cs =>
      rw [digits?]
      by_cases h : ∀ d ∈ c :: cs, d.isDigit
      · rw [foldl_digits h, Option.some_inj]
        exact ⟨fun hvalue => ⟨List.cons_ne_nil c cs, h, hvalue⟩, fun hall => hall.2.2⟩
      · have hspoiled : ∃ d ∈ c :: cs, ¬ d.isDigit := by
          by_contra hnone
          exact h fun d hd => not_not.mp fun hnot => hnone ⟨d, hd, hnot⟩
        rw [foldl_spoiled _ (.inr hspoiled)]
        exact ⟨nofun, fun hall => absurd hall.2.1 h⟩

/-- A digit is no sign. -/
theorem dropPlus_digits {s : List Char} (h : ∀ c ∈ s, c.isDigit) : dropPlus s = s := by
  rw [dropPlus]
  rintro cs rfl
  exact absurd (h '+' List.mem_cons_self) (by decide)

/-- The texts that are read as numbers: those of at most the bound. -/
theorem natural?_eq_some_iff {bound : Nat} {s : List Char} {n : Nat} :
    natural? bound s = some n ↔ Numeral s n ∧ n ≤ bound := by
  rw [natural?, Option.filter_eq_some_iff, decide_eq_true_eq, digits?_eq_some_iff]
  refine and_congr_left fun _ => ⟨fun h => ⟨dropPlus s, ?_, h⟩, ?_⟩
  · fun_cases dropPlus s with
    | case1 cs => exact .inr rfl
    | case2 => exact .inl rfl
  · rintro ⟨digits, rfl | rfl, hne, hdigits, hvalue⟩
    · rw [dropPlus_digits hdigits]
      exact ⟨hne, hdigits, hvalue⟩
    · exact ⟨hne, hdigits, hvalue⟩

/-- A number in decimal digits reads as itself. -/
theorem numeral_toDigits (n : Nat) : Numeral (Nat.toDigits 10 n) n :=
  ⟨_, .inl rfl, Nat.toDigits_ne_nil, fun _ => Nat.isDigit_of_mem_toDigits (by decide) le_rfl,
    Nat.ofDigitChars_ten_toDigits⟩

/-- The characters of a number are digits, but for a sign. -/
theorem Numeral.chars {s : List Char} {n : Nat} (h : Numeral s n) :
    ∀ c ∈ s, c = '+' ∨ c.isDigit := by
  obtain ⟨digits, rfl | rfl, -, hdigits, -⟩ := h
  · exact fun c hc => .inr (hdigits c hc)
  · exact List.forall_mem_cons.mpr ⟨.inl rfl, fun c hc => .inr (hdigits c hc)⟩

end ReceiverLink.Text
