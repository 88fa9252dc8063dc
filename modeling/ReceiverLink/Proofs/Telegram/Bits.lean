/-
  ReceiverLink.Proofs.Telegram.Bits
  ────────────────────────────────
  **Bytes as rows of bits.**

  The checksum takes the bits of a byte from the most significant one on, and
  `bits` lays out a byte sequence in that order.  A row of bits stands for a
  number, `valueOf`.  Where two byte sequences have different bits is said
  twice: by the places, `changes`, and by a row in which those bits are set,
  `difference`.

  Main statements:
    * `valueOf_bitsOf` — a byte is the number that its bits stand for;
    * `getElem?_eq_of_kept` — a byte of which no bit changes is the same;
    * `card_changes` — as many bits change as are set in the difference.
-/
import Mathlib.Algebra.Group.Nat.Even
import Mathlib.Data.Finset.Card
import Mathlib.Data.List.Induction
import Mathlib.Data.Nat.Count
import Mathlib.Order.Interval.Finset.Nat
import Mathlib.Tactic.Ring

namespace ReceiverLink

/-! ## §1. Rows of bits. -/

/-- The bits of a byte, most significant first. -/
def bitsOf (byte : UInt8) : List Bool :=
  (List.range 8).reverse.map byte.toNat.testBit

/-- The bits of a byte sequence. -/
def bits (bytes : List UInt8) : List Bool :=
  bytes.flatMap bitsOf

/-- The number that a row of bits stands for, most significant first. -/
def valueOf (row : List Bool) : Nat :=
  row.foldl (fun n bit => 2 * n + bit.toNat) 0

theorem bits_cons (byte : UInt8) (rest : List UInt8) :
    bits (byte :: rest) = bitsOf byte ++ bits rest :=
  rfl

theorem bits_append (a b : List UInt8) : bits (a ++ b) = bits a ++ bits b :=
  List.flatMap_append

@[simp] theorem length_bitsOf (byte : UInt8) : (bitsOf byte).length = 8 :=
  rfl

@[simp] theorem length_bits (bytes : List UInt8) : (bits bytes).length = 8 * bytes.length := by
  induction bytes with
  | nil => rfl
  | cons byte rest ih =>
      rw [bits_cons, List.length_append, ih, length_bitsOf, List.length_cons]
      omega

theorem valueOf_concat (row : List Bool) (bit : Bool) :
    valueOf (row ++ [bit]) = 2 * valueOf row + bit.toNat := by
  unfold valueOf
  rw [List.foldl_append]
  rfl

/-- Bits that come later count less. -/
theorem valueOf_append (a b : List Bool) :
    valueOf (a ++ b) = valueOf a * 2 ^ b.length + valueOf b := by
  induction b using List.reverseRecOn with
  | nil =>
      rw [List.append_nil]
      exact (Nat.mul_one _).symm
  | append_singleton b bit ih =>
      rw [← List.append_assoc, valueOf_concat, valueOf_concat, ih, List.length_append,
        List.length_singleton, pow_succ]
      ring

/-- A number below `2 ^ k` is what its `k` low bits stand for. -/
theorem valueOf_testBit (n k : Nat) :
    valueOf ((List.range k).reverse.map n.testBit) = n % 2 ^ k := by
  induction k with
  | zero => exact (Nat.mod_one n).symm
  | succ k ih =>
      have hfirst : valueOf [n.testBit k] = n / 2 ^ k % 2 := by
        show 2 * 0 + (n.testBit k).toNat = _
        rw [Nat.toNat_testBit, Nat.mul_zero, Nat.zero_add]
      rw [List.range_succ, List.reverse_append, List.reverse_singleton, List.map_append,
        List.map_singleton, valueOf_append, hfirst, ih, List.length_map, List.length_reverse,
        List.length_range, Nat.mod_pow_succ]
      ring

theorem valueOf_bitsOf (byte : UInt8) : valueOf (bitsOf byte) = byte.toNat :=
  (valueOf_testBit byte.toNat 8).trans (Nat.mod_eq_of_lt byte.toNat_lt)

theorem bitsOf_injective : Function.Injective bitsOf := by
  intro a b h
  rw [← UInt8.toNat_inj, ← valueOf_bitsOf, h, valueOf_bitsOf]

theorem valueOf_lt (row : List Bool) : valueOf row < 2 ^ row.length := by
  induction row using List.reverseRecOn with
  | nil => decide
  | append_singleton row bit ih =>
      have hbit := bit.toNat_lt
      rw [valueOf_concat, List.length_append, List.length_singleton, pow_succ]
      omega

/-- A row in which a bit is set does not stand for zero. -/
theorem valueOf_pos {row : List Bool} (h : true ∈ row) : 0 < valueOf row := by
  induction row using List.reverseRecOn with
  | nil => exact absurd h List.not_mem_nil
  | append_singleton row bit ih =>
      rw [valueOf_concat]
      rcases List.mem_append.mp h with hbefore | hlast
      · have hpos := ih hbefore
        omega
      · rw [← List.mem_singleton.mp hlast]
        exact Nat.succ_pos _

/-! ## §2. Where bits change. -/

/-- The places of the bits of some bytes, from one byte up to another. -/
def bitsIn (first last : Nat) : Finset Nat :=
  Finset.Ico (8 * first) (8 * last)

/-- The places at which two byte sequences have different bits. -/
def changes (bytes corrupt : List UInt8) : Finset Nat :=
  {i ∈ Finset.range (8 * bytes.length) | (bits bytes)[i]? ≠ (bits corrupt)[i]?}

/-- A bit is a bit of its byte. -/
theorem getElem?_bits (bytes : List UInt8) (i : Nat) :
    (bits bytes)[i]? = bytes[i / 8]?.bind fun byte => (bitsOf byte)[i % 8]? := by
  induction bytes generalizing i with
  | nil => rfl
  | cons byte rest ih =>
      rw [bits_cons]
      by_cases hfirst : i < 8
      · rw [List.getElem?_append_left hfirst, Nat.div_eq_of_lt hfirst, Nat.mod_eq_of_lt hfirst]
        rfl
      · have hdiv : i / 8 = (i - 8) / 8 + 1 := by omega
        have hmod : i % 8 = (i - 8) % 8 := by omega
        rw [List.getElem?_append_right (Nat.le_of_not_lt hfirst), length_bitsOf, ih, hdiv, hmod,
          List.getElem?_cons_succ]

variable {bytes corrupt : List UInt8}

theorem mem_changes {i : Nat} :
    i ∈ changes bytes corrupt
      ↔ i < 8 * bytes.length ∧ (bits bytes)[i]? ≠ (bits corrupt)[i]? := by
  unfold changes
  rw [Finset.mem_filter, Finset.mem_range]

/-- Where a bit changes, the byte does. -/
theorem ne_of_mem_changes {i : Nat} (h : i ∈ changes bytes corrupt) :
    bytes[i / 8]? ≠ corrupt[i / 8]? := by
  intro hsame
  apply (mem_changes.mp h).2
  rw [getElem?_bits, getElem?_bits, hsame]

/-- **A byte of which no bit changes** is the same. -/
theorem getElem?_eq_of_kept (size : corrupt.length = bytes.length) {j : Nat}
    (kept : ∀ i ∈ changes bytes corrupt, i / 8 ≠ j) : corrupt[j]? = bytes[j]? := by
  by_cases hj : j < bytes.length
  · have hj' : j < corrupt.length := size ▸ hj
    rw [List.getElem?_eq_getElem hj, List.getElem?_eq_getElem hj']
    refine congrArg some (bitsOf_injective (List.ext_getElem? fun k => ?_))
    by_cases hk : k < 8
    · -- the bit at `k` of the byte is the one at `8 * j + k`
      have hdiv : (8 * j + k) / 8 = j := by omega
      have hmod : (8 * j + k) % 8 = k := by omega
      have hplace : 8 * j + k < 8 * bytes.length := by omega
      have hsame : (bits bytes)[8 * j + k]? = (bits corrupt)[8 * j + k]? := by
        by_contra hdiffer
        exact kept _ (mem_changes.mpr ⟨hplace, hdiffer⟩) hdiv
      rw [getElem?_bits, getElem?_bits, hdiv, hmod, List.getElem?_eq_getElem hj,
        List.getElem?_eq_getElem hj'] at hsame
      exact hsame.symm
    · have hend := Nat.le_of_not_lt hk
      rw [List.getElem?_eq_none hend, List.getElem?_eq_none hend]
  · have hend := Nat.le_of_not_lt hj
    rw [List.getElem?_eq_none hend, List.getElem?_eq_none (size ▸ hend)]

/-- Where no bit changes, nothing does. -/
theorem eq_of_changes_empty (size : corrupt.length = bytes.length)
    (h : changes bytes corrupt = ∅) : corrupt = bytes := by
  refine List.ext_getElem? fun j => getElem?_eq_of_kept size ?_
  rw [h]
  exact fun i hi => absurd hi (Finset.notMem_empty i)

/-- Changes of two bytes next to each other lie in sixteen places in a row. -/
theorem changes_subset_pair {k : Nat}
    (kept : ∀ j, j ≠ k → j ≠ k + 1 → corrupt[j]? = bytes[j]?) :
    changes bytes corrupt ⊆ Finset.Ico (8 * k) (8 * k + 16) := by
  intro i hi
  have hbyte : i / 8 = k ∨ i / 8 = k + 1 := by
    by_contra hother
    rw [not_or] at hother
    exact ne_of_mem_changes hi (kept _ hother.1 hother.2).symm
  rw [Finset.mem_Ico]
  omega

/-! ## §3. The difference. -/

/-- The row in which just the bits are set that differ. -/
def difference (bytes corrupt : List UInt8) : List Bool :=
  List.zipWith (· ^^ ·) (bits bytes) (bits corrupt)

theorem length_difference (size : corrupt.length = bytes.length) :
    (difference bytes corrupt).length = 8 * bytes.length := by
  unfold difference
  rw [List.length_zipWith, length_bits, length_bits, size, Nat.min_self]

theorem difference_append {a a' : List UInt8} (size : a'.length = a.length) (b b' : List UInt8) :
    difference (a ++ b) (a' ++ b') = difference a a' ++ difference b b' := by
  unfold difference
  rw [bits_append, bits_append, List.zipWith_append]
  rw [length_bits, length_bits, size]

/-- Nothing differs from itself. -/
theorem difference_self (bytes : List UInt8) : true ∉ difference bytes bytes := by
  unfold difference
  rw [List.zipWith_self, List.mem_map]
  rintro ⟨bit, -, hbit⟩
  rw [Bool.xor_self] at hbit
  exact Bool.false_ne_true hbit

/-- A bit changes where the difference is set. -/
theorem getElem?_difference (size : corrupt.length = bytes.length) (i : Nat) :
    (difference bytes corrupt)[i]? = some true ↔ i ∈ changes bytes corrupt := by
  have hlength : (bits corrupt).length = (bits bytes).length := by
    rw [length_bits, length_bits, size]
  rw [mem_changes, ← length_bits]
  unfold difference
  rw [List.getElem?_zipWith]
  by_cases hi : i < (bits bytes).length
  · rw [List.getElem?_eq_getElem hi, List.getElem?_eq_getElem (hlength ▸ hi), and_iff_right hi]
    simp
  · rw [List.getElem?_eq_none (Nat.le_of_not_lt hi)]
    constructor
    · intro h
      cases h
    · intro h
      exact absurd h.1 hi

/-- The set bits of a row, counted by their places. -/
theorem count_set (row : List Bool) :
    Nat.count (fun i => row[i]? = some true) row.length = row.count true := by
  induction row with
  | nil => rfl
  | cons bit rest ih =>
      rw [List.length_cons, Nat.count_succ', List.count_cons]
      simp only [List.getElem?_cons_succ, List.getElem?_cons_zero, ih]
      cases bit <;> rfl

/-- **As many bits change** as are set in the difference. -/
theorem card_changes (size : corrupt.length = bytes.length) :
    (changes bytes corrupt).card = (difference bytes corrupt).count true := by
  rw [← count_set, length_difference size, Nat.count_eq_card_filter_range]
  congr 1
  ext i
  rw [Finset.mem_filter, getElem?_difference size, Finset.mem_range]
  exact ⟨fun h => ⟨(mem_changes.mp h).1, h⟩, And.right⟩

/-- Changes in a window set nothing before it and nothing after it. -/
theorem difference_window (size : corrupt.length = bytes.length) {start width : Nat}
    (window : changes bytes corrupt ⊆ Finset.Ico start (start + width)) :
    true ∉ (difference bytes corrupt).take start
      ∧ true ∉ (difference bytes corrupt).drop (start + width) := by
  constructor
  · intro hset
    obtain ⟨i, hi⟩ := List.mem_iff_getElem?.mp hset
    rw [List.getElem?_take] at hi
    split at hi
    next hbefore =>
      have hplace := Finset.mem_Ico.mp (window ((getElem?_difference size i).mp hi))
      omega
    next => cases hi
  · intro hset
    obtain ⟨i, hi⟩ := List.mem_iff_getElem?.mp hset
    rw [List.getElem?_drop] at hi
    have hplace := Finset.mem_Ico.mp (window ((getElem?_difference size _).mp hi))
    omega

end ReceiverLink
