/-
  ReceiverLink.Proofs.Telegram.Remainder
  ────────────────────────────────
  **The checksum as a remainder.**

  Read the bits of a register as the coefficients of a polynomial over the
  field of two elements.  Then `^^^` adds, `shift` multiplies by `x` modulo
  the generator, and `product factor row` is the polynomial of a row of bits
  times a factor.  Multiplying by `x` is linear and loses nothing, keeps the
  sum of the coefficients (the generator has the factor `x + 1`), and comes
  back to where it started after `2 ^ 15 - 1` turns and not before.

  Main statements:
    * `ofBytes_eq_product` — the checksum of bytes is such a product;
    * `product_ne_zero_of_odd` — no row with an odd number of set bits leaves
      the remainder zero;
    * `product_ne_zero_of_burst` — nor one whose set bits are close together;
    * `product_ne_zero_of_pair` — nor one of at most `32767` bits, two of which
      are set.
-/
import Mathlib.Data.Nat.Bitwise
import Mathlib.Data.Nat.PrimeFin
import Mathlib.Dynamics.PeriodicPts.Lemmas
import ReceiverLink.Proofs.Telegram.Layout
import ReceiverLink.Proofs.Telegram.Bits

namespace ReceiverLink

namespace Checksum

/-! ## §1. Coefficients. -/

/-- A coefficient of the register's polynomial. -/
def coefficient (register : UInt16) (i : Nat) : Bool :=
  register.toBitVec.getLsbD i

/-- The register times a bit. -/
def timesBit (register : UInt16) (bit : Bool) : UInt16 :=
  if bit then register else 0

theorem coefficient_xor (a b : UInt16) (i : Nat) :
    coefficient (a ^^^ b) i = (coefficient a i ^^ coefficient b i) := by
  unfold coefficient
  rw [UInt16.toBitVec_xor, BitVec.getLsbD_xor]

theorem coefficient_shiftLeft (register : UInt16) (i : Nat) :
    coefficient (register <<< 1) i
      = (decide (i < 16) && decide (0 < i) && coefficient register (i - 1)) := by
  have hleft : (register <<< 1).toBitVec = register.toBitVec <<< 1 := rfl
  unfold coefficient
  rw [hleft, BitVec.getLsbD_shiftLeft]
  simp [Nat.pos_iff_ne_zero]

/-- The top coefficient is that of the registers from `2 ^ 15` on. -/
theorem coefficient_top (register : UInt16) :
    coefficient register 15 = false ↔ register.toNat < 32768 := by
  have hlt := register.toNat_lt
  unfold coefficient
  rw [BitVec.getLsbD, UInt16.toNat_toBitVec, Nat.testBit_eq_decide_div_mod_eq,
    decide_eq_false_iff_not]
  omega

theorem timesBit_xor (register : UInt16) (a b : Bool) :
    timesBit register (a ^^ b) = timesBit register a ^^^ timesBit register b := by
  cases a <;> cases b <;> simp [timesBit]

/-- Sums may be taken in any order. -/
theorem xor_xor_comm (a b c d : UInt16) : (a ^^^ b) ^^^ (c ^^^ d) = (a ^^^ c) ^^^ (b ^^^ d) := by
  ac_rfl

/-! ## §2. Multiplying by `x`. -/

theorem and_top (register : UInt16) :
    register &&& 0x8000 = 0 ↔ coefficient register 15 = false := by
  have hmask : (register &&& 0x8000).toBitVec = register.toBitVec &&& BitVec.twoPow 16 15 := rfl
  rw [← UInt16.toBitVec_inj, hmask, BitVec.and_twoPow]
  unfold coefficient
  cases register.toBitVec.getLsbD 15 <;> decide

/-- What is moved out at the top comes back as the generator. -/
theorem shift_eq (register : UInt16) :
    shift register = (register <<< 1) ^^^ timesBit generator (coefficient register 15) := by
  unfold shift timesBit
  cases htop : coefficient register 15 with
  | false =>
      rw [if_pos ((and_top register).mpr htop)]
      exact UInt16.xor_zero.symm
  | true =>
      rw [if_neg]
      · rfl
      · rw [and_top, htop]
        decide

theorem shift_zero : shift 0 = 0 := by
  decide

theorem shift_xor (a b : UInt16) : shift (a ^^^ b) = shift a ^^^ shift b := by
  have hleft : (a ^^^ b) <<< 1 = (a <<< 1) ^^^ (b <<< 1) := UInt16.shiftLeft_xor
  rw [shift_eq, shift_eq, shift_eq, coefficient_xor, timesBit_xor, hleft, xor_xor_comm]

/-- A polynomial of degree below `15` is just doubled. -/
theorem toNat_shift {register : UInt16} (h : register.toNat < 32768) :
    (shift register).toNat = 2 * register.toNat := by
  have hzero : timesBit generator false = 0 := rfl
  rw [shift_eq, (coefficient_top register).mpr h, hzero, UInt16.xor_zero, UInt16.toNat_shiftLeft]
  show register.toNat <<< 1 % 65536 = _
  rw [Nat.shiftLeft_eq]
  omega

/-- Multiplying by `x` loses nothing: the generator has a constant term, which
shows whether it was added. -/
theorem shift_eq_zero {register : UInt16} (h : shift register = 0) : register = 0 := by
  have hlow : coefficient (shift register) 0 = coefficient register 15 := by
    rw [shift_eq, coefficient_xor, coefficient_shiftLeft]
    cases coefficient register 15 <;> rfl
  rw [h] at hlow
  have hdouble := toNat_shift ((coefficient_top register).mp hlow.symm)
  have hzero : (0 : UInt16).toNat = 0 := rfl
  rw [h, hzero] at hdouble
  rw [← UInt16.toNat_inj, hzero]
  omega

theorem iterate_xor (k : Nat) (a b : UInt16) :
    shift^[k] (a ^^^ b) = shift^[k] a ^^^ shift^[k] b := by
  induction k generalizing a b with
  | zero => rfl
  | succ k ih =>
      rw [Function.iterate_succ_apply, shift_xor, ih]
      rfl

theorem iterate_zero (k : Nat) : shift^[k] 0 = 0 :=
  Function.iterate_fixed shift_zero k

/-- A polynomial that is not moved out at the top. -/
theorem toNat_iterate {k : Nat} {register : UInt16} (h : register.toNat * 2 ^ k < 65536) :
    (shift^[k] register).toNat = register.toNat * 2 ^ k := by
  induction k with
  | zero => exact (Nat.mul_one _).symm
  | succ k ih =>
      rw [pow_succ, ← Nat.mul_assoc] at h ⊢
      have hbefore := ih (by omega)
      rw [Function.iterate_succ_apply', toNat_shift (by omega), hbefore, Nat.mul_comm]

theorem iterate_eq_zero {k : Nat} {register : UInt16} (h : shift^[k] register = 0) :
    register = 0 := by
  induction k generalizing register with
  | zero => exact h
  | succ k ih => exact shift_eq_zero (ih h)

/-! ## §3. The sum of the coefficients. -/

/-- The sum of the coefficients below an index. -/
def sumBelow (register : UInt16) : Nat → Bool
  | 0 => false
  | n + 1 => sumBelow register n ^^ coefficient register n

/-- The sum of all coefficients, which is the value at `1`. -/
def sum (register : UInt16) : Bool :=
  sumBelow register 16

theorem sumBelow_xor (a b : UInt16) (n : Nat) :
    sumBelow (a ^^^ b) n = (sumBelow a n ^^ sumBelow b n) := by
  induction n with
  | zero => rfl
  | succ n ih =>
      simp only [sumBelow, ih, coefficient_xor, Bool.xor_assoc, Bool.xor_left_comm]

theorem sum_xor (a b : UInt16) : sum (a ^^^ b) = (sum a ^^ sum b) :=
  sumBelow_xor a b 16

theorem sumBelow_shiftLeft (register : UInt16) {n : Nat} (h : n < 16) :
    sumBelow (register <<< 1) (n + 1) = sumBelow register n := by
  induction n with
  | zero =>
      show (false ^^ coefficient (register <<< 1) 0) = false
      rw [coefficient_shiftLeft]
      rfl
  | succ n ih =>
      rw [sumBelow, ih (Nat.lt_of_succ_lt h), coefficient_shiftLeft, decide_eq_true h]
      rfl

/-- **Multiplying by `x` keeps the sum**: what is moved out at the top is made
up for by the generator, of which three coefficients are in the register. -/
theorem sum_shift (register : UInt16) : sum (shift register) = sum register := by
  have hgenerator :
      sum (timesBit generator (coefficient register 15)) = coefficient register 15 := by
    cases coefficient register 15 <;> decide
  rw [shift_eq, sum_xor, hgenerator]
  unfold sum
  rw [sumBelow_shiftLeft register (by decide)]
  rfl

/-! ## §4. Products. -/

/-- The polynomial of a row of bits, highest power first, times a factor. -/
def product (factor : UInt16) (row : List Bool) : UInt16 :=
  row.foldl (fun register bit => shift register ^^^ timesBit factor bit) 0

theorem product_concat (factor : UInt16) (row : List Bool) (bit : Bool) :
    product factor (row ++ [bit]) = shift (product factor row) ^^^ timesBit factor bit := by
  unfold product
  rw [List.foldl_append]
  rfl

theorem product_append (factor : UInt16) (a b : List Bool) :
    product factor (a ++ b) = shift^[b.length] (product factor a) ^^^ product factor b := by
  induction b using List.reverseRecOn with
  | nil =>
      rw [List.append_nil]
      exact UInt16.xor_zero.symm
  | append_singleton b bit ih =>
      rw [← List.append_assoc, product_concat, product_concat, ih, shift_xor, UInt16.xor_assoc,
        List.length_append, ← Function.iterate_succ_apply' shift]
      rfl

/-- One may multiply by `x` before or after. -/
theorem shift_product (factor : UInt16) (row : List Bool) :
    shift (product factor row) = product (shift factor) row := by
  induction row using List.reverseRecOn with
  | nil => exact shift_zero
  | append_singleton row bit ih =>
      have hbit : shift (timesBit factor bit) = timesBit (shift factor) bit := by
        cases bit with
        | false => exact shift_zero
        | true => rfl
      rw [product_concat, product_concat, shift_xor, ih, hbit]

theorem iterate_product (k : Nat) (factor : UInt16) (row : List Bool) :
    shift^[k] (product factor row) = product (shift^[k] factor) row := by
  induction k generalizing factor with
  | zero => rfl
  | succ k ih =>
      rw [Function.iterate_succ_apply, shift_product, ih]
      rfl

theorem product_of_unset (factor : UInt16) {row : List Bool} (h : true ∉ row) :
    product factor row = 0 := by
  induction row using List.reverseRecOn with
  | nil => rfl
  | append_singleton row bit ih =>
      rw [List.mem_append, List.mem_singleton, not_or] at h
      rw [product_concat, ih h.1, shift_zero, Bool.eq_false_of_not_eq_true (Ne.symm h.2)]
      exact UInt16.zero_xor

theorem foldl_zipWith (factor : UInt16) {a b : List Bool} (size : b.length = a.length)
    (r s : UInt16) :
    (List.zipWith (· ^^ ·) a b).foldl (fun r bit => shift r ^^^ timesBit factor bit) (r ^^^ s)
      = a.foldl (fun r bit => shift r ^^^ timesBit factor bit) r
        ^^^ b.foldl (fun r bit => shift r ^^^ timesBit factor bit) s := by
  induction a generalizing b r s with
  | nil =>
      rw [List.eq_nil_of_length_eq_zero size]
      rfl
  | cons bit a ih =>
      match b with
      | bit' :: b =>
          rw [List.zipWith_cons_cons, List.foldl_cons, List.foldl_cons, List.foldl_cons, shift_xor,
            timesBit_xor, xor_xor_comm]
          exact ih (Nat.succ.inj size) _ _

/-- **Products are linear**: the remainder of a difference is the difference
of the remainders. -/
theorem product_difference (factor : UInt16) {bytes corrupt : List UInt8}
    (size : corrupt.length = bytes.length) :
    product factor (difference bytes corrupt)
      = product factor (bits bytes) ^^^ product factor (bits corrupt) := by
  refine foldl_zipWith factor ?_ 0 0
  rw [length_bits, length_bits, size]

/-- A row that fits into the register is its own remainder. -/
theorem toNat_product_one {row : List Bool} (h : row.length ≤ 16) :
    (product 1 row).toNat = valueOf row := by
  induction row using List.reverseRecOn with
  | nil => rfl
  | append_singleton row bit ih =>
      rw [List.length_append, List.length_singleton] at h
      have hvalue := ih (Nat.le_of_succ_le h)
      have hpow : 2 ^ row.length ≤ 2 ^ 15 :=
        Nat.pow_le_pow_right (by decide) (Nat.le_of_succ_le_succ h)
      have hlt : (product 1 row).toNat < 32768 := by
        rw [hvalue]
        exact Nat.lt_of_lt_of_le (valueOf_lt row) hpow
      rw [product_concat, valueOf_concat, UInt16.toNat_xor, toNat_shift hlt, hvalue]
      cases bit with
      | false => exact Nat.xor_zero _
      | true => exact Nat.xor_one_of_even (even_two_mul _)

/-- The sum counts the set bits. -/
theorem sum_product {factor : UInt16} (h : sum factor = true) (row : List Bool) :
    sum (product factor row) = decide (Odd (row.count true)) := by
  induction row using List.reverseRecOn with
  | nil =>
      show sum 0 = decide (Odd 0)
      decide
  | append_singleton row bit ih =>
      have hbit : sum (timesBit factor bit) = bit := by
        cases bit with
        | false =>
            show sum 0 = false
            decide
        | true => exact h
      rw [product_concat, sum_xor, sum_shift, ih, hbit, List.count_append]
      cases bit with
      | false =>
          rw [Bool.xor_false]
          rfl
      | true =>
          rw [Bool.xor_true, ← decide_not]
          exact decide_eq_decide.mpr Nat.odd_add_one.symm

/-! ## §5. Checksums. -/

/-- The bits of a word. -/
def wordBits (w : UInt16) : List Bool :=
  bits (Block.wordBytes w).reverse

theorem valueOf_wordBits (w : UInt16) : valueOf (wordBits w) = w.toNat := by
  have hlow : w.toUInt8.toNat = w.toNat % 256 := rfl
  have hbits : wordBits w = bitsOf (w >>> 8).toUInt8 ++ bitsOf w.toUInt8 := by
    show bitsOf _ ++ (bitsOf _ ++ []) = _
    rw [List.append_nil]
  rw [hbits, valueOf_append, valueOf_bitsOf, valueOf_bitsOf, length_bitsOf, Block.toNat_highByte,
    hlow]
  omega

/-- A word is the remainder of its own bits. -/
theorem product_wordBits (w : UInt16) : product 1 (wordBits w) = w := by
  have hlength : (wordBits w).length = 16 := rfl
  rw [← UInt16.toNat_inj, toNat_product_one (Nat.le_of_eq hlength), valueOf_wordBits]

/-- A byte at the top of the register. -/
theorem byte_shiftLeft (byte : UInt8) :
    byte.toUInt16 <<< 8 = shift^[8] (product 1 (bitsOf byte)) := by
  have hlt := byte.toNat_lt
  have hbyte : (product 1 (bitsOf byte)).toNat = byte.toNat := by
    rw [toNat_product_one (length_bitsOf byte ▸ by decide), valueOf_bitsOf]
  have hmoved : (byte.toUInt16 <<< 8).toNat = byte.toNat <<< 8 % 65536 := rfl
  rw [← UInt16.toNat_inj, hmoved, toNat_iterate (by rw [hbyte]; omega), hbyte, Nat.shiftLeft_eq]
  omega

/-- Taking in a byte is taking in its bits. -/
theorem update_eq (register : UInt16) (byte : UInt8) :
    update register byte = shift^[8] register ^^^ product generator (bitsOf byte) := by
  have hgenerator : shift^[8] (shift^[8] 1) = generator := by decide +kernel
  show shift^[8] (register ^^^ (byte.toUInt16 <<< 8)) = _
  rw [iterate_xor, byte_shiftLeft, iterate_product, iterate_product, hgenerator]

/-- **The checksum is a remainder**: that of the bits, moved up by sixteen
places, which is where the checksum itself goes. -/
theorem ofBytes_eq_product (bytes : List UInt8) :
    ofBytes bytes = product generator (bits bytes) := by
  induction bytes using List.reverseRecOn with
  | nil => rfl
  | append_singleton bytes byte ih =>
      have hbits : bits [byte] = bitsOf byte := List.append_nil _
      have hlast : ofBytes (bytes ++ [byte]) = update (ofBytes bytes) byte := by
        unfold ofBytes
        rw [List.foldl_append]
        rfl
      rw [hlast, update_eq, ih, bits_append, hbits, product_append, length_bitsOf]

/-! ## §6. The order of `x`. -/

/-- The square of a register. -/
def square (w : UInt16) : UInt16 :=
  product w (wordBits w)

/-- A power of `x`, its exponent in bits. -/
def power (exponent : List Bool) : UInt16 :=
  exponent.foldl (fun w bit => if bit then shift (square w) else square w) 1

/-- Multiplying by a power of `x` is multiplying by its remainder. -/
theorem iterate_eq_product (k : Nat) (w : UInt16) :
    shift^[k] w = product (shift^[k] 1) (wordBits w) := by
  rw [← iterate_product, product_wordBits]

theorem power_eq (exponent : List Bool) : power exponent = shift^[valueOf exponent] 1 := by
  induction exponent using List.reverseRecOn with
  | nil => rfl
  | append_singleton exponent bit ih =>
      have hsquare : shift^[2 * valueOf exponent] 1 = square (power exponent) := by
        rw [Nat.two_mul, Function.iterate_add_apply, iterate_eq_product, ih]
        rfl
      have hpower : power (exponent ++ [bit])
          = if bit then shift (square (power exponent)) else square (power exponent) := by
        unfold power
        rw [List.foldl_append]
        rfl
      rw [hpower, valueOf_concat, ← hsquare]
      cases bit with
      | false => rfl
      | true => exact (Function.iterate_succ_apply' shift _ _).symm

/-- The powers of `x` by repeated squaring. -/
theorem iterate_eq_power {n : Nat} (h : n < 2 ^ 15) :
    shift^[n] 1 = power ((List.range 15).reverse.map n.testBit) := by
  rw [power_eq, valueOf_testBit, Nat.mod_eq_of_lt h]

/-- The powers of `x` come back to `1`. -/
theorem isPeriodicPt_shift : Function.IsPeriodicPt shift 32767 1 := by
  show shift^[32767] 1 = 1
  rw [iterate_eq_power (by decide)]
  decide +kernel

/-- They do not come back after a part of that, as `32767 = 7 * 31 * 151`. -/
theorem not_isPeriodicPt_shift {p : Nat} (hp : p.Prime) (hdvd : p ∣ 32767) :
    ¬Function.IsPeriodicPt shift (32767 / p) 1 := by
  have hfactors : Nat.primeFactors 32767 = {7, 31, 151} := by decide +kernel
  have hmem : p ∈ Nat.primeFactors 32767 := Nat.mem_primeFactors.mpr ⟨hp, hdvd, by decide⟩
  rw [hfactors, Finset.mem_insert, Finset.mem_insert, Finset.mem_singleton] at hmem
  show shift^[32767 / p] 1 ≠ 1
  rcases hmem with rfl | rfl | rfl
  all_goals
    rw [iterate_eq_power (by decide)]
    decide +kernel

/-- **The order of `x`** is `2 ^ 15 - 1`. -/
theorem minimalPeriod_shift : Function.minimalPeriod shift 1 = 32767 := by
  obtain ⟨k, hk⟩ := isPeriodicPt_shift.minimalPeriod_dvd
  by_cases hone : k = 1
  · rw [hk, hone, Nat.mul_one]
  · -- otherwise it is a part of `32767` from which a prime factor is left out
    have hprime := Nat.minFac_prime hone
    have hfactor : k.minFac ∣ k := k.minFac_dvd
    refine absurd ?_ (not_isPeriodicPt_shift hprime (hfactor.trans (Dvd.intro_left _ hk.symm)))
    rw [Function.isPeriodicPt_iff_minimalPeriod_dvd, hk, Nat.mul_div_assoc _ hfactor]
    exact Nat.dvd_mul_right _ _

theorem iterate_ne_one {k : Nat} (pos : 0 < k) (h : k < 32767) : shift^[k] 1 ≠ 1 :=
  Function.not_isPeriodicPt_of_pos_of_lt_minimalPeriod (Nat.ne_of_gt pos) (minimalPeriod_shift ▸ h)

/-! ## §7. Rows whose remainder is not zero. -/

/-- **An odd number of set bits** leaves a remainder. -/
theorem product_ne_zero_of_odd {row : List Bool} (h : Odd (row.count true)) :
    product 1 row ≠ 0 := by
  intro hzero
  have hsum : sum (product 1 row) = decide (Odd (row.count true)) := sum_product (by decide) row
  rw [hzero, decide_eq_true h] at hsum
  exact absurd hsum (by decide)

/-- **Set bits that are close together** leave a remainder. -/
theorem product_ne_zero_of_burst {before burst after : List Bool} (hbefore : true ∉ before)
    (hafter : true ∉ after) (short : burst.length ≤ 16) (set : true ∈ burst) :
    product 1 (before ++ burst ++ after) ≠ 0 := by
  intro hzero
  rw [product_append, product_append, product_of_unset 1 hbefore, product_of_unset 1 hafter,
    iterate_zero, UInt16.zero_xor, UInt16.xor_zero] at hzero
  -- the burst itself fits into the register
  have hburst := iterate_eq_zero hzero
  have hvalue := toNat_product_one short
  rw [hburst] at hvalue
  exact absurd hvalue (Nat.ne_of_lt (valueOf_pos set))

/-- One set bit leaves a power of `x`. -/
theorem product_of_single {before after : List Bool} (hbefore : true ∉ before)
    (hafter : true ∉ after) : product 1 (before ++ true :: after) = shift^[after.length] 1 := by
  have hone : product 1 [true] = 1 := by decide
  rw [← List.singleton_append, ← List.append_assoc, product_append, product_append,
    product_of_unset 1 hbefore, product_of_unset 1 hafter, iterate_zero, hone, UInt16.zero_xor,
    UInt16.xor_zero]

/-- **Two set bits** leave a remainder, as long as the row is not longer than
the order of `x`. -/
theorem product_ne_zero_of_pair {row : List Bool} (pair : row.count true = 2)
    (short : row.length ≤ 32767) : product 1 row ≠ 0 := by
  obtain ⟨before, rest, rfl, hbefore⟩ :=
    List.eq_append_cons_of_mem (List.count_pos_iff.mp (show 0 < row.count true by omega))
  have hrest : rest.count true = 1 := by
    rw [List.count_append, List.count_cons_self, List.count_eq_zero.mpr hbefore] at pair
    omega
  obtain ⟨middle, after, rfl, hmiddle⟩ :=
    List.eq_append_cons_of_mem (List.count_pos_iff.mp (show 0 < rest.count true by omega))
  have hafter : true ∉ after := by
    rw [List.count_append, List.count_cons_self, List.count_eq_zero.mpr hmiddle] at hrest
    exact List.count_eq_zero.mp (by omega)
  have hapart : middle.length + 1 < 32767 := by
    simp only [List.length_append, List.length_cons] at short
    omega
  intro hzero
  -- both bits are moved up by what comes after the second one
  have hsum : shift^[after.length] (shift^[middle.length + 1] 1 ^^^ 1) = 0 := by
    have hfirst := product_of_single hbefore hmiddle
    have hsecond := product_of_single (List.not_mem_nil (a := true)) hafter
    rw [List.nil_append] at hsecond
    rw [← List.cons_append, ← List.append_assoc, product_append, hfirst, hsecond, List.length_cons,
      Function.iterate_succ_apply, ← Function.iterate_succ_apply' shift] at hzero
    rw [iterate_xor]
    exact hzero
  exact iterate_ne_one (Nat.succ_pos _) hapart (UInt16.xor_eq_zero_iff.mp (iterate_eq_zero hsum))

end Checksum

end ReceiverLink
