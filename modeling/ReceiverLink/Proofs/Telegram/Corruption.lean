/-
  ReceiverLink.Proofs.Telegram.Corruption
  ────────────────────────────────
  **Which corruptions of a block are detected.**

  A block is valid if the generator divides its `codeword`: the bytes that the
  checksum covers, and after them the checksum that is stated.  So a corruption
  passes only if the generator divides the difference of two codewords, and of
  the rows that it does not divide there are enough.

  Main statements:
    * `isValid_iff_codeword` — validity as divisibility;
    * `few_changes_detected` — an odd number of changed bits is detected, and so
      are two, unless the block is very long;
    * `bursts_detected` — so is any change within sixteen bits in a row, and any
      change of the checksum alone.
-/
import ReceiverLink.Proofs.Telegram.Remainder

namespace ReceiverLink

namespace Block

variable {bytes corrupt : List UInt8}

/-! ## §1. Codewords. -/

/-- What the checksum covers, and then the stated checksum, high byte first. -/
def codeword : List UInt8 → List UInt8
  | _ :: _ :: low :: high :: covered => covered ++ [high, low]
  | _ => []

/-- A whole header has the parts of a codeword. -/
theorem exists_parts (header : headerSize ≤ bytes.length) :
    ∃ sync sync' low high covered, bytes = [sync, sync'] ++ [low, high] ++ covered := by
  unfold headerSize at header
  match bytes with
  | sync :: sync' :: low :: high :: covered => exact ⟨sync, sync', low, high, covered, rfl⟩
  | [] | [_] | [_, _] | [_, _, _] => simp at header

theorem length_codeword (header : headerSize ≤ bytes.length) :
    (codeword bytes).length + 2 = bytes.length := by
  obtain ⟨_, _, _, _, _, rfl⟩ := exists_parts header
  simp [codeword]

/-- Only what has a header is valid. -/
theorem header_of_isValid (valid : isValid bytes = true) : headerSize ≤ bytes.length := by
  by_contra hshort
  have hnone : checksum? bytes = none := by
    unfold checksum?
    cases length? bytes with
    | none => rfl
    | some w =>
        show (if w.toNat < headerSize ∨ bytes.length < w.toNat then none else _) = none
        rw [if_pos (by omega)]
  unfold isValid at valid
  rw [hnone] at valid
  cases hstated : statedChecksum? bytes <;> rw [hstated] at valid <;> cases valid

/-- **A block is valid** if the generator divides its codeword. -/
theorem isValid_iff_codeword (header : headerSize ≤ bytes.length)
    (length : WordAt bytes 6 bytes.length) :
    isValid bytes = true ↔ Checksum.product 1 (bits (codeword bytes)) = 0 := by
  rw [isValid_iff header length]
  obtain ⟨sync, sync', low, high, covered, rfl⟩ := exists_parts header
  have hstated : (Checksum.product 1 (bits [high, low])).toNat = low.toNat + 256 * high.toNat := by
    have hlen : (bits [high, low]).length ≤ 16 := Nat.le_of_eq (length_bits _)
    have hbits : bits [high, low] = bitsOf high ++ bitsOf low := by
      rw [bits_cons, bits_cons]
      exact congrArg _ (List.append_nil _)
    rw [Checksum.toNat_product_one hlen, hbits, valueOf_append, valueOf_bitsOf, valueOf_bitsOf,
      length_bitsOf]
    omega
  have hcovered : Checksum.shift^[16] (Checksum.product 1 (bits covered))
      = Checksum.ofBytes covered := by
    have hgenerator : Checksum.shift^[16] 1 = Checksum.generator := by decide +kernel
    rw [Checksum.iterate_product, hgenerator, Checksum.ofBytes_eq_product]
  have hcodeword : codeword ([sync, sync'] ++ [low, high] ++ covered)
      = covered ++ [high, low] := rfl
  have hdrop : ([sync, sync'] ++ [low, high] ++ covered).drop 4 = covered := rfl
  rw [hdrop, hcodeword, bits_append, Checksum.product_append, length_bits]
  show _ ↔ Checksum.shift^[16] _ ^^^ _ = 0
  rw [hcovered, UInt16.xor_eq_zero_iff, ← UInt16.toNat_inj, hstated]
  constructor
  · rintro ⟨l, k, hl, hk, h⟩
    injection hl with hl
    injection hk with hk
    rw [h, hl, hk]
  · intro h
    exact ⟨low, high, rfl, rfl, h⟩

/-! ## §2. Corrupted blocks. -/

/-- A valid block, and what has become of it on the way: all bytes are there,
and the sync bytes and the length are as they were. -/
structure Corrupted (bytes corrupt : List UInt8) : Prop where
  valid : isValid bytes = true
  whole : (length? bytes).map UInt16.toNat = some bytes.length
  size : corrupt.length = bytes.length
  place : changes bytes corrupt ⊆ bitsIn 2 4 ∪ bitsIn 4 6 ∪ bitsIn 8 bytes.length

theorem mem_bitsIn {first last i : Nat} :
    i ∈ bitsIn first last ↔ first ≤ i / 8 ∧ i / 8 < last := by
  unfold bitsIn
  rw [Finset.mem_Ico]
  omega

/-- The stated length, as a word. -/
theorem wordAt_length {n : Nat} (h : (length? bytes).map UInt16.toNat = some n) :
    WordAt bytes 6 n := by
  obtain ⟨w, hw, rfl⟩ := Option.map_eq_some_iff.mp h
  exact (word?_eq_some_iff bytes 6 w).mp hw

/-- Two bytes that are kept are kept as a word. -/
theorem WordAt.of_kept {offset n : Nat} (h : WordAt bytes offset n)
    (low : corrupt[offset]? = bytes[offset]?) (high : corrupt[offset + 1]? = bytes[offset + 1]?) :
    WordAt corrupt offset n := by
  unfold WordAt
  rw [low, high]
  exact h

namespace Corrupted

variable (h : Corrupted bytes corrupt)

include h

theorem header : headerSize ≤ bytes.length :=
  header_of_isValid h.valid

/-- Bytes outside the parts that may change are kept. -/
theorem kept {j : Nat} (outside : j < 2 ∨ 6 ≤ j ∧ j < 8) : corrupt[j]? = bytes[j]? := by
  refine getElem?_eq_of_kept h.size fun i hi => ?_
  have hplace := h.place hi
  rw [Finset.mem_union, Finset.mem_union, mem_bitsIn, mem_bitsIn, mem_bitsIn] at hplace
  omega

/-- A corrupted block part by part. -/
theorem parts (header' : headerSize ≤ corrupt.length) :
    ∃ sync sync' low high covered low' high' covered',
      bytes = [sync, sync'] ++ [low, high] ++ covered
        ∧ corrupt = [sync, sync'] ++ [low', high'] ++ covered'
        ∧ covered'.length = covered.length := by
  have hfirst := h.kept (j := 0) (by omega)
  have hsecond := h.kept (j := 1) (by omega)
  have hsize := h.size
  obtain ⟨sync, sync', low, high, covered, rfl⟩ := exists_parts h.header
  obtain ⟨_, _, low', high', covered', rfl⟩ := exists_parts header'
  cases hfirst
  cases hsecond
  exact ⟨sync, sync', low, high, covered, low', high', covered', rfl, rfl, by simpa using hsize⟩

/-- The difference of the blocks and that of their codewords have the same
parts: that of what is covered, and that of the stated checksum. -/
theorem differences (header' : headerSize ≤ corrupt.length) :
    ∃ sync sync' low high covered low' high' covered',
      bytes = [sync, sync'] ++ [low, high] ++ covered
        ∧ corrupt = [sync, sync'] ++ [low', high'] ++ covered'
        ∧ difference bytes corrupt
          = difference [sync, sync'] [sync, sync'] ++ difference [low, high] [low', high']
            ++ difference covered covered'
        ∧ difference (codeword bytes) (codeword corrupt)
          = difference covered covered' ++ difference [high, low] [high', low'] := by
  obtain ⟨sync, sync', low, high, covered, low', high', covered', rfl, rfl, hsize⟩ :=
    h.parts header'
  refine ⟨sync, sync', low, high, covered, low', high', covered', rfl, rfl, ?_, ?_⟩
  · have hstart : ([sync, sync'] ++ [low', high']).length = ([sync, sync'] ++ [low, high]).length :=
      rfl
    rw [difference_append hstart]
    exact congrArg (· ++ _) (difference_append (a := [sync, sync']) rfl _ _)
  · exact difference_append hsize _ _

/-- **What passes for valid** differs by a multiple of the generator. -/
theorem product_eq_zero (passes : isValid corrupt = true) :
    Checksum.product 1 (difference (codeword bytes) (codeword corrupt)) = 0 := by
  have hlength := wordAt_length h.whole
  have hlength' : WordAt corrupt 6 corrupt.length := by
    rw [h.size]
    exact hlength.of_kept (h.kept (by omega)) (h.kept (by omega))
  have hheader' := header_of_isValid passes
  have hzero := (isValid_iff_codeword h.header hlength).mp h.valid
  have hzero' := (isValid_iff_codeword hheader' hlength').mp passes
  have hsize : (codeword corrupt).length = (codeword bytes).length := by
    have hcount := length_codeword h.header
    have hcount' := length_codeword hheader'
    have hsame := h.size
    omega
  rw [Checksum.product_difference 1 hsize, hzero, hzero']
  rfl

/-- As many bits of the codeword change as of the block. -/
theorem count_codeword (header' : headerSize ≤ corrupt.length) :
    (difference (codeword bytes) (codeword corrupt)).count true
      = (changes bytes corrupt).card := by
  rw [card_changes h.size]
  obtain ⟨sync, sync', low, high, covered, low', high', covered', -, -, hblock, hcodeword⟩ :=
    h.differences header'
  have hsync : (difference [sync, sync'] [sync, sync']).count true = 0 :=
    List.count_eq_zero.mpr (difference_self _)
  have hstated : (difference [high, low] [high', low']).count true
      = (difference [low, high] [low', high']).count true := by
    have hswap : ∀ a b a' b' : UInt8, (difference [a, b] [a', b']).count true
        = (difference [a] [a']).count true + (difference [b] [b']).count true := by
      intro a b a' b'
      have hsize : [a'].length = [a].length := rfl
      have hsplit : difference ([a] ++ [b]) ([a'] ++ [b'])
          = difference [a] [a'] ++ difference [b] [b'] := difference_append hsize _ _
      show (difference ([a] ++ [b]) ([a'] ++ [b'])).count true = _
      rw [hsplit, List.count_append]
    rw [hswap, hswap, Nat.add_comm]
  rw [hblock, hcodeword, List.count_append, List.count_append, List.count_append, hsync, hstated]
  omega

/-! ## §3. What is detected. -/

/-- An odd number of changes is detected. -/
theorem detects_odd (odd : Odd (changes bytes corrupt).card) : isValid corrupt = false := by
  refine Bool.eq_false_of_not_eq_true fun passes => ?_
  refine Checksum.product_ne_zero_of_odd ?_ (h.product_eq_zero passes)
  rw [h.count_codeword (header_of_isValid passes)]
  exact odd

/-- Two changes are detected, as far as the order of `x` reaches. -/
theorem detects_pair (pair : (changes bytes corrupt).card = 2) (short : bytes.length ≤ 4097) :
    isValid corrupt = false := by
  refine Bool.eq_false_of_not_eq_true fun passes => ?_
  have hheader' := header_of_isValid passes
  refine Checksum.product_ne_zero_of_pair ?_ ?_ (h.product_eq_zero passes)
  · rw [h.count_codeword hheader', pair]
  · have hsize := length_codeword h.header
    have hsize' := length_codeword hheader'
    have hsame := h.size
    rw [length_difference (by omega)]
    omega

/-- A change of the stated checksum alone is detected. -/
theorem detects_checksum (only : changes bytes corrupt ⊆ bitsIn 2 4)
    (some : (changes bytes corrupt).Nonempty) : isValid corrupt = false := by
  refine Bool.eq_false_of_not_eq_true fun passes => ?_
  have hheader' := header_of_isValid passes
  have hzero := h.product_eq_zero passes
  have hcount := h.count_codeword hheader'
  have hpos := Finset.card_pos.mpr some
  have hkept : ∀ j, corrupt[j + 4]? = bytes[j + 4]? := by
    intro j
    refine getElem?_eq_of_kept h.size fun i hi => ?_
    have hplace := mem_bitsIn.mp (only hi)
    omega
  obtain ⟨sync, sync', low, high, covered, low', high', covered', rfl, rfl, -, hcodeword⟩ :=
    h.differences hheader'
  obtain rfl : covered' = covered := List.ext_getElem? hkept
  -- what is covered is the same, so the burst is the checksum
  have hset : true ∈ difference [high, low] [high', low'] := by
    rw [← List.count_pos_iff]
    rw [hcodeword, List.count_append, List.count_eq_zero.mpr (difference_self covered')] at hcount
    omega
  have hshort : (difference [high, low] [high', low']).length ≤ 16 :=
    Nat.le_of_eq (length_difference (show [high', low'].length = [high, low].length from rfl))
  rw [hcodeword, ← List.append_nil (_ ++ _)] at hzero
  exact Checksum.product_ne_zero_of_burst (difference_self covered') List.not_mem_nil hshort hset
    hzero

/-- A burst in what is covered is detected. -/
theorem detects_burst (only : changes bytes corrupt ⊆ bitsIn 4 bytes.length) {start : Nat}
    (burst : changes bytes corrupt ⊆ Finset.Ico start (start + 16))
    (some : (changes bytes corrupt).Nonempty) : isValid corrupt = false := by
  refine Bool.eq_false_of_not_eq_true fun passes => ?_
  have hheader' := header_of_isValid passes
  have hzero := h.product_eq_zero passes
  have hkept : ∀ j, j < 4 → corrupt[j]? = bytes[j]? := by
    intro j hj
    refine getElem?_eq_of_kept h.size fun i hi => ?_
    have hplace := mem_bitsIn.mp (only hi)
    omega
  -- the stated checksum is the same, so that the blocks differ by a multiple, too
  have hblock : Checksum.product 1 (difference bytes corrupt) = 0 := by
    obtain ⟨sync, sync', low, high, covered, low', high', covered', rfl, rfl, hblock, hcodeword⟩ :=
      h.differences hheader'
    have hlow := hkept 2 (by decide)
    have hhigh := hkept 3 (by decide)
    cases hlow
    cases hhigh
    rw [hcodeword, Checksum.product_append,
      Checksum.product_of_unset 1 (difference_self [high, low]), UInt16.xor_zero] at hzero
    rw [hblock, ← difference_append rfl, Checksum.product_append,
      Checksum.product_of_unset 1 (difference_self _), Checksum.iterate_zero, UInt16.zero_xor]
    exact Checksum.iterate_eq_zero hzero
  obtain ⟨hbefore, hafter⟩ := difference_window h.size burst
  obtain ⟨i, hi⟩ := some
  have hplace := Finset.mem_Ico.mp (burst hi)
  have hset : true ∈ ((difference bytes corrupt).drop start).take 16 := by
    refine List.mem_iff_getElem?.mpr ⟨i - start, ?_⟩
    rw [List.getElem?_take_of_lt (by omega), List.getElem?_drop, Nat.add_sub_cancel' hplace.1]
    exact (getElem?_difference h.size i).mpr hi
  refine Checksum.product_ne_zero_of_burst hbefore hafter (List.length_take_le _ _) hset ?_
  rw [← List.drop_drop, List.append_assoc, List.take_append_drop, List.take_append_drop]
  exact hblock

end Corrupted

/-- **Few changes are detected.**  In a valid block of its stated length let
bits change in the checksum, the identifier and the body only.  If their number
is odd, the block is not valid any more; and neither is it after two changes, if
it is not longer than 4097 bytes. -/
theorem few_changes_detected (valid : isValid bytes = true)
    (whole : (length? bytes).map UInt16.toNat = some bytes.length)
    (size : corrupt.length = bytes.length)
    (place : changes bytes corrupt ⊆ bitsIn 2 4 ∪ bitsIn 4 6 ∪ bitsIn 8 bytes.length) :
    (Odd (changes bytes corrupt).card → isValid corrupt = false)
      ∧ (bytes.length ≤ 4097 → (changes bytes corrupt).card = 2 → isValid corrupt = false) := by
  have h : Corrupted bytes corrupt := ⟨valid, whole, size, place⟩
  exact ⟨h.detects_odd, fun short pair => h.detects_pair pair short⟩

/-- Three changes, one in each part that the checksum protects, and two changes
that are as far apart as they can be. -/
theorem few_changes_detected_sample :
    let block : List UInt8 :=
      [0x24, 0x40, 0x00, 0x5A, 0xA7, 0x2F, 0x0C, 0x00, 0x24, 0x3E, 0x0D, 0x0A]
    let three : List UInt8 :=
      [0x24, 0x40, 0x01, 0x5A, 0xA6, 0x2F, 0x0C, 0x00, 0xA4, 0x3E, 0x0D, 0x0A]
    let two : List UInt8 :=
      [0x24, 0x40, 0x80, 0x5A, 0xA7, 0x2F, 0x0C, 0x00, 0x24, 0x3E, 0x0D, 0x0B]
    isValid block = true ∧ (length? block).map UInt16.toNat = some block.length
      ∧ changes block three = {23, 39, 64} ∧ isValid three = false
      ∧ changes block two = {16, 95} ∧ isValid two = false := by
  intro block three two
  have hvalid : isValid block = true := by decide +kernel
  have hwhole : (length? block).map UInt16.toNat = some block.length := by decide +kernel
  have hthree : changes block three = {23, 39, 64} := by decide +kernel
  have htwo : changes block two = {16, 95} := by decide +kernel
  have hplace : ({23, 39, 64} : Finset Nat) ⊆ bitsIn 2 4 ∪ bitsIn 4 6 ∪ bitsIn 8 12 := by
    decide +kernel
  have hplace' : ({16, 95} : Finset Nat) ⊆ bitsIn 2 4 ∪ bitsIn 4 6 ∪ bitsIn 8 12 := by
    decide +kernel
  have hodd := (few_changes_detected hvalid hwhole (show three.length = 12 from rfl)
    (hthree ▸ hplace)).1 (hthree ▸ by decide)
  have hpair := (few_changes_detected hvalid hwhole (show two.length = 12 from rfl)
    (htwo ▸ hplace')).2 (show 12 ≤ 4097 by decide) (htwo ▸ by decide)
  exact ⟨hvalid, hwhole, hthree, hodd, htwo, hpair⟩

/-- A burst in the identifier or in the body is detected. -/
theorem burst_detected (valid : isValid bytes = true)
    (whole : (length? bytes).map UInt16.toNat = some bytes.length)
    (size : corrupt.length = bytes.length) (some : (changes bytes corrupt).Nonempty) {start : Nat}
    (burst : changes bytes corrupt ⊆ Finset.Ico start (start + 16))
    (field : changes bytes corrupt ⊆ bitsIn 4 6 ∨ changes bytes corrupt ⊆ bitsIn 8 bytes.length) :
    isValid corrupt = false := by
  have hheader : 8 ≤ bytes.length := header_of_isValid valid
  have hcovered : changes bytes corrupt ⊆ bitsIn 4 bytes.length := by
    intro i hi
    rw [mem_bitsIn]
    rcases field with hidentifier | hbody
    · have hplace := mem_bitsIn.mp (hidentifier hi)
      omega
    · have hplace := mem_bitsIn.mp (hbody hi)
      omega
  have hplace : changes bytes corrupt ⊆ bitsIn 2 4 ∪ bitsIn 4 6 ∪ bitsIn 8 bytes.length := by
    rw [Finset.union_assoc]
    refine Finset.Subset.trans ?_ Finset.subset_union_right
    rcases field with hidentifier | hbody
    · exact hidentifier.trans Finset.subset_union_left
    · exact hbody.trans Finset.subset_union_right
  have h : Corrupted bytes corrupt := ⟨valid, whole, size, hplace⟩
  exact h.detects_burst hcovered burst some

/-- **Bursts are detected.**  In a valid block of its stated length let bits
change within sixteen places in a row, all of them in the identifier or all of
them in the body, or let any bits of the checksum change: then the block is not
valid any more.  So no change of one byte of the body, or of two bytes next to
each other, passes. -/
theorem bursts_detected (valid : isValid bytes = true)
    (whole : (length? bytes).map UInt16.toNat = some bytes.length)
    (size : corrupt.length = bytes.length) :
    ((changes bytes corrupt).Nonempty →
        (∃ start, changes bytes corrupt ⊆ Finset.Ico start (start + 16))
            ∧ (changes bytes corrupt ⊆ bitsIn 4 6 ∨ changes bytes corrupt ⊆ bitsIn 8 bytes.length)
          ∨ changes bytes corrupt ⊆ bitsIn 2 4 →
        isValid corrupt = false)
      ∧ ∀ k, 8 ≤ k → (∀ j, j ≠ k → j ≠ k + 1 → corrupt[j]? = bytes[j]?) → corrupt ≠ bytes →
        isValid corrupt = false := by
  constructor
  · rintro hsome (⟨⟨start, hwindow⟩, hfield⟩ | hchecksum)
    · exact burst_detected valid whole size hsome hwindow hfield
    · have hplace : changes bytes corrupt ⊆ bitsIn 2 4 ∪ bitsIn 4 6 ∪ bitsIn 8 bytes.length := by
        rw [Finset.union_assoc]
        exact hchecksum.trans Finset.subset_union_left
      have h : Corrupted bytes corrupt := ⟨valid, whole, size, hplace⟩
      exact h.detects_checksum hchecksum hsome
  · intro k hbody hkept hne
    have hwindow := changes_subset_pair hkept
    refine burst_detected valid whole size ?_ hwindow (.inr ?_)
    · rw [Finset.nonempty_iff_ne_empty]
      exact fun hnone => hne (eq_of_changes_empty size hnone)
    · intro i hi
      have hplace := Finset.mem_Ico.mp (hwindow hi)
      have hlt := (mem_changes.mp hi).1
      rw [mem_bitsIn]
      omega

/-- A burst over three bytes, a change of the checksum, and one of two bytes of
the body. -/
theorem bursts_detected_sample :
    let block : List UInt8 :=
      [0x24, 0x40, 0x00, 0x5A, 0xA7, 0x2F, 0x0C, 0x00, 0x24, 0x3E, 0x0D, 0x0A]
    let burst : List UInt8 :=
      [0x24, 0x40, 0x00, 0x5A, 0xA7, 0x2F, 0x0C, 0x00, 0x34, 0x2E, 0x2D, 0x0A]
    let checksum : List UInt8 :=
      [0x24, 0x40, 0xFF, 0xA5, 0xA7, 0x2F, 0x0C, 0x00, 0x24, 0x3E, 0x0D, 0x0A]
    let adjacent : List UInt8 :=
      [0x24, 0x40, 0x00, 0x5A, 0xA7, 0x2F, 0x0C, 0x00, 0x24, 0x3E, 0x24, 0x40]
    isValid block = true ∧ (length? block).map UInt16.toNat = some block.length
      ∧ changes block burst = {67, 75, 82} ∧ isValid burst = false
      ∧ changes block checksum = bitsIn 2 4 ∧ isValid checksum = false
      ∧ adjacent ≠ block ∧ isValid adjacent = false := by
  intro block burst checksum adjacent
  have hvalid : isValid block = true := by decide +kernel
  have hwhole : (length? block).map UInt16.toNat = some block.length := by decide +kernel
  have hchanges : changes block burst = {67, 75, 82} := by decide +kernel
  have hchecksum : changes block checksum = bitsIn 2 4 := by decide +kernel
  have hne : adjacent ≠ block := by decide
  have hwindow : ({67, 75, 82} : Finset Nat) ⊆ Finset.Ico 67 83 := by decide
  have hbody : ({67, 75, 82} : Finset Nat) ⊆ bitsIn 8 12 := by decide
  have hkept : ∀ j, j ≠ 10 → j ≠ 10 + 1 → adjacent[j]? = block[j]? := by
    intro j hfirst hsecond
    match j with
    | 0 | 1 | 2 | 3 | 4 | 5 | 6 | 7 | 8 | 9 => rfl
    | 10 => exact absurd rfl hfirst
    | 11 => exact absurd rfl hsecond
    | _ + 12 => rfl
  have hburst := (bursts_detected hvalid hwhole (show burst.length = 12 from rfl)).1
    (hchanges ▸ ⟨67, by decide⟩) (.inl ⟨⟨67, hchanges ▸ hwindow⟩, .inr (hchanges ▸ hbody)⟩)
  have hstated := (bursts_detected hvalid hwhole (show checksum.length = 12 from rfl)).1
    (hchecksum ▸ ⟨16, by decide⟩) (.inr (hchecksum ▸ Finset.Subset.refl _))
  have hadjacent := (bursts_detected hvalid hwhole (show adjacent.length = 12 from rfl)).2
    10 (by decide) hkept hne
  exact ⟨hvalid, hwhole, hchanges, hburst, hchecksum, hstated, hne, hadjacent⟩

end Block

end ReceiverLink
