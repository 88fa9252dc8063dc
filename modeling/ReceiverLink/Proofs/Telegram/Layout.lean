/-
  ReceiverLink.Proofs.Telegram.Layout
  ────────────────────────────────
  **The layout of a block, said without its readers and its encoder.**

  `WordAt bytes offset n` says that the two bytes at an offset hold `n`, low
  byte first, and `IsBlock` says by such fields what a whole block is.  The
  readers of `Telegram.Block` are tied to them:

    * `word?_eq_some_iff` — reading a word yields exactly what stands there;
    * `isValid_iff` — of bytes as long as they state, `isValid` judges the
      checksum alone;
    * `encode_isBlock` — the encoder writes nothing but blocks.
-/
import ReceiverLink.Telegram.Block

namespace ReceiverLink

namespace Block

/-! ## §1. Words. -/

/-- The two bytes at an offset hold a number, low byte first. -/
def WordAt (bytes : List UInt8) (offset n : Nat) : Prop :=
  ∃ low high : UInt8, bytes[offset]? = some low ∧ bytes[offset + 1]? = some high
    ∧ n = low.toNat + 256 * high.toNat

/-- Joining two bytes by shift and or is their value in base 256. -/
theorem toNat_join (low high : UInt8) :
    (low.toUInt16 ||| (high.toUInt16 <<< 8)).toNat = low.toNat + 256 * high.toNat := by
  have hlow := low.toNat_lt
  have hhigh := high.toNat_lt
  -- the high byte is moved past the low one, so that `or` adds them
  rw [UInt16.toNat_or, UInt16.toNat_shiftLeft, UInt8.toNat_toUInt16, UInt8.toNat_toUInt16,
    show (8 : UInt16).toNat % 16 = 8 from rfl, Nat.shiftLeft_eq,
    Nat.mod_eq_of_lt (show high.toNat * 2 ^ 8 < 2 ^ 16 by omega), Nat.or_comm,
    Nat.mul_comm high.toNat, ← Nat.two_pow_add_eq_or_of_lt (show low.toNat < 2 ^ 8 by omega)]
  omega

theorem word?_eq_some_iff (bytes : List UInt8) (offset : Nat) (w : UInt16) :
    word? bytes offset = some w ↔ WordAt bytes offset w.toNat := by
  unfold word? WordAt
  rw [show bytes[offset]? = (bytes.drop offset)[0]? by simp,
    show bytes[offset + 1]? = (bytes.drop offset)[1]? by simp]
  match bytes.drop offset with
  | [] => simp
  | [_] => simp
  | low :: high :: rest =>
      show some (low.toUInt16 ||| (high.toUInt16 <<< 8)) = some w ↔ _
      rw [Option.some_inj, ← UInt16.toNat_inj, toNat_join]
      constructor
      · intro h
        exact ⟨low, high, rfl, rfl, h.symm⟩
      · rintro ⟨l, k, hl, hk, h⟩
        injection hl with hl
        injection hk with hk
        rw [h, hl, hk]

/-- A word is there as soon as both of its bytes are. -/
theorem exists_wordAt {bytes : List UInt8} {offset : Nat} (h : offset + 2 ≤ bytes.length) :
    ∃ n, WordAt bytes offset n :=
  ⟨_, bytes[offset], bytes[offset + 1], List.getElem?_eq_getElem _, List.getElem?_eq_getElem _, rfl⟩

namespace WordAt

variable {bytes : List UInt8} {offset m n : Nat}

/-- The reader of a word that stands there. -/
theorem read (h : WordAt bytes offset n) :
    ∃ w : UInt16, word? bytes offset = some w ∧ w.toNat = n := by
  obtain ⟨low, high, hlow, hhigh, rfl⟩ := h
  refine ⟨low.toUInt16 ||| (high.toUInt16 <<< 8), ?_, toNat_join low high⟩
  rw [word?_eq_some_iff]
  exact ⟨low, high, hlow, hhigh, toNat_join low high⟩

theorem unique (hm : WordAt bytes offset m) (hn : WordAt bytes offset n) : m = n := by
  obtain ⟨w, hw, rfl⟩ := hm.read
  obtain ⟨v, hv, rfl⟩ := hn.read
  rw [hw] at hv
  injection hv with hv
  rw [hv]

theorem le_maxSize (h : WordAt bytes offset n) : n ≤ maxSize := by
  obtain ⟨low, high, -, -, rfl⟩ := h
  have hlow := low.toNat_lt
  have hhigh := high.toNat_lt
  unfold maxSize
  omega

/-- More bytes after it do not change a word. -/
theorem append (h : WordAt bytes offset n) (more : List UInt8) :
    WordAt (bytes ++ more) offset n := by
  obtain ⟨low, high, hlow, hhigh, rfl⟩ := h
  refine ⟨low, high, ?_, ?_, rfl⟩
  · rw [List.getElem?_append_left (List.getElem?_eq_some_iff.mp hlow).1, hlow]
  · rw [List.getElem?_append_left (List.getElem?_eq_some_iff.mp hhigh).1, hhigh]

/-- A word stands in each part that holds its two bytes. -/
theorem of_append {more : List UInt8} (h : WordAt (bytes ++ more) offset n)
    (hlen : offset + 2 ≤ bytes.length) : WordAt bytes offset n := by
  obtain ⟨m, hm⟩ := exists_wordAt hlen
  rw [h.unique (hm.append more)]
  exact hm

end WordAt

/-- The high byte of a word is the quotient by `2 ^ 8`. -/
theorem toNat_highByte (w : UInt16) : (w >>> 8).toUInt8.toNat = w.toNat / 256 := by
  have hw := w.toNat_lt
  show w.toNat >>> 8 % 256 = _
  rw [Nat.shiftRight_eq_div_pow]
  omega

/-- The two bytes of a word hold it, wherever they stand. -/
theorem wordAt_wordBytes (before after : List UInt8) (w : UInt16) :
    WordAt (before ++ (wordBytes w ++ after)) before.length w.toNat := by
  refine ⟨w.toUInt8, (w >>> 8).toUInt8, ?_, ?_, ?_⟩
  · rw [List.getElem?_append_right (Nat.le_refl _), Nat.sub_self]
    rfl
  · rw [List.getElem?_append_right (Nat.le_add_right _ 1), Nat.add_sub_cancel_left]
    rfl
  · show w.toNat = w.toNat % 256 + 256 * (w >>> 8).toUInt8.toNat
    rw [toNat_highByte]
    omega

/-! ## §2. Whole blocks. -/

/-- The bytes are one whole block, of at most `maxBlock` bytes. -/
structure IsBlock (maxBlock : Nat) (bytes : List UInt8) : Prop where
  sync : [syncByte, blockByte] <+: bytes
  header : headerSize ≤ bytes.length
  length : WordAt bytes 6 bytes.length
  bound : bytes.length ≤ maxBlock
  checksum : WordAt bytes 2 (Checksum.ofBytes (bytes.drop 4)).toNat

/-- The stated length, when the header has come. -/
theorem length?_eq_some {bytes : List UInt8} (h : headerSize ≤ bytes.length) :
    ∃ w : UInt16, length? bytes = some w ∧ WordAt bytes 6 w.toNat := by
  obtain ⟨n, hn⟩ := exists_wordAt (show 6 + 2 ≤ bytes.length from h)
  obtain ⟨w, hw, rfl⟩ := hn.read
  exact ⟨w, hw, hn⟩

/-- The block number, when the header has come. -/
theorem number?_eq_some {bytes : List UInt8} (h : headerSize ≤ bytes.length) :
    ∃ number : UInt16, number? bytes = some number := by
  obtain ⟨n, hn⟩ := exists_wordAt (show 4 + 2 ≤ bytes.length from Nat.le_trans (by decide) h)
  obtain ⟨w, hw, -⟩ := hn.read
  unfold number?
  rw [hw]
  exact ⟨_, rfl⟩

/-- Of bytes as long as they state, the checksum covers all but the first
four. -/
theorem checksum?_eq_some {bytes : List UInt8} (header : headerSize ≤ bytes.length)
    (length : WordAt bytes 6 bytes.length) :
    checksum? bytes = some (Checksum.ofBytes (bytes.drop 4)) := by
  obtain ⟨w, hw, hlen⟩ := length.read
  have hlength : length? bytes = some w := hw
  unfold checksum?
  rw [hlength]
  show (if w.toNat < headerSize ∨ bytes.length < w.toNat then none
    else some (Checksum.ofBytes ((bytes.take w.toNat).drop 4))) = _
  rw [hlen, if_neg (by omega), List.take_length]

/-- **Of bytes as long as they state, only the checksum is judged.** -/
theorem isValid_iff {bytes : List UInt8} (header : headerSize ≤ bytes.length)
    (length : WordAt bytes 6 bytes.length) :
    isValid bytes = true ↔ WordAt bytes 2 (Checksum.ofBytes (bytes.drop 4)).toNat := by
  obtain ⟨n, hn⟩ := exists_wordAt (show 2 + 2 ≤ bytes.length from Nat.le_trans (by decide) header)
  obtain ⟨w, hw, rfl⟩ := hn.read
  have hstated : statedChecksum? bytes = some w := hw
  unfold isValid
  rw [hstated, checksum?_eq_some header length]
  show (w == Checksum.ofBytes (bytes.drop 4)) = true ↔ _
  rw [beq_iff_eq, ← word?_eq_some_iff, hw, Option.some_inj]

/-! ## §3. Encoding. -/

/-- A successful encoding, field by field. -/
theorem encode_eq_ok {number : UInt16} {revision : UInt8} {body bytes : List UInt8}
    (h : encode number revision body = .ok bytes) :
    headerSize + body.length ≤ maxSize ∧
      ∃ covered, covered = wordBytes (identifier number revision)
          ++ wordBytes (headerSize + body.length).toUInt16 ++ body
        ∧ bytes = [syncByte, blockByte] ++ (wordBytes (Checksum.ofBytes covered) ++ covered) := by
  unfold encode at h
  dsimp only at h
  split at h
  · cases h
  next hsize =>
    injection h with h
    exact ⟨Nat.le_of_not_lt hsize, _, rfl, by rw [← h, List.append_assoc]⟩

/-- **The encoder writes blocks.** -/
theorem encode_isBlock {maxBlock : Nat} {number : UInt16} {revision : UInt8}
    {body bytes : List UInt8} (h : encode number revision body = .ok bytes)
    (bound : bytes.length ≤ maxBlock) : IsBlock maxBlock bytes := by
  obtain ⟨hsize, covered, hcovered, rfl⟩ := encode_eq_ok h
  have hlength : ([syncByte, blockByte] ++ (wordBytes (Checksum.ofBytes covered) ++ covered)).length
      = headerSize + body.length := by
    rw [hcovered]
    simp only [wordBytes, List.cons_append, List.nil_append, List.length_cons, headerSize]
    omega
  -- the encoder has refused what is too long for the length field
  have htotal : (headerSize + body.length).toUInt16.toNat = headerSize + body.length :=
    Nat.mod_eq_of_lt (Nat.lt_of_le_of_lt hsize (by decide))
  refine ⟨List.prefix_append _ _, ?_, ?_, bound, wordAt_wordBytes [syncByte, blockByte] covered _⟩
  · rw [hlength]
    exact Nat.le_add_right _ _
  · rw [hlength, ← htotal, hcovered]
    exact wordAt_wordBytes ([syncByte, blockByte] ++ wordBytes _ ++ wordBytes _) body _

end Block

end ReceiverLink
