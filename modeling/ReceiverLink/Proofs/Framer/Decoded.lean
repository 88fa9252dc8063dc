/-
  ReceiverLink.Proofs.Framer.Decoded
  ────────────────────────────────
  **What is framed can be encoded again.**

  No bit of a block is left open by its parts: the sync bytes are constant, the
  identifier is its number and its revision (`identifier_split`), and the
  length and the checksum follow from the rest.  So the encoder gives a block
  back from its parts, and blocks and the parts that fit into one are in
  bijection.

  Main statements:
    * `IsBlock.encode_parts` — a block is what is encoded from its parts;
    * `decoded_encoded` — so is every block that a framer delivers, and it
      delivers all blocks that can be encoded.
-/
import Mathlib.Data.Set.Function
import ReceiverLink.Proofs.Framer.Encoded

namespace ReceiverLink

namespace Block

variable {maxBlock : Nat} {bytes : List UInt8}

/-! ## §1. The fields of a block. -/

/-- Where a word stands, its two bytes do. -/
theorem WordAt.drop {offset : Nat} {w : UInt16} (h : WordAt bytes offset w.toNat) :
    bytes.drop offset = wordBytes w ++ bytes.drop (offset + 2) := by
  obtain ⟨low, high, hlow, hhigh, hw⟩ := h
  have hlt := low.toNat_lt
  have hlt' := high.toNat_lt
  have hbelow : w.toUInt8 = low := by
    rw [← UInt8.toNat_inj, UInt16.toNat_toUInt8]
    omega
  have habove : (w >>> 8).toUInt8 = high := by
    rw [← UInt8.toNat_inj, toNat_highByte]
    omega
  unfold wordBytes
  rw [hbelow, habove, List.drop_eq_getElem?_toList_append, hlow,
    List.drop_eq_getElem?_toList_append (l := bytes) (i := offset + 1), hhigh]
  rfl

/-- **The identifier is its number and its revision.** -/
theorem identifier_split (w : UInt16) :
    identifier (w &&& numberMask) (w >>> 13).toUInt8 = w := by
  have hlt := w.toNat_lt
  rw [← UInt16.toNat_inj, identifier_toNat, toNat_and_numberMask, toNat_aboveNumber]
  omega

namespace IsBlock

variable (h : IsBlock maxBlock bytes)

include h

theorem length_le : bytes.length ≤ maxSize :=
  h.length.le_maxSize

/-- A block field by field, with whatever identifier stands there. -/
theorem eq_append : ∃ id : UInt16, word? bytes 4 = some id
    ∧ bytes.drop 4 = wordBytes id ++ wordBytes bytes.length.toUInt16 ++ bytes.drop headerSize
    ∧ bytes = [syncByte, blockByte] ++ wordBytes (Checksum.ofBytes (bytes.drop 4))
        ++ bytes.drop 4 := by
  obtain ⟨n, hn⟩ := exists_wordAt (show 4 + 2 ≤ bytes.length from Nat.le_trans (by decide) h.header)
  obtain ⟨id, hid, rfl⟩ := hn.read
  have htotal : bytes.length.toUInt16.toNat = bytes.length :=
    Nat.mod_eq_of_lt (Nat.lt_succ_of_le h.length_le)
  have hlength : WordAt bytes 6 bytes.length.toUInt16.toNat := by
    rw [htotal]
    exact h.length
  have hsync : bytes = [syncByte, blockByte] ++ bytes.drop 2 :=
    (List.prefix_iff_eq_append.mp h.sync).symm
  refine ⟨id, hid, ?_, ?_⟩
  · rw [hn.drop, hlength.drop, List.append_assoc]
    rfl
  · rw [List.append_assoc, ← h.checksum.drop]
    exact hsync

/-- **A block is what is encoded from its parts.** -/
theorem encode_parts : ∃ number revision,
    number? bytes = some number ∧ revision? bytes = some revision
    ∧ number.toNat < 8192 ∧ revision.toNat < 8
    ∧ encode number revision (bytes.drop headerSize) = .ok bytes := by
  obtain ⟨id, hid, hcovered, hwhole⟩ := h.eq_append
  have hsize : headerSize + (bytes.drop headerSize).length = bytes.length := by
    rw [List.length_drop, Nat.add_sub_cancel' h.header]
  refine ⟨id &&& numberMask, (id >>> 13).toUInt8, ?_, ?_, ?_, ?_, ?_⟩
  · unfold number?
    rw [hid]
    rfl
  · unfold revision?
    rw [hid]
    rfl
  · rw [toNat_and_numberMask]
    exact Nat.mod_lt _ (by decide)
  · rw [toNat_aboveNumber]
    exact Nat.div_lt_of_lt_mul id.toNat_lt
  · unfold encode
    dsimp only
    rw [hsize, if_neg (Nat.not_lt_of_le h.length_le), identifier_split, ← hcovered, ← hwhole]

end IsBlock

/-! ## §2. Parts. -/

/-- What a block is made of. -/
structure Parts where
  number : UInt16
  revision : UInt8
  body : List UInt8
  deriving Repr, DecidableEq

/-- The block with these parts, in a buffer with nothing else. -/
def Parts.encoded (p : Parts) : Except TooLarge (List UInt8) :=
  append [] p.number p.revision p.body

/-- The parts that fit into a block. -/
def fitting : Set Parts :=
  {p | p.number.toNat < 8192 ∧ p.revision.toNat < 8 ∧ p.body.length ≤ 65527}

theorem Parts.encoded_eq_ok {p : Parts} (h : encode p.number p.revision p.body = .ok bytes) :
    p.encoded = .ok bytes :=
  (append_of_encode [] h).1

/-- Parts that fit are encoded. -/
theorem exists_encode_of_fitting {p : Parts} (h : p ∈ fitting) :
    ∃ bytes, encode p.number p.revision p.body = .ok bytes := by
  obtain ⟨-, -, hbody⟩ := h
  refine exists_encode ?_
  unfold headerSize maxSize
  omega

/-- Parts that fit are read back whole. -/
theorem eq_of_encode {p : Parts} (hp : p ∈ fitting)
    (h : encode p.number p.revision p.body = .ok bytes) :
    number? bytes = some p.number ∧ revision? bytes = some p.revision
      ∧ bytes.drop headerSize = p.body := by
  obtain ⟨hnumber, hrevision, -⟩ := hp
  have hlow : p.number &&& numberMask = p.number := by
    rw [← UInt16.toNat_inj, toNat_and_numberMask, Nat.mod_eq_of_lt hnumber]
  have hkept : p.revision &&& 7 = p.revision := by
    rw [← UInt8.toNat_inj, toNat_and_seven, Nat.mod_eq_of_lt hrevision]
  refine ⟨?_, ?_, encode_drop h⟩
  · rw [number?_encode h, hlow]
  · rw [revision?_encode h, hkept]

/-- Different parts that fit make different blocks. -/
theorem encoded_injOn : Set.InjOn Parts.encoded fitting := by
  intro p hp q hq hsame
  obtain ⟨bytes, hencode⟩ := exists_encode_of_fitting hp
  obtain ⟨bytes', hencode'⟩ := exists_encode_of_fitting hq
  rw [Parts.encoded_eq_ok hencode, Parts.encoded_eq_ok hencode'] at hsame
  cases hsame
  obtain ⟨hnumber, hrevision, hbody⟩ := eq_of_encode hp hencode
  obtain ⟨hnumber', hrevision', hbody'⟩ := eq_of_encode hq hencode'
  cases p
  cases q
  cases hnumber.symm.trans hnumber'
  cases hrevision.symm.trans hrevision'
  cases hbody.symm.trans hbody'
  rfl

end Block

/-- A whole binary telegram is a block. -/
theorem WellFormed.isBlock {maxBlock : Nat} {bytes : List UInt8}
    (h : WellFormed maxBlock .binary bytes) : Block.IsBlock maxBlock bytes := by
  cases h with
  | block block => exact block
  | line opens => cases opens

namespace Framer

variable {maxBlock : Nat} {calls : List Call} {t : Telegram} {bytes : List UInt8}

/-! ## §3. Delivered blocks. -/

/-- The blocks that some calls make a new framer deliver. -/
def deliverable (maxBlock : Nat) : Set (List UInt8) :=
  {bytes | ∃ calls, ∃ t ∈ ((new maxBlock).run calls).telegrams, t.format = .binary ∧ t.bytes = bytes}

/-- What is delivered as a block is one. -/
theorem isBlock_of_delivered (delivered : t ∈ ((new maxBlock).run calls).telegrams)
    (binary : t.format = .binary) : Block.IsBlock maxBlock t.bytes := by
  have hshape := (run_sound (new_coherent maxBlock) calls).shape t delivered
  rw [binary] at hshape
  exact hshape.isBlock

/-- Every block that is accepted is delivered when it is fed. -/
theorem deliverable_of_isBlock (h : Block.IsBlock maxBlock bytes) :
    bytes ∈ deliverable maxBlock := by
  have hfed : ((new maxBlock).feed bytes 0).telegrams = #[⟨.binary, bytes, 0⟩] := by
    obtain ⟨rest, rfl⟩ := h.sync
    exact (feed_telegrams_of_sync (new_coherent maxBlock) rfl (.block h)).1
  refine ⟨[.feed bytes 0], ⟨.binary, bytes, 0⟩, ?_, rfl, rfl⟩
  show _ ∈ (((new maxBlock).feed bytes 0).andThen Fed.start).telegrams
  rw [Fed.andThen_start, hfed]
  exact Array.mem_singleton.mpr rfl

/-- **What is framed can be encoded again.**  Each binary telegram that comes of
any calls on a new framer is what is encoded, into an empty buffer, from its
number, its revision and its bytes after the header; so for a framer that
accepts blocks of every length, encoding is a bijection between the parts that
fit into a block and the blocks that can be delivered. -/
theorem decoded_encoded :
    (∀ maxBlock calls, ∀ t ∈ ((new maxBlock).run calls).telegrams, t.format = .binary →
        ∃ number revision, t.blockNumber? = some number ∧ t.blockRevision? = some revision
          ∧ Block.append [] number revision (t.bytes.drop 8) = .ok t.bytes)
      ∧ ∀ maxBlock, 65535 ≤ maxBlock →
        Set.BijOn Block.Parts.encoded Block.fitting (Except.ok '' deliverable maxBlock) := by
  constructor
  · intro maxBlock calls t delivered binary
    obtain ⟨number, revision, hnumber, hrevision, -, -, hencode⟩ :=
      (isBlock_of_delivered delivered binary).encode_parts
    refine ⟨number, revision, ?_, ?_, (Block.append_of_encode [] hencode).1⟩
    · unfold Telegram.blockNumber?
      rw [if_pos binary, hnumber]
    · unfold Telegram.blockRevision?
      rw [if_pos binary, hrevision]
  · intro maxBlock hlarge
    refine ⟨?_, Block.encoded_injOn, ?_⟩
    · -- what is encoded is accepted, and delivered
      intro p hp
      obtain ⟨bytes, hencode⟩ := Block.exists_encode_of_fitting hp
      have hlength : bytes.length ≤ Block.maxSize := by
        rw [Block.encode_length hencode]
        exact (Block.encode_eq_ok hencode).1
      have hblock := Block.encode_isBlock hencode (Nat.le_trans hlength hlarge)
      exact ⟨bytes, deliverable_of_isBlock hblock, (Block.Parts.encoded_eq_ok hencode).symm⟩
    · -- what is delivered is encoded from its parts, and these fit
      rintro _ ⟨_, ⟨calls, t, delivered, binary, rfl⟩, rfl⟩
      have hblock := isBlock_of_delivered delivered binary
      obtain ⟨number, revision, -, -, hnumber, hrevision, hencode⟩ := hblock.encode_parts
      have hbody : (t.bytes.drop 8).length ≤ 65527 := by
        have hlength : t.bytes.length ≤ 65535 := hblock.length_le
        rw [List.length_drop]
        omega
      exact ⟨⟨number, revision, t.bytes.drop 8⟩, ⟨hnumber, hrevision, hbody⟩,
        Block.Parts.encoded_eq_ok hencode⟩

/-- A block with a `$` in its body, cut in two after a line that is given up. -/
theorem decoded_encoded_parts :
    let block : List UInt8 := [0x24, 0x40, 0xBC, 0xB7, 0x05, 0x40, 0x09, 0x00, 0x24]
    let t : Telegram := ⟨.binary, block, 4⟩
    t ∈ ((new 65535).run [.feed [0x24, 0x47] 1, .abort 0, .push [0x24] 4,
        .feed (block.drop 1) 5]).telegrams
      ∧ t.blockNumber? = some 5 ∧ t.blockRevision? = some 2
      ∧ Block.append [] 5 2 [0x24] = .ok block
      ∧ (⟨5, 2, [0x24]⟩ : Block.Parts) ∈ Block.fitting
      ∧ Block.Parts.encoded ⟨5, 2, [0x24]⟩ ∈ Except.ok '' deliverable 65535 := by
  intro block t
  have hdelivered : t ∈ ((new 65535).run [.feed [0x24, 0x47] 1, .abort 0, .push [0x24] 4,
      .feed (block.drop 1) 5]).telegrams := by
    decide +kernel
  have hnumber : t.blockNumber? = some 5 := by decide +kernel
  have hrevision : t.blockRevision? = some 2 := by decide +kernel
  have hfits : (⟨5, 2, [0x24]⟩ : Block.Parts) ∈ Block.fitting :=
    ⟨by decide, by decide, by decide⟩
  obtain ⟨number, revision, hnumber', hrevision', hencoded⟩ :=
    decoded_encoded.1 65535 _ t hdelivered rfl
  cases hnumber.symm.trans hnumber'
  cases hrevision.symm.trans hrevision'
  exact ⟨hdelivered, hnumber, hrevision, hencoded, hfits,
    (decoded_encoded.2 65535 (Nat.le_refl _)).mapsTo hfits⟩

end Framer

end ReceiverLink
