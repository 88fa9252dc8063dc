/-
  ReceiverLink.Proofs.Framer.Encoded
  ────────────────────────────────
  **What is encoded is framed.**

  The encoder joins a number of 13 bits and a revision of 3 bits into one word,
  and bits that do not fit are left out; in numbers that is a remainder and a
  multiple (`identifier_toNat`), from which both are read back.  Appended to a
  buffer, a block leaves what is there alone; and a framer with nothing in
  progress delivers the appended bytes as one telegram, whose parts are those
  that were encoded.

  Main statements:
    * `append_refused_iff` — a block is refused exactly if it is too long;
    * `encoded_framed` — and it is delivered as it was encoded.
-/
import ReceiverLink.Proofs.Framer.Resync

namespace ReceiverLink

namespace Block

variable {number : UInt16} {revision : UInt8} {body bytes : List UInt8}

/-! ## §1. The identifier. -/

/-- The bits of the number are the remainder by `2 ^ 13`. -/
theorem toNat_and_numberMask (w : UInt16) : (w &&& numberMask).toNat = w.toNat % 8192 := by
  rw [UInt16.toNat_and, show numberMask.toNat = 2 ^ 13 - 1 from rfl,
    Nat.and_two_pow_sub_one_eq_mod]

theorem toNat_and_seven (r : UInt8) : (r &&& 7).toNat = r.toNat % 8 := by
  rw [UInt8.toNat_and, show (7 : UInt8).toNat = 2 ^ 3 - 1 from rfl,
    Nat.and_two_pow_sub_one_eq_mod]

/-- The bits above the number are the quotient by `2 ^ 13`. -/
theorem toNat_aboveNumber (w : UInt16) : (w >>> 13).toUInt8.toNat = w.toNat / 8192 := by
  have hw := w.toNat_lt
  show w.toNat >>> 13 % 256 = _
  rw [Nat.shiftRight_eq_div_pow]
  omega

/-- The identifier has the number below, and the revision above it. -/
theorem identifier_toNat (number : UInt16) (revision : UInt8) :
    (identifier number revision).toNat = number.toNat % 8192 + 8192 * (revision.toNat % 8) := by
  have hlow : number.toNat % 8192 < 2 ^ 13 := Nat.mod_lt _ (by decide)
  have hhigh : revision.toNat % 8 < 8 := Nat.mod_lt _ (by decide)
  -- the revision is moved past the number, so that `or` adds them
  have hshift : ((revision &&& 7).toUInt16 <<< 13).toNat = 2 ^ 13 * (revision.toNat % 8) := by
    rw [UInt16.toNat_shiftLeft, UInt8.toNat_toUInt16, toNat_and_seven,
      show (13 : UInt16).toNat % 16 = 13 from rfl, Nat.shiftLeft_eq,
      Nat.mod_eq_of_lt (show revision.toNat % 8 * 2 ^ 13 < 2 ^ 16 by omega), Nat.mul_comm]
  unfold identifier
  rw [UInt16.toNat_or, toNat_and_numberMask, hshift, Nat.or_comm,
    ← Nat.two_pow_add_eq_or_of_lt hlow]
  omega

/-- The number is read back, without the bits that did not fit. -/
theorem identifier_and_numberMask (number : UInt16) (revision : UInt8) :
    identifier number revision &&& numberMask = number &&& numberMask := by
  rw [← UInt16.toNat_inj, toNat_and_numberMask, toNat_and_numberMask, identifier_toNat]
  omega

/-- And so is the revision. -/
theorem identifier_shiftRight (number : UInt16) (revision : UInt8) :
    (identifier number revision >>> 13).toUInt8 = revision &&& 7 := by
  have hnumber : number.toNat % 8192 < 8192 := Nat.mod_lt _ (by decide)
  rw [← UInt8.toNat_inj, toNat_and_seven, toNat_aboveNumber, identifier_toNat]
  omega

/-! ## §2. The parts of an encoded block. -/

/-- A block is encoded, unless its length does not fit into the length field. -/
theorem exists_encode (fits : headerSize + body.length ≤ maxSize) :
    ∃ bytes, encode number revision body = .ok bytes := by
  unfold encode
  rw [if_neg (Nat.not_lt_of_le fits)]
  exact ⟨_, rfl⟩

theorem encode_eq_error (large : maxSize < headerSize + body.length) :
    encode number revision body = .error ⟨headerSize + body.length, maxSize⟩ := by
  unfold encode
  exact if_pos large

variable (h : encode number revision body = .ok bytes)

include h

theorem encode_length : bytes.length = headerSize + body.length := by
  obtain ⟨-, covered, rfl, rfl⟩ := encode_eq_ok h
  simp only [wordBytes, List.cons_append, List.nil_append, List.length_cons, headerSize]
  omega

/-- After the header comes the body. -/
theorem encode_drop : bytes.drop headerSize = body := by
  obtain ⟨-, covered, rfl, rfl⟩ := encode_eq_ok h
  rfl

theorem encode_word : word? bytes 4 = some (identifier number revision) := by
  obtain ⟨-, covered, rfl, rfl⟩ := encode_eq_ok h
  rw [word?_eq_some_iff]
  have hplace := wordAt_wordBytes ([syncByte, blockByte] ++ wordBytes (Checksum.ofBytes
    (wordBytes (identifier number revision) ++ wordBytes (headerSize + body.length).toUInt16
      ++ body))) (wordBytes (headerSize + body.length).toUInt16 ++ body)
    (identifier number revision)
  exact hplace

theorem number?_encode : number? bytes = some (number &&& numberMask) := by
  unfold number?
  rw [encode_word h]
  exact congrArg some (identifier_and_numberMask number revision)

theorem revision?_encode : revision? bytes = some (revision &&& 7) := by
  unfold revision?
  rw [encode_word h]
  exact congrArg some (identifier_shiftRight number revision)

omit h

/-! ## §3. Appending. -/

/-- The buffer after an attempt to append a block to it: what is refused leaves
it as it was. -/
def appended (buffer : List UInt8) (number : UInt16) (revision : UInt8) (body : List UInt8) :
    List UInt8 :=
  match append buffer number revision body with
  | .ok longer => longer
  | .error _ => buffer

/-- The bytes of a block come at the end of the buffer. -/
theorem append_of_encode (buffer : List UInt8) (h : encode number revision body = .ok bytes) :
    append buffer number revision body = .ok (buffer ++ bytes)
      ∧ appended buffer number revision body = buffer ++ bytes := by
  have happend : append buffer number revision body = .ok (buffer ++ bytes) := by
    unfold append
    rw [h]
    rfl
  refine ⟨happend, ?_⟩
  unfold appended
  rw [happend]

/-- **Appending is refused for a block that is too long, and for no other.** -/
theorem append_refused_iff (buffer : List UInt8) (number : UInt16) (revision : UInt8)
    (body : List UInt8) :
    (append buffer number revision body = .error ⟨headerSize + body.length, maxSize⟩
        ∧ appended buffer number revision body = buffer)
      ↔ maxSize < headerSize + body.length := by
  constructor
  · rintro ⟨hrefused, -⟩
    refine Nat.lt_of_not_le fun hfits => ?_
    obtain ⟨bytes, hencode⟩ : ∃ bytes, encode number revision body = .ok bytes :=
      exists_encode hfits
    rw [(append_of_encode buffer hencode).1] at hrefused
    cases hrefused
  · intro hlarge
    have hrefused : append buffer number revision body
        = .error ⟨headerSize + body.length, maxSize⟩ := by
      unfold append
      rw [encode_eq_error hlarge]
      rfl
    refine ⟨hrefused, ?_⟩
    unfold appended
    rw [hrefused]

end Block

namespace Framer

/-! ## §4. Framing what is encoded. -/

/-- **What is encoded is framed.**  A block whose length does not fit into the
length field is refused, and the buffer stays as it was.  Any other block is
put at the end of the buffer; and if it is not longer than what a framer
accepts, the framer, with nothing in progress, delivers it whole and alone, with
the number, the revision and the body that were encoded. -/
theorem encoded_framed (maxBlock : Nat) (number : UInt16) (revision : UInt8)
    (body buffer : List UInt8) :
    ((Block.append buffer number revision body = .error ⟨8 + body.length, 65535⟩
        ∧ Block.appended buffer number revision body = buffer) ↔ 65535 < 8 + body.length)
      ∧ (8 + body.length ≤ 65535 → ∃ bytes,
        Block.append buffer number revision body = .ok (buffer ++ bytes)
          ∧ Block.appended buffer number revision body = buffer ++ bytes
          ∧ bytes.length = 8 + body.length
          ∧ (8 + body.length ≤ maxBlock → ∀ f, Reachable maxBlock f → f.stage = .idle → ∀ now,
            ∃ t, (f.feed bytes now).telegrams = #[t] ∧ t.format = .binary ∧ t.bytes = bytes
              ∧ t.blockNumber? = some (number &&& 0x1FFF)
              ∧ t.blockRevision? = some (revision &&& 7) ∧ t.bytes.drop 8 = body)) := by
  refine ⟨Block.append_refused_iff buffer number revision body, ?_⟩
  intro hfits
  obtain ⟨bytes, hencode⟩ : ∃ bytes, Block.encode number revision body = .ok bytes :=
    Block.exists_encode hfits
  have hlength : bytes.length = 8 + body.length := Block.encode_length hencode
  obtain ⟨happend, happended⟩ := Block.append_of_encode buffer hencode
  refine ⟨bytes, happend, happended, hlength, ?_⟩
  intro hbound f hf hidle now
  have hblock := Block.encode_isBlock hencode (hlength ▸ hbound)
  obtain ⟨rest, hsync⟩ := hblock.sync
  have hdelivered : (f.feed bytes now).telegrams = #[⟨.binary, bytes, now⟩] := by
    have hcheck : checkOf f.stage = none := by
      rw [hidle]
      rfl
    subst hsync
    exact (feed_telegrams_of_sync (reachable_coherent hf) hcheck (.block hblock)).1
  exact ⟨⟨.binary, bytes, now⟩, hdelivered, rfl, rfl, Block.number?_encode hencode,
    Block.revision?_encode hencode, Block.encode_drop hencode⟩

/-- A number of 16 bits and a revision of 8, of which the low ones are kept,
after a line that has been given up. -/
theorem encoded_framed_clipped :
    let f := ((new 9).run [.feed [0x24, 0x47, 0x50, 0x41] 0, .abort 0]).framer
    let block : List UInt8 := [0x24, 0x40, 0xBC, 0xB7, 0x05, 0x40, 0x09, 0x00, 0x24]
    Reachable 9 f ∧ f.stage = .idle ∧ 8 + [(0x24 : UInt8)].length ≤ 9
      ∧ Block.append [0x0D] 0xE005 0xFA [0x24] = .ok ([0x0D] ++ block)
      ∧ ∃ t, (f.feed block 3).telegrams = #[t] ∧ t.format = .binary ∧ t.bytes = block
        ∧ t.blockNumber? = some (0xE005 &&& 0x1FFF) ∧ t.blockRevision? = some (0xFA &&& 7)
        ∧ t.bytes.drop 8 = [0x24] := by
  intro f block
  have hf : Reachable 9 f := ⟨_, rfl⟩
  have hidle : f.stage = .idle := by decide +kernel
  have hbound : 8 + [(0x24 : UInt8)].length ≤ 9 := by decide
  have happend : Block.append [0x0D] 0xE005 0xFA [0x24] = .ok ([0x0D] ++ block) := by cbv
  obtain ⟨bytes, happend', -, -, hframed⟩ :=
    (encoded_framed 9 0xE005 0xFA [0x24] [0x0D]).2 (by decide)
  obtain rfl : block = bytes :=
    List.append_cancel_left (Except.ok.inj (happend.symm.trans happend'))
  exact ⟨hf, hidle, hbound, happend, hframed hbound f hf hidle 3⟩

end Framer

end ReceiverLink
