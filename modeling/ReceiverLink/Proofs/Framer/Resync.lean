/-
  ReceiverLink.Proofs.Framer.Resync
  ────────────────────────────────
  **Resynchronizing: from any history to the next telegram.**

  Between blocks a `$` always restarts, so that the telegram it starts is
  delivered whole.  Inside a block the bytes of a telegram are taken for those
  of the block, but not for long: `pending_add_wanted_le` bounds what a block
  can still ask for, whatever its length field will state.

  Main statement: `resynchronizes`.
-/
import ReceiverLink.Proofs.Framer.Lossless

namespace ReceiverLink

namespace Framer

variable {maxBlock : Nat} {f : Framer} {now : Time}

/-! ## §1. Between blocks. -/

/-- Unless it is one of a block's bytes, `$` starts a telegram. -/
theorem push_syncByte (h : checkOf f.stage = none) (now : Time) :
    ∃ g events, (f.push [syncByte] now).2 = ⟨g, none, events⟩ ∧ g.stage = .selecting
      ∧ g.draft = .startingWith syncByte now := by
  cases hstage : f.stage with
  | header | body =>
      rw [hstage] at h
      cases h
  | idle =>
      rw [push_idle hstage]
      exact ⟨f.restart now, [], rfl, rfl, rfl⟩
  | selecting =>
      rw [push_selecting hstage]
      exact ⟨f.restart now, [], rfl, rfl, rfl⟩
  | confirming =>
      rw [push_confirming hstage]
      exact ⟨f.restart now, [], rfl, rfl, rfl⟩
  | line =>
      -- here alone the telegram that is given up is counted
      rw [push_line hstage]
      exact ⟨(f.restart now).countResync, _, rfl, rfl, rfl⟩

/-- A telegram that starts with `$` is delivered alone. -/
theorem feed_telegrams_of_sync {format : Format} {rest : List UInt8} (h : Coherent maxBlock f)
    (hcheck : checkOf f.stage = none) (hwhole : WellFormed maxBlock format (syncByte :: rest)) :
    (f.feed (syncByte :: rest) now).telegrams = #[⟨format, syncByte :: rest, now⟩]
      ∧ (f.feed (syncByte :: rest) now).framer.stage = .idle := by
  obtain ⟨g, events, hpush, hselecting, hdraft⟩ := push_syncByte hcheck now
  have hrest := feed_afterSync (h.of_push hpush) hselecting hdraft hwhole now
  rw [feed_cons h, hpush]
  unfold Fed.andThen Step.fed
  dsimp only
  rw [hrest]
  exact ⟨rfl, rfl⟩

/-! ## §2. Inside a block. -/

/-- No block that is accepted is longer, and no header. -/
def blockLimit (maxBlock : Nat) : Nat :=
  max Block.headerSize (min maxBlock Block.maxSize)

/-- The stages of a block. -/
def InBlock (f : Framer) : Prop :=
  ∃ check, checkOf f.stage = some check

/-- What has come of a block and what is asked for stay within the limit. -/
theorem pending_add_wanted_le (h : Coherent maxBlock f) (hblock : f.InBlock) :
    f.pending + f.wanted ≤ blockLimit maxBlock := by
  unfold blockLimit
  show f.draft.bytes.size + f.wanted ≤ _
  obtain ⟨_, hcheck⟩ := hblock
  rcases stage_of_checkOf hcheck with ⟨hstage, -⟩ | ⟨length, hstage, -⟩
  · rw [wanted_header hstage]
    cases h.at_stage hstage with
    | header _ _ short => omega
  · rw [wanted_body hstage]
    cases h.at_stage hstage with
    | body _ _ _ stated bound short =>
        -- a length that has come is a word, and was compared with `maxBlock`
        have hmax := stated.le_maxSize
        omega

theorem checkBody_idle (f : Framer) : f.checkBody.framer.stage = .idle := by
  unfold checkBody
  dsimp only
  split <;> rfl

/-- A header leads to its body, or to nothing in progress. -/
theorem checkHeader_framer (f : Framer) :
    f.checkHeader.framer.stage = .idle
      ∨ ∃ length, f.checkHeader.framer = { f with stage := .body length } := by
  unfold checkHeader
  dsimp only
  repeat' split
  · exact .inl rfl
  · exact .inl rfl
  · exact .inl (checkBody_idle f)
  · exact .inr ⟨_, rfl⟩

/-- A push inside a block ends it, or adds to it what it takes. -/
theorem push_inBlock (hblock : f.InBlock) (bytes : List UInt8) (now : Time) :
    (f.push bytes now).2.framer.stage = .idle
      ∨ ((f.push bytes now).2.framer.InBlock
        ∧ (f.push bytes now).2.framer.pending = f.pending + (f.push bytes now).1) := by
  by_cases hne : bytes = []
  · subst hne
    exact .inr ⟨hblock, rfl⟩
  · obtain ⟨check, hcheck⟩ := hblock
    have hgrown := f.grow_size (bytes.take f.wanted)
    rw [push_of_checkOf hcheck hne, takeBlockBytes_eq]
    dsimp only
    split
    next => exact .inr ⟨⟨check, hcheck⟩, hgrown⟩
    next =>
      rcases stage_of_checkOf hcheck with ⟨-, rfl⟩ | ⟨_, -, rfl⟩
      · rcases checkHeader_framer (f.grow (bytes.take f.wanted)) with hidle | ⟨length, hbody⟩
        · exact .inl hidle
        · rw [hbody]
          exact .inr ⟨⟨checkBody, rfl⟩, hgrown⟩
      · exact .inl (checkBody_idle _)

/-- Push some bytes after others, each at its own time. -/
def pushAll (f : Framer) (pushes : List (List UInt8 × Time)) : Fed :=
  runAll (fun g p => (g.push p.1 p.2).2.fed) f pushes

/-- How many bytes these pushes take. -/
def consumed (f : Framer) : List (List UInt8 × Time) → Nat
  | [] => 0
  | p :: rest => (f.push p.1 p.2).1 + consumed (f.push p.1 p.2).2.framer rest

/-- **A block does not go on for long**: as soon as pushes have taken what it
can still ask for, the framer has been idle. -/
theorem pushAll_idle {f : Framer} (h : Coherent maxBlock f) (hblock : f.InBlock)
    (pushes : List (List UInt8 × Time))
    (henough : blockLimit maxBlock - f.pending ≤ f.consumed pushes) :
    ∃ k, f.consumed (pushes.take k) ≤ blockLimit maxBlock - f.pending
      ∧ (f.pushAll (pushes.take k)).framer.stage = .idle := by
  -- by induction on the pushes; what is wanted stays within the limit
  have hlimit := pending_add_wanted_le h hblock
  induction pushes generalizing f with
  | nil =>
      -- something is always wanted, so that no pushes are never enough
      have hpos := h.wanted_pos
      change blockLimit maxBlock - f.pending ≤ 0 at henough
      omega
  | cons p rest ih =>
      have hused : (f.push p.1 p.2).1 ≤ f.wanted := by
        rw [push_fst]
        exact Nat.min_le_left _ _
      have hnext := push_coherent h p.1 p.2
      change _ ≤ (f.push p.1 p.2).1 + consumed (f.push p.1 p.2).2.framer rest at henough
      rcases push_inBlock hblock p.1 p.2 with hidle | ⟨hinside, hpending⟩
      · -- the block ends with this push
        refine ⟨1, ?_, hidle⟩
        show (f.push p.1 p.2).1 + 0 ≤ _
        omega
      · -- what it took is pending now, and that much less may follow
        have hwithin := pending_add_wanted_le hnext hinside
        obtain ⟨k, hk, hstage⟩ := ih hnext hinside (by omega) hwithin
        refine ⟨k + 1, ?_, hstage⟩
        show (f.push p.1 p.2).1 + consumed (f.push p.1 p.2).2.framer (rest.take k) ≤ _
        omega

/-- Bytes pushed one at a time are all taken. -/
theorem consumed_singletons {f : Framer} (h : Coherent maxBlock f) (bytes : List UInt8) :
    f.consumed (bytes.map fun b => ([b], now)) = bytes.length := by
  induction bytes generalizing f with
  | nil => rfl
  | cons byte rest ih =>
      show (f.push [byte] now).1 + consumed (f.push [byte] now).2.framer _ = _
      have hpos := h.wanted_pos
      rw [ih (push_coherent h [byte] now), push_fst, List.length_singleton, List.length_cons]
      omega

/-- Bytes pushed one at a time are fed. -/
theorem pushAll_singletons {f : Framer} (h : Coherent maxBlock f) (bytes : List UInt8) :
    f.pushAll (bytes.map fun b => ([b], now)) = f.feed bytes now := by
  induction bytes generalizing f with
  | nil => exact (feed_nil f now).symm
  | cons byte rest ih =>
      have hrest := ih (push_coherent h [byte] now)
      show (f.push [byte] now).2.fed.andThen
        (fun g => g.pushAll (rest.map fun b => ([b], now))) = _
      rw [feed_cons h]
      exact Fed.andThen_congr hrest

theorem feed_idle (h : Coherent maxBlock f) (hblock : f.InBlock) (bytes : List UInt8)
    (henough : blockLimit maxBlock - f.pending ≤ bytes.length) :
    ∃ k, k ≤ blockLimit maxBlock - f.pending
      ∧ (f.feed (bytes.take k) now).framer.stage = .idle := by
  obtain ⟨k, hk, hidle⟩ := pushAll_idle h hblock (bytes.map fun b => ([b], now))
    (by rw [consumed_singletons h]; exact henough)
  rw [← List.map_take] at hk hidle
  rw [consumed_singletons h, List.length_take] at hk
  rw [pushAll_singletons h, List.take_eq_take_min] at hidle
  exact ⟨min k bytes.length, hk, hidle⟩

/-! ## §3. From any history. -/

/-- **Resynchronizing.**  Whatever was called on a framer: between blocks, a
block or a line with a format that is fed next is delivered whole and alone;
and inside a block, whatever bytes come next and however they are pushed, the
framer has been idle before more are taken than any accepted block still
needs. -/
theorem resynchronizes (hf : Reachable maxBlock f) :
    (f.stage = .idle ∨ f.stage = .selecting ∨ f.stage = .confirming ∨ f.stage = .line →
        (∀ (number : UInt16) (revision : UInt8) (body bytes : List UInt8) (now : Time),
          Block.encode number revision body = .ok bytes → bytes.length ≤ maxBlock →
            (f.feed bytes now).telegrams = #[⟨.binary, bytes, now⟩]
              ∧ (f.feed bytes now).framer.stage = .idle)
        ∧ ∀ (format : Format) (opening text : List UInt8) (now : Time),
          Opens format opening → LineText text →
            (f.feed (opening ++ text ++ [carriageReturn, lineFeed]) now).telegrams
                = #[⟨format, opening ++ text ++ [carriageReturn, lineFeed], now⟩]
              ∧ (f.feed (opening ++ text ++ [carriageReturn, lineFeed]) now).framer.stage = .idle)
      ∧ ((f.stage = .header ∨ ∃ length, f.stage = .body length) →
        (∀ pushes : List (List UInt8 × Time),
          max 8 (min maxBlock 65535) - f.pending ≤ f.consumed pushes →
            ∃ k, f.consumed (pushes.take k) ≤ max 8 (min maxBlock 65535) - f.pending
              ∧ (f.pushAll (pushes.take k)).framer.stage = .idle)
        ∧ ∀ (bytes : List UInt8) (now : Time),
          max 8 (min maxBlock 65535) - f.pending ≤ bytes.length →
            ∃ k, k ≤ max 8 (min maxBlock 65535) - f.pending
              ∧ (f.feed (bytes.take k) now).framer.stage = .idle) := by
  have h := reachable_coherent hf
  constructor
  · intro hstage
    -- outside of a block the first `$` restarts the framer, whatever came before
    have hcheck : checkOf f.stage = none := by
      rcases hstage with hs | hs | hs | hs <;> rw [hs] <;> rfl
    constructor
    · intro number revision body bytes now hencode hlen
      have hblock := Block.encode_isBlock hencode hlen
      obtain ⟨more, rfl⟩ := hblock.sync
      exact feed_telegrams_of_sync h hcheck (.block hblock)
    · intro format opening text now opens clean
      obtain ⟨selector, third, _, rfl, -⟩ := (opens_iff _ _).mp opens
      exact feed_telegrams_of_sync h hcheck (.line opens clean)
  · intro hstage
    -- inside of one the framer is idle again once the block is complete, or dropped
    have hblock : f.InBlock := by
      rcases hstage with hs | ⟨length, hs⟩
      · exact ⟨checkHeader, checkOf_header hs⟩
      · exact ⟨checkBody, checkOf_body hs⟩
    exact ⟨pushAll_idle h hblock, fun bytes now => feed_idle h hblock bytes⟩

/-- A block and a line after `$G`, and what can come after `$@`: pushes that end
inside the header and run past the block, and a buffer that is no block. -/
theorem resynchronizes_midway :
    (Reachable 9 ((new 9).run [.push [0x24] 0, .push [0x47] 0]).framer
      ∧ ((new 9).run [.push [0x24] 0, .push [0x47] 0]).framer.stage = .confirming
      ∧ Block.encode 5 2 [0x24] = .ok [0x24, 0x40, 0xBC, 0xB7, 0x05, 0x40, 0x09, 0x00, 0x24]
      ∧ (((new 9).run [.push [0x24] 0, .push [0x47] 0]).framer.feed
          [0x24, 0x40, 0xBC, 0xB7, 0x05, 0x40, 0x09, 0x00, 0x24] 3).telegrams
        = #[⟨.binary, [0x24, 0x40, 0xBC, 0xB7, 0x05, 0x40, 0x09, 0x00, 0x24], 3⟩]
      ∧ Opens .errorResponse [syncByte, 0x52, 0x3F] ∧ LineText [0x3E, 0x0D]
      ∧ (((new 9).run [.push [0x24] 0, .push [0x47] 0]).framer.feed
          ([syncByte, 0x52, 0x3F] ++ [0x3E, 0x0D] ++ [carriageReturn, lineFeed]) 3).telegrams
        = #[⟨.errorResponse,
            [syncByte, 0x52, 0x3F] ++ [0x3E, 0x0D] ++ [carriageReturn, lineFeed], 3⟩])
    ∧ Reachable 9 ((new 9).run [.push [0x24] 0, .push [0x40] 0]).framer
      ∧ ((new 9).run [.push [0x24] 0, .push [0x40] 0]).framer.stage = .header
      ∧ (∃ k, ((new 9).run [.push [0x24] 0, .push [0x40] 0]).framer.consumed
            ([([0, 0, 0], 1), ([0, 9, 0], 5), ([7, 7], 4)].take k) ≤ 7
          ∧ (((new 9).run [.push [0x24] 0, .push [0x40] 0]).framer.pushAll
            ([([0, 0, 0], 1), ([0, 9, 0], 5), ([7, 7], 4)].take k)).framer.stage = .idle)
      ∧ ∃ k, k ≤ 7 ∧ (((new 9).run [.push [0x24] 0, .push [0x40] 0]).framer.feed
          ([0x24, 0x47, 0x50, 0x0D, 0x0A, 0x24, 0x24, 0x47].take k) 3).framer.stage = .idle := by
  have hline : Reachable 9 ((new 9).run [.push [0x24] 0, .push [0x47] 0]).framer := ⟨_, rfl⟩
  have hblock : Reachable 9 ((new 9).run [.push [0x24] 0, .push [0x40] 0]).framer := ⟨_, rfl⟩
  have hencode : Block.encode 5 2 [0x24]
      = .ok [0x24, 0x40, 0xBC, 0xB7, 0x05, 0x40, 0x09, 0x00, 0x24] := by cbv
  have hclean : LineText [0x3E, 0x0D] := by decide
  obtain ⟨hwhole, hlines⟩ := (resynchronizes hline).1 (.inr (.inr (.inl rfl)))
  obtain ⟨hpushes, hbytes⟩ := (resynchronizes hblock).2 (.inl rfl)
  refine ⟨⟨hline, rfl, hencode, (hwhole 5 2 _ _ 3 hencode (by decide)).1, .refusal, hclean,
    (hlines _ _ _ 3 .refusal hclean).1⟩, hblock, rfl, ?_, ?_⟩
  · exact hpushes [([0, 0, 0], 1), ([0, 9, 0], 5), ([7, 7], 4)] (by decide +kernel)
  · exact hbytes [0x24, 0x47, 0x50, 0x0D, 0x0A, 0x24, 0x24, 0x47] 3 (by decide +kernel)

end Framer

end ReceiverLink
