/-
  ReceiverLink.Proofs.Framer.Stages
  ────────────────────────────────
  **What has come of a telegram, stage by stage.**

  `InProgress` ties each stage of a framer to the bytes and the format of the
  telegram in progress, and `Coherent` says so of a framer.  Every step keeps
  it, and hands out nothing but well-formed telegrams.  Both are said at once
  by `Fed.Sound`, first of each handler, then of the calls, then of runs.

  Main statements:
    * `push_sound` — one push keeps a coherent framer coherent;
    * `reachable_coherent` — whatever was called on a new framer, it is
      coherent;
    * `run_wellFormed` — framing is sound.
-/
import ReceiverLink.Proofs.Framer.Run
import ReceiverLink.Proofs.Telegram.Shape

namespace ReceiverLink

/-! ## §1. The telegram in progress as a list of bytes. -/

namespace Draft

theorem push_toList (d : Draft) (byte : UInt8) :
    (d.push byte).bytes.toList = d.bytes.toList ++ [byte] :=
  Array.toList_push

theorem append_toList (d : Draft) (bytes : List UInt8) :
    (d.append bytes).bytes.toList = d.bytes.toList ++ bytes := by
  show (bytes.foldl Array.push d.bytes).toList = _
  rw [List.foldl_push_eq_append', Array.toList_append]

theorem append_size (d : Draft) (bytes : List UInt8) :
    (d.append bytes).bytes.size = d.bytes.size + bytes.length := by
  rw [← Array.length_toList, append_toList, List.length_append, Array.length_toList]

end Draft

namespace Framer

/-- A line ends with a line feed if the byte before it is a carriage
return. -/
theorem endsLine_push (bytes : Array UInt8) (byte : UInt8) :
    endsLine (bytes.push byte) = true ↔ bytes.toList.getLast? = some carriageReturn := by
  rw [List.getLast?_eq_getElem?, Array.length_toList, Array.getElem?_toList]
  unfold endsLine
  rw [Bool.and_eq_true, decide_eq_true_eq, beq_iff_eq, Array.size_push,
    Nat.add_sub_add_right bytes.size 1 1, Array.getElem?_push]
  by_cases hempty : bytes.size = 0
  · -- nothing stands before the byte
    rw [Array.getElem?_eq_none (by omega)]
    constructor
    · rintro ⟨hlen, -⟩
      omega
    · intro h
      cases h
  · rw [if_neg (by omega)]
    exact and_iff_right (by omega)

/-- The telegram in progress has grown by some bytes. -/
def grow (f : Framer) (bytes : List UInt8) : Framer :=
  { f with draft := f.draft.append bytes }

theorem grow_toList (f : Framer) (bytes : List UInt8) :
    (f.grow bytes).draft.bytes.toList = f.draft.bytes.toList ++ bytes :=
  f.draft.append_toList bytes

/-- What has come stays in front. -/
theorem prefix_grow {start : List UInt8} {f : Framer} (h : start <+: f.draft.bytes.toList)
    (bytes : List UInt8) : start <+: (f.grow bytes).draft.bytes.toList := by
  rw [grow_toList]
  exact h.trans (List.prefix_append _ _)

theorem grow_size (f : Framer) (bytes : List UInt8) :
    (f.grow bytes).draft.bytes.size = f.draft.bytes.size + bytes.length :=
  f.draft.append_size bytes

theorem takeBlockBytes_eq (f : Framer) (bytes : List UInt8) (check : Framer → Step) :
    f.takeBlockBytes bytes check
      = if 0 < (f.grow bytes).wanted then ⟨f.grow bytes, none, []⟩ else check (f.grow bytes) :=
  rfl

/-! ## §2. The invariant. -/

/-- What has come of a telegram at each stage. -/
inductive InProgress (maxBlock : Nat) : Stage → Draft → Prop where
  /-- Nothing. -/
  | idle : InProgress maxBlock .idle {}
  /-- `$`. -/
  | selecting {now : Time} : InProgress maxBlock .selecting (.startingWith syncByte now)
  /-- `$` and the selector of a text format. -/
  | confirming {selector : UInt8} {format : Format} {now : Time}
      (selects : classifySecond selector = some format) (text : format ≠ .binary) :
      InProgress maxBlock .confirming ⟨#[syncByte, selector], format, now⟩
  /-- A part of a block's header, `$@` at least. -/
  | header {d : Draft} (sync : [syncByte, blockByte] <+: d.bytes.toList)
      (binary : d.format = .binary) (short : d.bytes.size < Block.headerSize) :
      InProgress maxBlock .header d
  /-- The header of a block of an accepted length, and a part of its body. -/
  | body {d : Draft} {length : Nat} (sync : [syncByte, blockByte] <+: d.bytes.toList)
      (binary : d.format = .binary) (header : Block.headerSize ≤ d.bytes.size)
      (stated : Block.WordAt d.bytes.toList 6 length) (bound : length ≤ maxBlock)
      (short : d.bytes.size < length) : InProgress maxBlock (.body length) d
  /-- The opening of a line that names its format, and text. -/
  | line {d : Draft} {opening text : List UInt8} (opens : Opens d.format opening)
      (clean : LineText text) (come : d.bytes.toList = opening ++ text) :
      InProgress maxBlock .line d
  /-- The first byte of a line without a format, and text. -/
  | plain {d : Draft} {first : UInt8} {text : List UInt8} (unknown : d.format = .unknown)
      (head : first ≠ syncByte) (clean : PlainText text) (come : d.bytes.toList = first :: text) :
      InProgress maxBlock .line d

/-- The telegram in progress is as the stage says. -/
structure Coherent (maxBlock : Nat) (f : Framer) : Prop where
  bound : f.maxBlock = maxBlock
  progress : InProgress maxBlock f.stage f.draft

/-- What was delivered is well-formed, and the framer that was left is
coherent. -/
structure Fed.Sound (maxBlock : Nat) (r : Fed) : Prop where
  coherent : Coherent maxBlock r.framer
  shape : ∀ t ∈ r.telegrams, WellFormed maxBlock t.format t.bytes

variable {maxBlock : Nat} {f : Framer}

theorem new_coherent (maxBlock : Nat) : Coherent maxBlock (new maxBlock) :=
  ⟨rfl, .idle⟩

namespace Coherent

/-- A coherent framer always asks for at least one byte. -/
theorem wanted_pos (h : Coherent maxBlock f) : 0 < f.wanted := by
  obtain ⟨_, _, _, _⟩ := f
  cases h.progress with
  | idle | selecting | confirming | line | plain => exact Nat.one_pos
  | header _ _ short => exact Nat.sub_pos_of_lt short
  | body _ _ _ _ _ short => exact Nat.sub_pos_of_lt short

theorem at_stage {stage : Stage} (h : Coherent maxBlock f) (hstage : f.stage = stage) :
    InProgress maxBlock stage f.draft :=
  hstage ▸ h.progress

/-- An idle framer has nothing in progress. -/
theorem draft_of_idle (h : Coherent maxBlock f) (hstage : f.stage = .idle) : f.draft = {} := by
  have hprogress := h.at_stage hstage
  generalize f.draft = d at hprogress
  cases hprogress with
  | idle => rfl

theorem draft_of_selecting (h : Coherent maxBlock f) (hstage : f.stage = .selecting) :
    ∃ start, f.draft = .startingWith syncByte start := by
  have hprogress := h.at_stage hstage
  generalize f.draft = d at hprogress
  cases hprogress with
  | selecting => exact ⟨_, rfl⟩

theorem draft_of_confirming (h : Coherent maxBlock f) (hstage : f.stage = .confirming) :
    ∃ selector format start, f.draft = ⟨#[syncByte, selector], format, start⟩
      ∧ classifySecond selector = some format ∧ format ≠ .binary := by
  have hprogress := h.at_stage hstage
  generalize f.draft = d at hprogress
  cases hprogress with
  | confirming selects text => exact ⟨_, _, _, rfl, selects, text⟩

end Coherent

namespace Fed.Sound

theorem start (h : Coherent maxBlock f) : (Fed.start f).Sound maxBlock :=
  ⟨h, fun _ ht => absurd ht (Array.not_mem_empty _)⟩

/-- Going on soundly from what was sound. -/
theorem andThen {a : Fed} {next : Framer → Fed} (ha : a.Sound maxBlock)
    (hnext : Coherent maxBlock a.framer → (next a.framer).Sound maxBlock) :
    (a.andThen next).Sound maxBlock := by
  obtain ⟨hcoherent, hshape⟩ := hnext ha.coherent
  refine ⟨hcoherent, ?_⟩
  intro t ht
  rcases Array.mem_append.mp ht with h | h
  · exact ha.shape t h
  · exact hshape t h

/-- A run is sound if each of its acts is. -/
theorem runAll {α : Type} {act : Framer → α → Fed}
    (hact : ∀ (g : Framer) (a : α), Coherent maxBlock g → (act g a).Sound maxBlock)
    (h : Coherent maxBlock f) (items : List α) : (runAll act f items).Sound maxBlock := by
  induction items generalizing f with
  | nil => exact start h
  | cons a rest ih => exact (hact f a h).andThen fun hg => ih hg

/-- A step that delivers nothing. -/
theorem of_none {events : List FramingEvent} (h : Coherent maxBlock f) :
    (Step.fed ⟨f, none, events⟩).Sound maxBlock :=
  ⟨h, fun _ ht => absurd ht (Array.not_mem_empty _)⟩

end Fed.Sound

/-! ## §3. The end of a telegram. -/

theorem drop_sound (bound : f.maxBlock = maxBlock) (fault : Fault) :
    (f.drop fault).fed.Sound maxBlock :=
  .of_none ⟨bound, .idle⟩

theorem deliver_sound (bound : f.maxBlock = maxBlock)
    (h : WellFormed maxBlock f.draft.format f.draft.bytes.toList) :
    f.deliver.fed.Sound maxBlock := by
  refine ⟨⟨bound, .idle⟩, ?_⟩
  intro t ht
  rw [show t = f.draft.finish from Array.mem_singleton.mp ht]
  exact h

theorem restart_coherent (bound : f.maxBlock = maxBlock) (now : Time) :
    Coherent maxBlock (f.restart now) :=
  ⟨bound, .selecting⟩

/-! ## §4. Single bytes. -/

theorem takeFirst_sound (h : Coherent maxBlock f) (byte : UInt8) (now : Time) :
    (f.takeFirst byte now).fed.Sound maxBlock := by
  unfold takeFirst
  split
  next => exact .of_none (restart_coherent h.bound now)
  next hsync =>
    -- a line without a format may start with any other byte, a line feed too
    exact .of_none ⟨h.bound, .plain rfl hsync (fun _ hb => absurd hb List.not_mem_nil) rfl⟩

theorem takeSelector_sound (h : Coherent maxBlock f) (hstage : f.stage = .selecting)
    (byte : UInt8) (now : Time) : (f.takeSelector byte now).fed.Sound maxBlock := by
  have bound := h.bound
  obtain ⟨start, come⟩ := h.draft_of_selecting hstage
  unfold takeSelector
  rw [come]
  split
  next => exact .of_none (restart_coherent bound now)
  next hsync =>
    split
    next format hformat =>
      refine .of_none ⟨bound, ?_⟩
      dsimp only
      split
      next hbinary =>
        -- only `@` selects the binary format
        subst hbinary
        have hbyte : byte = blockByte := by
          unfold classifySecond at hformat
          repeat' split at hformat
          all_goals first | assumption | cases hformat
        subst hbyte
        exact .header (List.prefix_refl _) rfl (show 2 < 8 by decide)
      next htext => exact .confirming hformat htext
    next => exact drop_sound bound _

theorem takeConfirmation_sound (h : Coherent maxBlock f) (hstage : f.stage = .confirming)
    (byte : UInt8) (now : Time) : (f.takeConfirmation byte now).fed.Sound maxBlock := by
  have bound := h.bound
  obtain ⟨selector, format, start, come, selects, text⟩ := h.draft_of_confirming hstage
  unfold takeConfirmation
  rw [come]
  split
  next => exact .of_none (restart_coherent bound now)
  next =>
    split
    next confirmed hconfirmed =>
      have hopens : Opens confirmed [syncByte, selector, byte] :=
        (opens_iff _ _).mpr ⟨selector, byte, format, rfl, selects, text, hconfirmed⟩
      exact .of_none ⟨bound, .line hopens (fun _ hb => absurd hb List.not_mem_nil) rfl⟩
    next => exact drop_sound bound _

/-! ## §5. Lines. -/

namespace InProgress

variable {d : Draft}

/-- Text may go on with any byte that neither ends it nor restarts. -/
theorem extend {byte : UInt8} (h : InProgress maxBlock .line d) (hsync : byte ≠ syncByte)
    (hfeed : byte ≠ lineFeed) (hprompt : ¬(byte = promptEnd ∧ d.format = .unknown)) :
    InProgress maxBlock .line (d.push byte) := by
  cases h with
  | @line _ opening text opens clean come =>
      have hclean : LineText (text ++ [byte]) :=
        lineText_append.mpr ⟨clean, List.forall_mem_singleton.mpr ⟨hsync, hfeed⟩⟩
      have hcome : (d.push byte).bytes.toList = opening ++ (text ++ [byte]) := by
        rw [Draft.push_toList, come, List.append_assoc]
      exact .line opens hclean hcome
  | @plain _ first text unknown head clean come =>
      have hplain : byte ≠ promptEnd := fun hb => hprompt ⟨hb, unknown⟩
      have hclean : PlainText (text ++ [byte]) :=
        plainText_append.mpr ⟨clean, List.forall_mem_singleton.mpr ⟨hsync, hfeed, hplain⟩⟩
      have hcome : (d.push byte).bytes.toList = first :: (text ++ [byte]) := by
        rw [Draft.push_toList, come, List.cons_append]
      exact .plain unknown head hclean hcome

/-- A line that has come up to its carriage return is whole with the line
feed. -/
theorem wellFormed_lineFeed (h : InProgress maxBlock .line d)
    (hends : d.bytes.toList.getLast? = some carriageReturn) :
    WellFormed maxBlock d.format (d.bytes.toList ++ [lineFeed]) := by
  cases h with
  | @line _ opening text opens clean come =>
      rw [come] at hends ⊢
      rcases List.eq_nil_or_concat text with rfl | ⟨before, last, rfl⟩
      · -- the carriage return is not one of the first three bytes
        rw [List.append_nil] at hends
        exact absurd hends opens.getLast?_ne
      · -- it is the last byte of the text, and the rest of the text stays
        rw [List.concat_eq_append] at hends clean ⊢
        rw [← List.append_assoc, List.getLast?_concat] at hends
        injection hends with hlast
        have hwhole : WellFormed maxBlock d.format (opening ++ before ++ [last, lineFeed]) :=
          hlast ▸ .line opens (lineText_append.mp clean).1
        simpa only [List.append_assoc, List.cons_append, List.nil_append] using hwhole
  | @plain _ first text unknown head clean come =>
      rw [unknown, come]
      exact .unknown head clean (come ▸ hends)

/-- A line without a format is a whole prompt with `>`. -/
theorem wellFormed_promptEnd (h : InProgress maxBlock .line d) (hunknown : d.format = .unknown) :
    WellFormed maxBlock .prompt (d.bytes.toList ++ [promptEnd]) := by
  cases h with
  | line opens => exact absurd hunknown opens.ne_unknown
  | plain _ head clean come =>
      rw [come]
      exact .prompt head clean

end InProgress

theorem takeLineByte_sound (h : Coherent maxBlock f) (hstage : f.stage = .line) (byte : UInt8)
    (now : Time) : (f.takeLineByte byte now).fed.Sound maxBlock := by
  have bound := h.bound
  have hprogress := h.at_stage hstage
  unfold takeLineByte
  dsimp only
  -- the byte is already kept when it is looked at, but a `$` starts afresh
  split
  next => exact .of_none ⟨bound, .selecting⟩
  next hsync =>
    split
    next hfeed =>
      split
      next hends =>
        refine deliver_sound bound ?_
        rw [hfeed]
        show WellFormed maxBlock f.draft.format (f.draft.push lineFeed).bytes.toList
        rw [Draft.push_toList]
        exact hprogress.wellFormed_lineFeed ((endsLine_push _ _).mp hends)
      next => exact .of_none ⟨bound, .idle⟩
    next hfeed =>
      split
      next hprompt =>
        obtain ⟨hbyte, hunknown⟩ := hprompt
        refine deliver_sound bound ?_
        show WellFormed maxBlock .prompt (f.draft.push byte).bytes.toList
        rw [Draft.push_toList, hbyte]
        exact hprogress.wellFormed_promptEnd hunknown
      next hprompt =>
        refine .of_none ⟨bound, ?_⟩
        show InProgress maxBlock f.stage (f.draft.push byte)
        rw [hstage]
        exact hprogress.extend hsync hfeed hprompt

/-! ## §6. Blocks. -/

/-- A block that has come whole is delivered only with the right checksum. -/
theorem checkBody_sound (bound : f.maxBlock = maxBlock)
    (sync : [syncByte, blockByte] <+: f.draft.bytes.toList) (binary : f.draft.format = .binary)
    (header : Block.headerSize ≤ f.draft.bytes.size)
    (stated : Block.WordAt f.draft.bytes.toList 6 f.draft.bytes.size)
    (size : f.draft.bytes.size ≤ maxBlock) : f.checkBody.fed.Sound maxBlock := by
  rw [← Array.length_toList] at header stated size
  unfold checkBody
  dsimp only
  split
  next hvalid =>
    refine deliver_sound bound ?_
    rw [binary]
    exact .block ⟨sync, header, stated, size, (Block.isValid_iff header stated).mp hvalid⟩
  next => exact .of_none ⟨bound, .idle⟩

/-- A header that has come whole leads to the body of an accepted block, or is
all of the block. -/
theorem checkHeader_sound (bound : f.maxBlock = maxBlock)
    (sync : [syncByte, blockByte] <+: f.draft.bytes.toList) (binary : f.draft.format = .binary)
    (whole : f.draft.bytes.size = Block.headerSize) : f.checkHeader.fed.Sound maxBlock := by
  obtain ⟨w, hw, stated⟩ := Block.length?_eq_some
    (show Block.headerSize ≤ f.draft.bytes.toList.length from Nat.le_of_eq whole.symm)
  unfold checkHeader
  rw [hw]
  dsimp only [Option.getD_some]
  split
  next => exact drop_sound bound _
  next hmax =>
    have hle : w.toNat ≤ maxBlock := bound ▸ Nat.le_of_not_lt hmax
    split
    next => exact drop_sound bound _
    next hmin =>
      split
      next heq =>
        -- a block without a body is checked at once
        rw [heq, ← whole] at stated hle
        exact checkBody_sound bound sync binary (Nat.le_of_eq whole.symm) stated hle
      next hne =>
        refine .of_none ⟨bound, .body sync binary (Nat.le_of_eq whole.symm) stated hle ?_⟩
        show f.draft.bytes.size < w.toNat
        omega

/-- Bytes of a header, not more than are missing. -/
theorem takeHeaderBytes_sound (h : Coherent maxBlock f) (hstage : f.stage = .header)
    {bytes : List UInt8} (hlen : bytes.length ≤ f.wanted) :
    (f.takeBlockBytes bytes checkHeader).fed.Sound maxBlock := by
  have bound := h.bound
  cases h.at_stage hstage with
  | header sync binary short =>
      have hsync := prefix_grow sync bytes
      have hsize := f.grow_size bytes
      have hgrown : (f.grow bytes).wanted = Block.headerSize - (f.grow bytes).draft.bytes.size :=
        wanted_header hstage
      rw [wanted_header hstage] at hlen
      rw [takeBlockBytes_eq]
      split
      next hmissing =>
        refine .of_none ⟨bound, ?_⟩
        show InProgress maxBlock f.stage (f.grow bytes).draft
        rw [hstage]
        exact .header hsync binary (by omega)
      next hmissing =>
        -- none is missing, and not more were taken than were
        exact checkHeader_sound bound hsync binary (by omega)

/-- Bytes of a body, not more than are missing. -/
theorem takeBodyBytes_sound {length : Nat} (h : Coherent maxBlock f)
    (hstage : f.stage = .body length) {bytes : List UInt8} (hlen : bytes.length ≤ f.wanted) :
    (f.takeBlockBytes bytes checkBody).fed.Sound maxBlock := by
  have bound := h.bound
  cases h.at_stage hstage with
  | body sync binary header stated size short =>
      have hsync := prefix_grow sync bytes
      have hstated : Block.WordAt (f.grow bytes).draft.bytes.toList 6 length := by
        rw [grow_toList]
        exact stated.append bytes
      have hsize := f.grow_size bytes
      have hgrown : (f.grow bytes).wanted = length - (f.grow bytes).draft.bytes.size :=
        wanted_body hstage
      rw [wanted_body hstage] at hlen
      rw [takeBlockBytes_eq]
      split
      next hmissing =>
        refine .of_none ⟨bound, ?_⟩
        show InProgress maxBlock f.stage (f.grow bytes).draft
        rw [hstage]
        exact .body hsync binary (by omega) hstated size (by omega)
      next hmissing =>
        have hwhole : (f.grow bytes).draft.bytes.size = length := by omega
        rw [← hwhole] at hstated size
        exact checkBody_sound bound hsync binary (by omega) hstated size

/-! ## §7. Calls and runs. -/

/-- **One push keeps a coherent framer coherent**, and what it delivers is
well-formed. -/
theorem push_sound (h : Coherent maxBlock f) (bytes : List UInt8) (now : Time) :
    (f.push bytes now).2.fed.Sound maxBlock := by
  match bytes with
  | [] => exact .of_none h
  | byte :: rest =>
      have hne := List.cons_ne_nil byte rest
      cases hstage : f.stage with
      | idle =>
          rw [push_idle hstage]
          exact takeFirst_sound h byte now
      | selecting =>
          rw [push_selecting hstage]
          exact takeSelector_sound h hstage byte now
      | confirming =>
          rw [push_confirming hstage]
          exact takeConfirmation_sound h hstage byte now
      | line =>
          rw [push_line hstage]
          exact takeLineByte_sound h hstage byte now
      | header =>
          rw [push_of_checkOf (checkOf_header hstage) hne]
          exact takeHeaderBytes_sound h hstage (List.length_take_le _ _)
      | body length =>
          rw [push_of_checkOf (checkOf_body hstage) hne]
          exact takeBodyBytes_sound h hstage (List.length_take_le _ _)

theorem push_coherent (h : Coherent maxBlock f) (bytes : List UInt8) (now : Time) :
    Coherent maxBlock (f.push bytes now).2.framer :=
  (push_sound h bytes now).coherent

theorem abort_sound (h : Coherent maxBlock f) (read : Nat) :
    (f.abort read).fed.Sound maxBlock := by
  unfold abort
  split
  next => exact .of_none h
  next => exact drop_sound h.bound _

/-- A push of something on a coherent framer takes something. -/
theorem push_fst_pos (h : Coherent maxBlock f) {bytes : List UInt8} (hne : bytes ≠ [])
    (now : Time) : 0 < (f.push bytes now).1 := by
  rw [push_fst]
  exact Nat.lt_min.mpr ⟨h.wanted_pos, List.length_pos_iff.mpr hne⟩

theorem feed_sound {f : Framer} (h : Coherent maxBlock f) (bytes : List UInt8) (now : Time) :
    (f.feed bytes now).Sound maxBlock := by
  match bytes with
  | [] =>
      rw [feed_nil]
      exact .start h
  | byte :: rest =>
      -- by induction on the length: each push takes something
      have hused := push_fst_pos h (List.cons_ne_nil byte rest) now
      have hshort : ((byte :: rest).drop (f.push (byte :: rest) now).1).length
          < (byte :: rest).length := by
        rw [List.length_drop, List.length_cons]
        omega
      rw [feed_eq f now hused]
      exact (push_sound h _ now).andThen fun hg => feed_sound hg _ now
termination_by bytes.length

theorem call_sound (h : Coherent maxBlock f) (c : Call) : (f.call c).Sound maxBlock := by
  cases c with
  | push bytes now => exact push_sound h bytes now
  | feed bytes now => exact feed_sound h bytes now
  | abort read => exact abort_sound h read

theorem run_sound (h : Coherent maxBlock f) (calls : List Call) : (f.run calls).Sound maxBlock :=
  Fed.Sound.runAll (fun _ c hg => call_sound hg c) h calls

/-- **Whatever was called on a new framer, it is coherent.** -/
theorem reachable_coherent (h : Reachable maxBlock f) : Coherent maxBlock f := by
  obtain ⟨calls, rfl⟩ := h
  exact (run_sound (new_coherent maxBlock) calls).coherent

/-- **Framing is sound**: whatever is called on a new framer, with any bytes at
any times, each telegram that it delivers is a whole one of its format. -/
theorem run_wellFormed (maxBlock : Nat) (calls : List Call) :
    ∀ t ∈ ((new maxBlock).run calls).telegrams, WellFormed maxBlock t.format t.bytes :=
  (run_sound (new_coherent maxBlock) calls).shape

/-- A block that breaks off, a line inside a line, and a line that is cut into
pushes: one telegram comes of it. -/
theorem run_wellFormed_restart :
    (⟨.nmea, [0x24, 0x47, 0x50, 0x3E, 0x0D, 0x0A], 7⟩ : Telegram)
        ∈ ((new 64).run [.feed [0x24, 0x40, 0x00] 1, .abort 1, .feed [0x24, 0x52, 0x3A, 0x24] 7,
          .push [0x47] 8, .push [0x50, 0x50] 8, .feed [0x3E, 0x0D, 0x0A] 9]).telegrams
      ∧ WellFormed 64 .nmea [0x24, 0x47, 0x50, 0x3E, 0x0D, 0x0A] := by
  have hmem : (⟨.nmea, [0x24, 0x47, 0x50, 0x3E, 0x0D, 0x0A], 7⟩ : Telegram)
      ∈ ((new 64).run [.feed [0x24, 0x40, 0x00] 1, .abort 1, .feed [0x24, 0x52, 0x3A, 0x24] 7,
          .push [0x47] 8, .push [0x50, 0x50] 8, .feed [0x3E, 0x0D, 0x0A] 9]).telegrams := by
    decide +kernel
  exact ⟨hmem, run_wellFormed 64 _ _ hmem⟩

end Framer

end ReceiverLink
