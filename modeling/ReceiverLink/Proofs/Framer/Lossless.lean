/-
  ReceiverLink.Proofs.Framer.Lossless
  ────────────────────────────────
  **Whole telegrams come out as they went in.**

  Feeding the bytes of a well-formed telegram is followed from its first byte
  to its last.  The way from `$` on is the same wherever the `$` came
  (`feed_afterSync`), which is also what resynchronizing needs.

  Main statements:
    * `feed_wellFormed` — one telegram, fed to an idle framer;
    * `feed_flatten_wellFormed` — any list of telegrams, with nothing between
      them.
-/
import ReceiverLink.Proofs.Framer.Chunks

namespace ReceiverLink

namespace Framer

variable {maxBlock : Nat} {f : Framer} {now : Time}

/-- The telegram has just been delivered. -/
def delivered (f : Framer) (t : Telegram) : Fed :=
  ⟨f.reset.countDelivered, #[t], #[.framed t.format t.size]⟩

/-- What was left after feeding something is coherent. -/
theorem Coherent.of_feed {g : Framer} (h : Coherent maxBlock f) {bytes : List UInt8}
    (hfeed : f.feed bytes now = .start g) : Coherent maxBlock g := by
  have hg := (feed_sound h bytes now).coherent
  rw [hfeed] at hg
  exact hg

/-- What was left after a push is coherent. -/
theorem Coherent.of_push {g : Framer} {t : Option Telegram} {events : List FramingEvent}
    (h : Coherent maxBlock f) {bytes : List UInt8} (hpush : (f.push bytes now).2 = ⟨g, t, events⟩) :
    Coherent maxBlock g := by
  have hg := push_coherent h bytes now
  rw [hpush] at hg
  exact hg

/-- A byte of which nothing is noted yet is fed before the rest. -/
theorem feed_cons_of_push {g : Framer} (h : Coherent maxBlock f) {byte : UInt8}
    (hpush : (f.push [byte] now).2 = ⟨g, none, []⟩) (rest : List UInt8) :
    f.feed (byte :: rest) now = g.feed rest now := by
  rw [feed_cons h, hpush, Step.fed_none, Fed.start_andThen]

/-- A single byte is fed by pushing it. -/
theorem feed_singleton (h : Coherent maxBlock f) (byte : UInt8) :
    f.feed [byte] now = (f.push [byte] now).2.fed := by
  rw [feed_cons h, Fed.andThen_congr (feed_nil _ now), Fed.andThen_start]

/-! ## §1. Lines. -/

/-- Text neither ends a line nor restarts, so that it is only kept. -/
theorem feed_text {f : Framer} (h : Coherent maxBlock f) (hstage : f.stage = .line)
    {text : List UInt8} (clean : LineText text)
    (plain : f.draft.format = .unknown → promptEnd ∉ text) (now : Time) :
    f.feed text now = .start (f.grow text) := by
  induction text generalizing f with
  | nil => exact feed_nil f now
  | cons byte rest ih =>
      obtain ⟨⟨hsync, hfeed⟩, hrest⟩ := List.forall_mem_cons.mp clean
      have hprompt : ¬(byte = promptEnd ∧ f.draft.format = .unknown) := by
        rintro ⟨hbyte, hunknown⟩
        exact plain hunknown (hbyte ▸ List.mem_cons_self)
      have hpush : (f.push [byte] now).2 = ⟨f.grow [byte], none, []⟩ := by
        rw [push_line hstage]
        unfold takeLineByte
        dsimp only
        rw [if_neg hsync, if_neg hfeed, if_neg (show ¬(byte = promptEnd
          ∧ (f.draft.push byte).format = .unknown) from hprompt)]
        rfl
      rw [feed_cons_of_push h hpush, ih (h.of_push hpush) hstage hrest
        (fun hunknown hmem => plain hunknown (List.mem_cons_of_mem _ hmem)), grow_append]
      rfl

/-- A line feed after a carriage return delivers the line. -/
theorem feed_lineFeed (h : Coherent maxBlock f) (hstage : f.stage = .line)
    (hends : f.draft.bytes.toList.getLast? = some carriageReturn) :
    f.feed [lineFeed] now
      = f.delivered ⟨f.draft.format, f.draft.bytes.toList ++ [lineFeed], f.draft.captured⟩ := by
  rw [feed_singleton h, push_line hstage]
  unfold takeLineByte
  dsimp only
  rw [if_neg (by decide), if_pos rfl, if_pos (show endsLine (f.draft.push lineFeed).bytes = true
    from (endsLine_push _ _).mpr hends), ← Draft.push_toList]
  rfl

/-- `>` delivers a line without a format as a prompt. -/
theorem feed_promptEnd (h : Coherent maxBlock f) (hstage : f.stage = .line)
    (hunknown : f.draft.format = .unknown) :
    f.feed [promptEnd] now
      = f.delivered ⟨.prompt, f.draft.bytes.toList ++ [promptEnd], f.draft.captured⟩ := by
  rw [feed_singleton h, push_line hstage]
  unfold takeLineByte
  dsimp only
  rw [if_neg (by decide), if_neg (by decide), if_pos ⟨rfl, hunknown⟩, ← Draft.push_toList]
  rfl

/-- The rest of a line from its text on. -/
theorem feed_lineEnd (h : Coherent maxBlock f) (hstage : f.stage = .line)
    (hformat : f.draft.format ≠ .unknown) {text : List UInt8} (clean : LineText text) :
    f.feed (text ++ [carriageReturn, lineFeed]) now
      = f.delivered ⟨f.draft.format, f.draft.bytes.toList ++ (text ++ [carriageReturn, lineFeed]),
          f.draft.captured⟩ := by
  -- the carriage return is kept like text; only the line feed ends the line
  have hclean : LineText (text ++ [carriageReturn]) :=
    lineText_append.mpr ⟨clean, List.forall_mem_singleton.mpr (by decide)⟩
  have htext := feed_text h hstage hclean (fun hunknown => absurd hunknown hformat) now
  have hgrown := h.of_feed htext
  have hends : (f.grow (text ++ [carriageReturn])).draft.bytes.toList.getLast?
      = some carriageReturn := by
    rw [grow_toList, ← List.append_assoc, List.getLast?_concat]
  rw [show text ++ [carriageReturn, lineFeed] = (text ++ [carriageReturn]) ++ [lineFeed] by
    rw [List.append_assoc]; rfl, feed_append h, htext, Fed.start_andThen,
    feed_lineFeed hgrown hstage hends, grow_toList, List.append_assoc f.draft.bytes.toList]
  rfl

/-! ## §2. Blocks. -/

/-- Once all that a burst wants has come, the block is checked. -/
theorem feed_whole {check : Framer → Step} (h : Coherent maxBlock f)
    (hcheck : checkOf f.stage = some check) {bytes : List UInt8}
    (hlen : bytes.length = f.wanted) (now : Time) :
    f.feed bytes now = (check (f.grow bytes)).fed := by
  have hne : bytes ≠ [] := by
    rw [← List.length_pos_iff, hlen]
    exact h.wanted_pos
  have htake : bytes.take f.wanted = bytes := List.take_of_length_le (Nat.le_of_eq hlen)
  have hfed := push_fed_eq_feed h bytes now
  rw [htake, push_of_checkOf hcheck hne, htake, takeBlockBytes_eq, wanted_grow hcheck, hlen,
    if_neg (by omega)] at hfed
  exact hfed.symm

theorem checkBody_eq_deliver (h : Block.IsBlock maxBlock f.draft.bytes.toList) :
    f.checkBody = f.deliver := by
  unfold checkBody
  dsimp only
  rw [if_pos ((Block.isValid_iff h.header h.length).mpr h.checksum)]

/-- A header that states an accepted length. -/
theorem checkHeader_of_stated {n : Nat} (stated : Block.WordAt f.draft.bytes.toList 6 n)
    (hmax : n ≤ f.maxBlock) (hmin : Block.headerSize ≤ n) :
    f.checkHeader
      = if n = Block.headerSize then f.checkBody else ⟨{ f with stage := .body n }, none, []⟩ := by
  obtain ⟨w, hw, rfl⟩ := stated.read
  have hlength : Block.length? f.draft.bytes.toList = some w := hw
  unfold checkHeader
  rw [hlength]
  dsimp only [Option.getD_some]
  rw [if_neg (Nat.not_lt.mpr hmax), if_neg (Nat.not_lt.mpr hmin)]

/-- The rest of a block from its body on. -/
theorem feed_blockBody {rest : List UInt8} (h : Coherent maxBlock f)
    (hstage : f.stage = .body (f.draft.bytes.toList ++ rest).length)
    (block : Block.IsBlock maxBlock (f.draft.bytes.toList ++ rest)) :
    f.feed rest now
      = f.delivered ⟨f.draft.format, f.draft.bytes.toList ++ rest, f.draft.captured⟩ := by
  have hlen : rest.length = f.wanted := by
    rw [wanted_body hstage, List.length_append, f.draft.bytes.length_toList,
      Nat.add_sub_cancel_left]
  rw [feed_whole h (checkOf_body hstage) hlen]
  rw [← grow_toList] at block ⊢
  rw [checkBody_eq_deliver block]
  rfl

/-- The rest of a block from its header on. -/
theorem feed_blockHeader {rest : List UInt8} (h : Coherent maxBlock f) (hstage : f.stage = .header)
    (block : Block.IsBlock maxBlock (f.draft.bytes.toList ++ rest)) :
    f.feed rest now
      = f.delivered ⟨f.draft.format, f.draft.bytes.toList ++ rest, f.draft.captured⟩ := by
  have hwanted := wanted_header hstage
  have htotal := block.header
  rw [List.length_append, Array.length_toList] at htotal
  -- the header is completed by what is wanted of the rest, and the body follows
  obtain ⟨head, body, rfl, hhead⟩ : ∃ head body, rest = head ++ body ∧ head.length = f.wanted :=
    ⟨rest.take f.wanted, rest.drop f.wanted, (List.take_append_drop _ _).symm, by
      rw [List.length_take]; omega⟩
  have hpos := h.wanted_pos
  have hsize : (f.grow head).draft.bytes.size = Block.headerSize := by
    rw [grow_size]
    omega
  rw [← List.append_assoc, ← grow_toList] at block ⊢
  have hbytes : ((f.grow head).draft.bytes.toList ++ body).length
      = Block.headerSize + body.length := by
    rw [List.length_append, Array.length_toList, hsize]
  have hstated : Block.WordAt (f.grow head).draft.bytes.toList 6
      ((f.grow head).draft.bytes.toList ++ body).length :=
    block.length.of_append (by rw [Array.length_toList, hsize]; decide)
  have hjudged := checkHeader_of_stated hstated
    (show _ ≤ f.maxBlock from h.bound.symm ▸ block.bound) block.header
  have hfirst := feed_whole h (checkOf_header hstage) hhead now
  rw [hjudged] at hfirst
  rw [feed_append h]
  match body with
  | [] =>
      -- the header is the whole block
      rw [List.append_nil] at block hfirst ⊢
      rw [if_pos (by rw [Array.length_toList, hsize]), checkBody_eq_deliver block] at hfirst
      rw [Fed.andThen_congr (feed_nil _ now), Fed.andThen_start, hfirst]
      rfl
  | byte :: body =>
      rw [if_neg (by rw [hbytes, List.length_cons]; omega)] at hfirst
      have hnext := h.of_feed hfirst
      rw [hfirst]
      exact (Fed.start_andThen _ _).trans (feed_blockBody hnext rfl block)

/-! ## §3. From the first byte on. -/

theorem confirmThird_syncByte (provisional : Format) :
    confirmThird provisional syncByte = none := by
  cases provisional <;> rfl

/-- The selector after `$`. -/
theorem push_selector {start : Time} {selector : UInt8} {format : Format}
    (hstage : f.stage = .selecting) (hdraft : f.draft = .startingWith syncByte start)
    (hselects : classifySecond selector = some format) (now : Time) :
    (f.push [selector] now).2
      = ⟨{ f with
            stage := if format = .binary then .header else .confirming
            draft := ⟨#[syncByte, selector], format, start⟩ }, none, []⟩ := by
  -- `$` selects no format, so that it is not taken for a repeated one
  have hsync : selector ≠ syncByte := by
    rintro rfl
    cases hselects
  rw [push_selecting hstage]
  unfold takeSelector
  rw [if_neg hsync, hselects, hdraft]
  rfl

/-- The byte that confirms a text format. -/
theorem push_confirmation {start : Time} {selector third : UInt8} {provisional format : Format}
    (hstage : f.stage = .confirming)
    (hdraft : f.draft = ⟨#[syncByte, selector], provisional, start⟩)
    (hconfirms : confirmThird provisional third = some format) (now : Time) :
    (f.push [third] now).2
      = ⟨{ f with stage := .line, draft := ⟨#[syncByte, selector, third], format, start⟩ },
          none, []⟩ := by
  have hsync : third ≠ syncByte := by
    rintro rfl
    rw [confirmThird_syncByte] at hconfirms
    cases hconfirms
  rw [push_confirming hstage]
  unfold takeConfirmation
  rw [if_neg hsync, hdraft, hconfirms]
  rfl

/-- The opening of a line after its `$`. -/
theorem feed_opening {start : Time} {format : Format} {selector third : UInt8}
    (h : Coherent maxBlock f) (hstage : f.stage = .selecting)
    (hdraft : f.draft = .startingWith syncByte start)
    (opens : Opens format [syncByte, selector, third]) (now : Time) :
    f.feed [selector, third] now
      = .start { f with
          stage := .line, draft := ⟨#[syncByte, selector, third], format, start⟩ } := by
  obtain ⟨_, _, provisional, heq, hselects, htext, hconfirms⟩ := (opens_iff _ _).mp opens
  cases heq
  have hselector := push_selector hstage hdraft hselects now
  rw [if_neg htext] at hselector
  have hnext := h.of_push hselector
  rw [feed_cons_of_push h hselector, feed_singleton hnext,
    push_confirmation rfl rfl hconfirms]
  rfl

/-- **After `$` the rest of a telegram that starts with it delivers it**,
whatever came before the `$`. -/
theorem feed_afterSync {start : Time} {format : Format} {rest : List UInt8}
    (h : Coherent maxBlock f) (hstage : f.stage = .selecting)
    (hdraft : f.draft = .startingWith syncByte start)
    (hwhole : WellFormed maxBlock format (syncByte :: rest)) (now : Time) :
    f.feed rest now = f.delivered ⟨format, syncByte :: rest, start⟩ := by
  generalize hbytes : syncByte :: rest = bytes at hwhole
  cases hwhole with
  | block block =>
      obtain ⟨more, rfl⟩ := block.sync
      injection hbytes with _ hrest
      subst hrest
      have hpush := push_selector hstage hdraft
        (show classifySecond blockByte = some .binary from rfl) now
      show f.feed (blockByte :: more) now = _
      rw [feed_cons_of_push h hpush, feed_blockHeader (h.of_push hpush) rfl block]
      rfl
  | line opens clean =>
      obtain ⟨selector, third, _, rfl, -⟩ := (opens_iff _ _).mp opens
      injection hbytes with _ hrest
      subst hrest
      have hopening := feed_opening h hstage hdraft opens now
      show f.feed ([selector, third] ++ _ ++ [carriageReturn, lineFeed]) now = _
      rw [List.append_assoc, feed_append h, hopening, Fed.start_andThen,
        feed_lineEnd (h.of_feed hopening) rfl opens.ne_unknown clean]
      rfl
  | unknown head =>
      -- the other two kinds start with another byte
      injection hbytes with hfirst
      exact absurd hfirst.symm head
  | prompt head =>
      injection hbytes with hfirst
      exact absurd hfirst.symm head

/-- A telegram that starts with `$`, fed to an idle framer. -/
theorem feed_sync {format : Format} {rest : List UInt8} (h : Coherent maxBlock f)
    (hstage : f.stage = .idle) (hwhole : WellFormed maxBlock format (syncByte :: rest))
    (now : Time) : f.feed (syncByte :: rest) now = f.delivered ⟨format, syncByte :: rest, now⟩ := by
  have hpush : (f.push [syncByte] now).2 = ⟨f.restart now, none, []⟩ := by
    rw [push_idle hstage]
    rfl
  rw [feed_cons_of_push h hpush]
  exact feed_afterSync (h.of_push hpush) rfl rfl hwhole now

/-- The first byte and the text of a line without a format. -/
theorem feed_plain {first : UInt8} {text : List UInt8} (h : Coherent maxBlock f)
    (hstage : f.stage = .idle) (head : first ≠ syncByte) (clean : PlainText text) (now : Time) :
    f.feed (first :: text) now
      = .start (grow { f with stage := .line, draft := .startingWith first now } text) := by
  have hpush : (f.push [first] now).2
      = ⟨{ f with stage := .line, draft := .startingWith first now }, none, []⟩ := by
    rw [push_idle hstage]
    unfold takeFirst
    rw [if_neg head]
  rw [feed_cons_of_push h hpush]
  exact feed_text (h.of_push hpush) rfl (fun b hb => ⟨(clean b hb).1, (clean b hb).2.1⟩)
    (fun _ hprompt => (clean _ hprompt).2.2 rfl) now

/-- **A whole telegram, fed to an idle framer, is delivered as it is.** -/
theorem feed_wellFormed {format : Format} {bytes : List UInt8} (h : Coherent maxBlock f)
    (hstage : f.stage = .idle) (hwhole : WellFormed maxBlock format bytes) (now : Time) :
    f.feed bytes now = f.delivered ⟨format, bytes, now⟩ := by
  cases hwhole with
  | block block =>
      obtain ⟨more, rfl⟩ := block.sync
      exact feed_sync h hstage (.block block) now
  | line opens clean =>
      obtain ⟨selector, third, _, rfl, -⟩ := (opens_iff _ _).mp opens
      exact feed_sync h hstage (.line opens clean) now
  | unknown head clean ends =>
      have hplain := feed_plain h hstage head clean now
      rw [feed_append h, hplain, Fed.start_andThen,
        feed_lineFeed (h.of_feed hplain) rfl (by rw [grow_toList]; exact ends), grow_toList]
      rfl
  | prompt head clean =>
      have hplain := feed_plain h hstage head clean now
      rw [feed_append h, hplain, Fed.start_andThen,
        feed_promptEnd (h.of_feed hplain) rfl rfl, grow_toList]
      rfl

/-! ## §4. Lists of telegrams. -/

/-- Many whole telegrams, fed to an idle framer in one go. -/
theorem feed_flatten {f : Framer} (h : Coherent maxBlock f) (hstage : f.stage = .idle)
    (telegrams : List (Format × List UInt8))
    (hwhole : ∀ t ∈ telegrams, WellFormed maxBlock t.1 t.2) (now : Time) :
    (f.feed (telegrams.map Prod.snd).flatten now).telegrams.toList
        = telegrams.map (fun t => ⟨t.1, t.2, now⟩)
      ∧ (f.feed (telegrams.map Prod.snd).flatten now).framer.stage = .idle
      ∧ (f.feed (telegrams.map Prod.snd).flatten now).framer.stats
        = { f.stats with delivered := f.stats.delivered + telegrams.length } := by
  induction telegrams generalizing f with
  | nil =>
      rw [List.map_nil, List.flatten_nil, feed_nil]
      exact ⟨rfl, hstage, rfl⟩
  | cons t rest ih =>
      obtain ⟨hfirst, hrest⟩ := List.forall_mem_cons.mp hwhole
      have hfed := feed_wellFormed h hstage hfirst now
      have hnext := (feed_sound h t.2 now).coherent
      rw [hfed] at hnext
      -- the framer is idle again, and the others are fed to it
      obtain ⟨htelegrams, hidle, hstats⟩ := ih hnext rfl hrest
      rw [List.map_cons, List.flatten_cons, feed_append h, hfed]
      refine ⟨?_, hidle, ?_⟩
      · show (#[_] ++ _ : Array Telegram).toList = _
        rw [Array.toList_append, htelegrams]
        rfl
      · refine hstats.trans ?_
        show FramingStats.mk (f.stats.delivered + 1 + rest.length) _ _
          = FramingStats.mk (f.stats.delivered + (rest.length + 1)) _ _
        rw [Nat.add_assoc, Nat.add_comm 1]
        rfl

theorem Coherent.pending_of_idle (h : Coherent maxBlock f) (hstage : f.stage = .idle) :
    f.pending = 0 := by
  unfold pending
  rw [h.draft_of_idle hstage]
  rfl

/-- **Framing is lossless**: whole telegrams, one right after the other and fed
to a new framer, are delivered as that list, and nothing is left over. -/
theorem feed_flatten_wellFormed (maxBlock : Nat) (telegrams : List (Format × List UInt8))
    (hwhole : ∀ t ∈ telegrams, WellFormed maxBlock t.1 t.2) (now : Time) :
    ((new maxBlock).feed (telegrams.map Prod.snd).flatten now).telegrams.toList
        = telegrams.map (fun t => ⟨t.1, t.2, now⟩)
      ∧ ((new maxBlock).feed (telegrams.map Prod.snd).flatten now).framer.stage = .idle
      ∧ ((new maxBlock).feed (telegrams.map Prod.snd).flatten now).framer.pending = 0
      ∧ ((new maxBlock).feed (telegrams.map Prod.snd).flatten now).framer.stats
        = ⟨telegrams.length, 0, 0⟩ := by
  have h := new_coherent maxBlock
  obtain ⟨htelegrams, hidle, hstats⟩ := feed_flatten h rfl telegrams hwhole now
  refine ⟨htelegrams, hidle, (feed_sound h _ now).coherent.pending_of_idle hidle, ?_⟩
  rw [hstats]
  show FramingStats.mk (0 + telegrams.length) _ _ = _
  rw [Nat.zero_add]
  rfl

/-- A block whose body looks like text, a reply with a `>` in it, a line that
starts with a carriage return, a prompt that starts with `>`, and a block
without a body. -/
def mixture : List (Format × List UInt8) :=
  [(.binary, [0x24, 0x40, 0x00, 0x5A, 0xA7, 0x2F, 0x0C, 0x00, 0x24, 0x3E, 0x0D, 0x0A]),
    (.response, [0x24, 0x52, 0x3A, 0x3E, 0x0D, 0x0A]),
    (.unknown, [0x0D, 0x0D, 0x0A]),
    (.prompt, [0x3E, 0x3E]),
    (.binary, [0x24, 0x40, 0xEC, 0x35, 0x05, 0x00, 0x08, 0x00])]

theorem feed_flatten_wellFormed_mixture :
    (∀ t ∈ mixture, WellFormed 12 t.1 t.2)
      ∧ ((new 12).feed (mixture.map Prod.snd).flatten 7).telegrams.toList
        = mixture.map (fun t => ⟨t.1, t.2, 7⟩)
      ∧ ((new 12).feed (mixture.map Prod.snd).flatten 7).framer.stage = .idle
      ∧ ((new 12).feed (mixture.map Prod.snd).flatten 7).framer.pending = 0
      ∧ ((new 12).feed (mixture.map Prod.snd).flatten 7).framer.stats = ⟨5, 0, 0⟩ := by
  have hwhole : ∀ t ∈ mixture, WellFormed 12 t.1 t.2 := by
    unfold mixture
    simp only [List.forall_mem_cons]
    refine ⟨?_, ?_, ?_, ?_, ?_, fun _ ht => absurd ht List.not_mem_nil⟩
    · exact .block ⟨⟨_, rfl⟩, by decide, ⟨0x0C, 0x00, rfl, rfl, rfl⟩, by decide,
        ⟨0x00, 0x5A, rfl, rfl, by decide +kernel⟩⟩
    · exact @WellFormed.line 12 _ _ [0x3E] .reply (by decide)
    · exact @WellFormed.unknown 12 0x0D [0x0D] (by decide) (by decide) rfl
    · exact @WellFormed.prompt 12 0x3E [] (by decide) (by decide)
    · exact .block ⟨⟨_, rfl⟩, by decide, ⟨0x08, 0x00, rfl, rfl, rfl⟩, by decide,
        ⟨0xEC, 0x35, rfl, rfl, by decide +kernel⟩⟩
  exact ⟨hwhole, feed_flatten_wellFormed 12 mixture hwhole 7⟩

end Framer

end ReceiverLink
