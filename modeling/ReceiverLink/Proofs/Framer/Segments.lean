/-
  ReceiverLink.Proofs.Framer.Segments
  ────────────────────────────────
  **Where every byte of a stream goes.**

  A framer cuts what it takes in into segments: telegrams that it delivers,
  bytes that it drops because of a fault, and starts that it gives up for
  another `$`.  What is left over is the telegram in progress.  `Tiled` says
  that a stream is such a row of segments with a rest, and `Accounts` that it
  is the row which a framer reports: by what it delivers, by the faults that
  it notes and by its counts.

  Main statements:
    * `push_accounts` — one push ends at most one segment, and reports it;
    * `stream_accounted` — so every byte of a stream is accounted for.
-/
import ReceiverLink.Proofs.Framer.Resync

namespace ReceiverLink

/-! ## §1. Segments. -/

/-- A stretch of a stream that is done with. -/
inductive Segment where
  /-- A telegram was delivered. -/
  | telegram (t : Telegram)
  /-- Bytes were dropped because of a fault. -/
  | faulted (fault : Fault) (bytes : List UInt8)
  /-- The start of a telegram was given up for a `$`, which is no fault. -/
  | restarted (bytes : List UInt8)
  deriving Repr, DecidableEq

/-- The fault that an event reports. -/
def FramingEvent.fault? : FramingEvent → Option Fault
  | .resynchronizing fault => some fault
  | _ => none

/-- The fault is a wrong checksum. -/
def Fault.isChecksumMismatch : Fault → Bool
  | .checksumMismatch _ => true
  | _ => false

namespace Segment

def bytes : Segment → List UInt8
  | .telegram t => t.bytes
  | .faulted _ bytes => bytes
  | .restarted bytes => bytes

def telegram? : Segment → Option Telegram
  | .telegram t => some t
  | _ => none

def fault? : Segment → Option Fault
  | .faulted fault _ => some fault
  | _ => none

end Segment

/-- The bytes of a line that has not ended: with a format or without one. -/
inductive LineBegun : List UInt8 → Prop where
  | named {format : Format} {opening text : List UInt8} (opens : Opens format opening)
      (clean : LineText text) : LineBegun (opening ++ text)
  | plain {first : UInt8} {text : List UInt8} (head : first ≠ syncByte)
      (clean : PlainText text) : LineBegun (first :: text)

/-- The bytes show the fault that is reported of them. -/
inductive Faulty (maxBlock : Nat) : Fault → List UInt8 → Prop where
  | unknownFormat {byte : UInt8} (other : byte ≠ syncByte) (unknown : classifySecond byte = none) :
      Faulty maxBlock (.unknownFormat byte) [syncByte, byte]
  | unconfirmedFormat {selector byte : UInt8} {provisional : Format}
      (selects : classifySecond selector = some provisional) (text : provisional ≠ .binary)
      (other : byte ≠ syncByte) (unconfirmed : confirmThird provisional byte = none) :
      Faulty maxBlock (.unconfirmedFormat byte) [syncByte, selector, byte]
  /-- A header alone, which states too great a length. -/
  | blockTooLarge {bytes : List UInt8} {n : Nat} (sync : [syncByte, blockByte] <+: bytes)
      (header : bytes.length = Block.headerSize) (stated : Block.WordAt bytes 6 n)
      (large : maxBlock < n) : Faulty maxBlock (.blockTooLarge n maxBlock) bytes
  /-- A header alone, which states less than its own length. -/
  | blockTooShort {bytes : List UInt8} {n : Nat} (sync : [syncByte, blockByte] <+: bytes)
      (header : bytes.length = Block.headerSize) (stated : Block.WordAt bytes 6 n)
      (short : n < Block.headerSize) : Faulty maxBlock (.blockTooShort n) bytes
  /-- A whole block with a wrong checksum. -/
  | checksumMismatch {bytes : List UInt8} {number : UInt16}
      (sync : [syncByte, blockByte] <+: bytes) (header : Block.headerSize ≤ bytes.length)
      (stated : Block.WordAt bytes 6 bytes.length) (bound : bytes.length ≤ maxBlock)
      (named : Block.number? bytes = some number)
      (wrong : ¬Block.WordAt bytes 2 (Checksum.ofBytes (bytes.drop 4)).toNat) :
      Faulty maxBlock (.checksumMismatch number) bytes
  | lineWithoutReturn {line : List UInt8} (begun : LineBegun line)
      (bare : line.getLast? ≠ some carriageReturn) :
      Faulty maxBlock (.lineWithoutReturn (line.length + 1)) (line ++ [lineFeed])

/-- A segment is what it is said to be, given the bytes that follow it. -/
inductive Segment.Fits (maxBlock : Nat) : Segment → List UInt8 → Prop where
  | telegram {t : Telegram} {rest : List UInt8} (whole : WellFormed maxBlock t.format t.bytes) :
      Fits maxBlock (.telegram t) rest
  | faulted {fault : Fault} {bytes rest : List UInt8} (faulty : Faulty maxBlock fault bytes) :
      Fits maxBlock (.faulted fault bytes) rest
  /-- An unfinished line before a `$`. -/
  | interrupted {line rest : List UInt8} (begun : LineBegun line) (next : [syncByte] <+: rest) :
      Fits maxBlock (.faulted (.syncInsideLine line.length) line) rest
  /-- `$` before another `$`. -/
  | repeated {rest : List UInt8} (next : [syncByte] <+: rest) :
      Fits maxBlock (.restarted [syncByte]) rest
  /-- `$G`, `$I` or `$R` before a `$`. -/
  | unconfirmed {selector : UInt8} {provisional : Format} {rest : List UInt8}
      (selects : classifySecond selector = some provisional) (text : provisional ≠ .binary)
      (next : [syncByte] <+: rest) : Fits maxBlock (.restarted [syncByte, selector]) rest

/-! ## §2. Tilings. -/

/-- The stream is the row of segments, each of which fits what follows it, and
then the bytes of a telegram in progress. -/
inductive Tiled (maxBlock : Nat) : List Segment → (pending stream : List UInt8) → Prop where
  | pending (bytes : List UInt8) : Tiled maxBlock [] bytes bytes
  | cons {s : Segment} {segments : List Segment} {pending rest : List UInt8}
      (fits : s.Fits maxBlock rest) (tiled : Tiled maxBlock segments pending rest) :
      Tiled maxBlock (s :: segments) pending (s.bytes ++ rest)

variable {maxBlock : Nat}

/-- What follows a segment may go on. -/
theorem Segment.Fits.append {s : Segment} {rest : List UInt8} (h : s.Fits maxBlock rest)
    (more : List UInt8) : s.Fits maxBlock (rest ++ more) := by
  have hnext : ∀ {bytes : List UInt8}, bytes <+: rest → bytes <+: rest ++ more := by
    intro bytes hb
    exact hb.trans (List.prefix_append rest more)
  cases h with
  | telegram whole => exact .telegram whole
  | faulted faulty => exact .faulted faulty
  | interrupted begun next => exact .interrupted begun (hnext next)
  | repeated next => exact .repeated (hnext next)
  | unconfirmed selects text next => exact .unconfirmed selects text (hnext next)

namespace Tiled

variable {segments later : List Segment} {pending stream rest : List UInt8}

/-- A tiling covers its stream. -/
theorem eq_append (h : Tiled maxBlock segments pending stream) :
    stream = segments.flatMap Segment.bytes ++ pending := by
  induction h with
  | pending bytes => simp
  | cons fits tiled ih => rw [List.flatMap_cons, List.append_assoc, ← ih]

/-- **What comes next is tiled together with what was pending.** -/
theorem append {more : List UInt8} (h : Tiled maxBlock segments pending stream)
    (hmore : Tiled maxBlock later rest (pending ++ more)) :
    Tiled maxBlock (segments ++ later) rest (stream ++ more) := by
  induction h with
  | pending bytes => exact hmore
  | cons fits tiled ih =>
    rw [List.append_assoc]
    exact .cons (fits.append more) (ih hmore)

/-- One segment and the start of the next telegram. -/
theorem cut {s : Segment} {bytes : List UInt8} (hbytes : s.bytes = bytes)
    (fits : s.Fits maxBlock rest) : Tiled maxBlock [s] rest (bytes ++ rest) := by
  rw [← hbytes]
  exact .cons fits (.pending rest)

/-- One segment, with which the stream ends. -/
theorem whole {s : Segment} (fits : s.Fits maxBlock []) : Tiled maxBlock [s] [] s.bytes := by
  simpa using cut rfl fits

end Tiled

namespace Framer

/-! ## §3. Reports. -/

/-- What a framer has taken is tiled by the segments that it reports.  `f` is
the framer before, with the telegram it had in progress. -/
structure Accounts (maxBlock : Nat) (f : Framer) (bytes : List UInt8) (r : Fed)
    (segments : List Segment) : Prop where
  tiled : Tiled maxBlock segments r.framer.draft.bytes.toList (f.draft.bytes.toList ++ bytes)
  telegrams : r.telegrams.toList = segments.filterMap Segment.telegram?
  faults : r.events.toList.filterMap FramingEvent.fault? = segments.filterMap Segment.fault?
  delivered : r.framer.stats.delivered
    = f.stats.delivered + (segments.filterMap Segment.telegram?).length
  resyncs : r.framer.stats.resyncs
    = f.stats.resyncs + (segments.filterMap Segment.fault?).length
  checksumFailures : r.framer.stats.checksumFailures = f.stats.checksumFailures
    + (segments.filterMap Segment.fault?).countP Fault.isChecksumMismatch

namespace Accounts

variable {f : Framer} {bytes : List UInt8} {segments : List Segment}

theorem start (f : Framer) : Accounts maxBlock f [] (.start f) [] := by
  refine ⟨?_, rfl, rfl, rfl, rfl, rfl⟩
  rw [List.append_nil]
  exact .pending _

/-- Reports of what comes one after the other. -/
theorem andThen {a : Fed} {next : Framer → Fed} {more : List UInt8} {later : List Segment}
    (ha : Accounts maxBlock f bytes a segments)
    (hnext : Accounts maxBlock a.framer more (next a.framer) later) :
    Accounts maxBlock f (bytes ++ more) (a.andThen next) (segments ++ later) := by
  constructor
  · rw [← List.append_assoc]
    exact ha.tiled.append hnext.tiled
  · show (a.telegrams ++ (next a.framer).telegrams).toList = _
    rw [Array.toList_append, ha.telegrams, hnext.telegrams, List.filterMap_append]
  · show (a.events ++ (next a.framer).events).toList.filterMap _ = _
    rw [Array.toList_append, List.filterMap_append, ha.faults, hnext.faults,
      List.filterMap_append]
  · have h := ha.delivered
    have h' := hnext.delivered
    show (next a.framer).framer.stats.delivered = _
    rw [List.filterMap_append, List.length_append]
    omega
  · have h := ha.resyncs
    have h' := hnext.resyncs
    show (next a.framer).framer.stats.resyncs = _
    rw [List.filterMap_append, List.length_append]
    omega
  · have h := ha.checksumFailures
    have h' := hnext.checksumFailures
    show (next a.framer).framer.stats.checksumFailures = _
    rw [List.filterMap_append, List.countP_append]
    omega

/-- The bytes taken are kept for the telegram in progress. -/
theorem keep {g : Framer} (hstats : g.stats = f.stats)
    (hcome : g.draft.bytes.toList = f.draft.bytes.toList ++ bytes) :
    Accounts maxBlock f bytes (Step.fed ⟨g, none, []⟩) [] := by
  refine ⟨?_, rfl, rfl, ?_, ?_, ?_⟩
  · rw [← hcome]
    exact .pending _
  all_goals simp [Step.fed, hstats]

/-- The telegram in progress is whole with the bytes taken. -/
theorem deliver {g : Framer} (hstats : g.stats = f.stats)
    (hcome : g.draft.bytes.toList = f.draft.bytes.toList ++ bytes)
    (whole : WellFormed maxBlock g.draft.format g.draft.bytes.toList) :
    Accounts maxBlock f bytes g.deliver.fed [.telegram g.draft.finish] := by
  refine ⟨?_, rfl, rfl, ?_, ?_, ?_⟩
  · rw [← hcome]
    exact Tiled.whole (s := .telegram g.draft.finish) (.telegram whole)
  all_goals
    rw [← hstats]
    rfl

/-- The telegram in progress is dropped, and with it the bytes taken. -/
theorem drop {g : Framer} {fault : Fault} (hstats : g.stats = f.stats)
    (faulty : Faulty maxBlock fault (f.draft.bytes.toList ++ bytes))
    (hother : fault.isChecksumMismatch = false) :
    Accounts maxBlock f bytes (g.drop fault).fed
      [.faulted fault (f.draft.bytes.toList ++ bytes)] := by
  refine ⟨?_, rfl, rfl, ?_, ?_, ?_⟩
  · exact Tiled.whole (s := .faulted fault _) (.faulted faulty)
  · rw [← hstats]
    rfl
  · rw [← hstats]
    rfl
  · rw [← hstats]
    show g.stats.checksumFailures = g.stats.checksumFailures + List.countP _ [fault]
    simp [hother]

/-- The telegram in progress is given up for a `$`. -/
theorem restart {s : Segment} (hcome : f.draft.bytes.toList = s.bytes)
    (fits : s.Fits maxBlock [syncByte]) (hplain : s.telegram? = none ∧ s.fault? = none)
    (now : Time) :
    Accounts maxBlock f [syncByte] (Step.fed ⟨f.restart now, none, []⟩) [s] := by
  refine ⟨Tiled.cut hcome.symm fits, ?_, ?_, ?_, ?_, ?_⟩
  all_goals
    simp [Step.fed, Framer.restart, hplain.1, hplain.2]

end Accounts

/-! ## §4. Single bytes. -/

variable {f : Framer}

theorem takeFirst_accounts (h : Coherent maxBlock f) (hstage : f.stage = .idle) (byte : UInt8)
    (now : Time) : ∃ segments, Accounts maxBlock f [byte] (f.takeFirst byte now).fed segments := by
  have hnone : f.draft.bytes.toList = [] := by rw [h.draft_of_idle hstage]
  unfold takeFirst
  split
  next hsync =>
    refine ⟨[], .keep rfl ?_⟩
    rw [hnone, hsync]
    rfl
  next =>
    refine ⟨[], .keep rfl ?_⟩
    rw [hnone]
    rfl

theorem takeSelector_accounts (h : Coherent maxBlock f) (hstage : f.stage = .selecting)
    (byte : UInt8) (now : Time) :
    ∃ segments, Accounts maxBlock f [byte] (f.takeSelector byte now).fed segments := by
  obtain ⟨start, hdraft⟩ := h.draft_of_selecting hstage
  have hcome : f.draft.bytes.toList = [syncByte] := by rw [hdraft]; rfl
  unfold takeSelector
  split
  next hsync =>
    subst hsync
    have fits : Segment.Fits maxBlock (.restarted [syncByte]) [syncByte] :=
      .repeated (List.prefix_refl _)
    exact ⟨[.restarted [syncByte]], .restart hcome fits ⟨rfl, rfl⟩ now⟩
  next hother =>
    split
    next format hselects => exact ⟨[], .keep rfl (f.draft.push_toList byte)⟩
    next hunknown =>
      have faulty : Faulty maxBlock (.unknownFormat byte) (f.draft.bytes.toList ++ [byte]) := by
        rw [hcome]
        exact .unknownFormat hother hunknown
      exact ⟨_, .drop rfl faulty rfl⟩

theorem takeConfirmation_accounts (h : Coherent maxBlock f) (hstage : f.stage = .confirming)
    (byte : UInt8) (now : Time) :
    ∃ segments, Accounts maxBlock f [byte] (f.takeConfirmation byte now).fed segments := by
  obtain ⟨selector, format, start, hdraft, hselects, htext⟩ := h.draft_of_confirming hstage
  have hcome : f.draft.bytes.toList = [syncByte, selector] := by rw [hdraft]
  have hformat : f.draft.format = format := by rw [hdraft]
  unfold takeConfirmation
  split
  next hsync =>
    subst hsync
    have fits : Segment.Fits maxBlock (.restarted [syncByte, selector]) [syncByte] :=
      .unconfirmed hselects htext (List.prefix_refl _)
    exact ⟨[.restarted [syncByte, selector]], .restart hcome fits ⟨rfl, rfl⟩ now⟩
  next hother =>
    split
    next confirmed hconfirmed => exact ⟨[], .keep rfl (f.draft.push_toList byte)⟩
    next hunconfirmed =>
      rw [hformat] at hunconfirmed
      have faulty : Faulty maxBlock (.unconfirmedFormat byte)
          (f.draft.bytes.toList ++ [byte]) := by
        rw [hcome]
        exact .unconfirmedFormat hselects htext hother hunconfirmed
      exact ⟨_, .drop rfl faulty rfl⟩

/-- At the stage of a line, what has come is one that has not ended. -/
theorem InProgress.lineBegun {d : Draft} (h : InProgress maxBlock .line d) :
    LineBegun d.bytes.toList := by
  cases h with
  | line opens clean come =>
    rw [come]
    exact .named opens clean
  | plain unknown head clean come =>
    rw [come]
    exact .plain head clean

/-- Giving up a line for a `$` is a fault, unlike giving up a start. -/
theorem interrupt_accounts (begun : LineBegun f.draft.bytes.toList) {g : Framer}
    (hstats : g.stats = f.stats) (now : Time) :
    Accounts maxBlock f [syncByte]
      (Step.fed ⟨(g.restart now).countResync, none,
        [.resynchronizing (.syncInsideLine f.draft.bytes.toList.length)]⟩)
      [.faulted (.syncInsideLine f.draft.bytes.toList.length) f.draft.bytes.toList] := by
  refine ⟨?_, rfl, rfl, ?_, ?_, ?_⟩
  · have fits : Segment.Fits maxBlock
        (.faulted (.syncInsideLine f.draft.bytes.toList.length) f.draft.bytes.toList) [syncByte] :=
      .interrupted begun (List.prefix_refl _)
    exact Tiled.cut rfl fits
  all_goals
    rw [← hstats]
    rfl

theorem takeLineByte_accounts (h : Coherent maxBlock f) (hstage : f.stage = .line) (byte : UInt8)
    (now : Time) :
    ∃ segments, Accounts maxBlock f [byte] (f.takeLineByte byte now).fed segments := by
  have hprogress := h.at_stage hstage
  have hcome : (f.draft.push byte).bytes.toList = f.draft.bytes.toList ++ [byte] :=
    f.draft.push_toList byte
  have hsize : (f.draft.push byte).bytes.size = f.draft.bytes.toList.length + 1 := by
    rw [← Array.length_toList, hcome, List.length_append, List.length_singleton]
  unfold takeLineByte
  dsimp only
  split
  next hsync =>
    subst hsync
    rw [hsize, Nat.add_sub_cancel]
    exact ⟨_, interrupt_accounts hprogress.lineBegun rfl now⟩
  next hsync =>
    split
    next hfeed =>
      subst hfeed
      split
      next hends =>
        refine ⟨_, .deliver rfl hcome ?_⟩
        rw [hcome]
        exact hprogress.wellFormed_lineFeed ((endsLine_push _ _).mp hends)
      next hbare =>
        have faulty : Faulty maxBlock (.lineWithoutReturn (f.draft.push lineFeed).bytes.size)
            (f.draft.bytes.toList ++ [lineFeed]) := by
          rw [hsize]
          refine .lineWithoutReturn hprogress.lineBegun ?_
          intro hreturn
          exact hbare ((endsLine_push _ _).mpr hreturn)
        -- the note on the bare line feed reports no fault of its own
        have hdrop : Accounts maxBlock f [lineFeed]
            (Framer.drop { f with draft := f.draft.push lineFeed } _).fed _ :=
          .drop rfl faulty rfl
        exact ⟨_, hdrop.tiled, rfl, rfl, hdrop.delivered, hdrop.resyncs, hdrop.checksumFailures⟩
    next hfeed =>
      split
      next hprompt =>
        obtain ⟨hbyte, hunknown⟩ := hprompt
        refine ⟨_, .deliver rfl hcome ?_⟩
        rw [hcome, hbyte]
        exact hprogress.wellFormed_promptEnd hunknown
      next => exact ⟨[], .keep rfl hcome⟩

/-! ## §5. Blocks. -/

/-- The block has come whole: it is delivered, or dropped because of its
checksum. -/
theorem checkBody_accounts {g : Framer} {bytes : List UInt8} (hstats : g.stats = f.stats)
    (hcome : g.draft.bytes.toList = f.draft.bytes.toList ++ bytes)
    (sync : [syncByte, blockByte] <+: g.draft.bytes.toList) (binary : g.draft.format = .binary)
    (header : Block.headerSize ≤ g.draft.bytes.toList.length)
    (stated : Block.WordAt g.draft.bytes.toList 6 g.draft.bytes.toList.length)
    (bound : g.draft.bytes.toList.length ≤ maxBlock) :
    ∃ segments, Accounts maxBlock f bytes g.checkBody.fed segments := by
  have hvalid := Block.isValid_iff header stated
  unfold checkBody
  dsimp only
  split
  next hright =>
    -- the checks of header, length and checksum make it well-formed
    refine ⟨_, .deliver hstats hcome ?_⟩
    rw [binary]
    exact .block ⟨sync, header, stated, bound, hvalid.mp hright⟩
  next hwrong =>
    obtain ⟨number, hnumber⟩ := Block.number?_eq_some header
    rw [hnumber, Option.getD_some]
    have faulty : Faulty maxBlock (.checksumMismatch number) g.draft.bytes.toList := by
      refine .checksumMismatch sync header stated bound hnumber ?_
      intro hright
      exact hwrong (hvalid.mpr hright)
    have fits : Segment.Fits maxBlock
        (.faulted (.checksumMismatch number) g.draft.bytes.toList) [] := .faulted faulty
    refine ⟨[.faulted _ g.draft.bytes.toList], ?_, rfl, rfl, ?_, ?_, ?_⟩
    · rw [← hcome]
      exact Tiled.whole fits
    all_goals
      rw [← hstats]
      rfl

/-- The header has come whole: the block is dropped because of its length, or
its body is waited for. -/
theorem checkHeader_accounts {g : Framer} {bytes : List UInt8} (hmax : g.maxBlock = maxBlock)
    (hstats : g.stats = f.stats)
    (hcome : g.draft.bytes.toList = f.draft.bytes.toList ++ bytes)
    (sync : [syncByte, blockByte] <+: g.draft.bytes.toList) (binary : g.draft.format = .binary)
    (header : g.draft.bytes.toList.length = Block.headerSize) :
    ∃ segments, Accounts maxBlock f bytes g.checkHeader.fed segments := by
  obtain ⟨w, hw, stated⟩ := Block.length?_eq_some (Nat.le_of_eq header.symm)
  unfold checkHeader
  rw [hw]
  dsimp only [Option.getD_some]
  split
  next hlarge =>
    rw [hmax] at hlarge ⊢
    have faulty := Faulty.blockTooLarge sync header stated hlarge
    rw [hcome] at faulty
    exact ⟨_, .drop hstats faulty rfl⟩
  next hlarge =>
    split
    next hshort =>
      have faulty : Faulty maxBlock (.blockTooShort w.toNat) g.draft.bytes.toList :=
        .blockTooShort sync header stated hshort
      rw [hcome] at faulty
      exact ⟨_, .drop hstats faulty rfl⟩
    next hshort =>
      split
      next heq =>
        -- a block without a body is whole already
        rw [heq, ← header] at stated
        refine checkBody_accounts hstats hcome sync binary (Nat.le_of_eq header.symm) stated ?_
        omega
      next => exact ⟨[], .keep hstats hcome⟩

/-- Bytes of a block, not more than are missing. -/
theorem takeBlockBytes_accounts {check : Framer → Step} (h : Coherent maxBlock f)
    (hcheck : checkOf f.stage = some check) {bytes : List UInt8} (hlen : bytes.length ≤ f.wanted) :
    ∃ segments, Accounts maxBlock f bytes (f.takeBlockBytes bytes check).fed segments := by
  have hcome := f.grow_toList bytes
  have hgrown := wanted_grow hcheck bytes
  have hsize : (f.grow bytes).draft.bytes.toList.length
      = f.draft.bytes.size + bytes.length := by
    rw [Array.length_toList, grow_size]
  rw [takeBlockBytes_eq]
  split
  next => exact ⟨[], .keep rfl hcome⟩
  next hwhole =>
    -- none is missing any more, and not more were taken than were
    rcases stage_of_checkOf hcheck with ⟨hstage, rfl⟩ | ⟨length, hstage, rfl⟩
    · rw [wanted_header hstage] at hgrown hlen
      cases h.at_stage hstage with
      | header sync binary short =>
        have hsync := prefix_grow sync bytes
        exact checkHeader_accounts h.bound rfl hcome hsync binary (by omega)
    · rw [wanted_body hstage] at hgrown hlen
      cases h.at_stage hstage with
      | body sync binary header stated bound short =>
        have hsync := prefix_grow sync bytes
        have htotal : (f.grow bytes).draft.bytes.toList.length = length := by omega
        have hstated : Block.WordAt (f.grow bytes).draft.bytes.toList 6 length := by
          rw [hcome]
          exact stated.append bytes
        rw [← htotal] at hstated bound
        exact checkBody_accounts rfl hcome hsync binary (by omega) hstated bound

/-! ## §6. Streams. -/

/-- **One push** takes the bytes that it says, and reports what became of them
and of the telegram in progress. -/
theorem push_accounts (h : Coherent maxBlock f) (bytes : List UInt8) (now : Time) :
    ∃ segments, Accounts maxBlock f (bytes.take (f.push bytes now).1) (f.push bytes now).2.fed
      segments := by
  match bytes with
  | [] => exact ⟨[], .start f⟩
  | byte :: rest =>
    cases hstage : f.stage with
    | idle =>
      rw [push_idle hstage]
      exact takeFirst_accounts h hstage byte now
    | selecting =>
      rw [push_selecting hstage]
      exact takeSelector_accounts h hstage byte now
    | confirming =>
      rw [push_confirming hstage]
      exact takeConfirmation_accounts h hstage byte now
    | line =>
      rw [push_line hstage]
      exact takeLineByte_accounts h hstage byte now
    | header | body =>
      -- of a block as many bytes are taken as are missing
      have hcheck : ∃ check, checkOf f.stage = some check := by
        rw [hstage]
        exact ⟨_, rfl⟩
      obtain ⟨check, hcheck⟩ := hcheck
      have hlen := List.length_take_le f.wanted (byte :: rest)
      rw [push_of_checkOf hcheck (List.cons_ne_nil _ _)]
      dsimp only
      rw [List.length_take, List.take_eq_take_min.symm]
      exact takeBlockBytes_accounts h hcheck hlen

theorem feed_accounts {f : Framer} (h : Coherent maxBlock f) (bytes : List UInt8) (now : Time) :
    ∃ segments, Accounts maxBlock f bytes (f.feed bytes now) segments := by
  induction bytes generalizing f with
  | nil =>
    rw [feed_nil]
    exact ⟨[], .start f⟩
  | cons byte rest ih =>
    obtain ⟨first, hfirst⟩ := push_accounts h [byte] now
    have hone : [byte].take (f.push [byte] now).1 = [byte] := by
      have hpos := push_fst_pos h (List.cons_ne_nil byte []) now
      exact List.take_of_length_le hpos
    rw [hone] at hfirst
    obtain ⟨later, hlater⟩ := ih (push_coherent h [byte] now)
    rw [feed_cons h]
    exact ⟨first ++ later, hfirst.andThen hlater⟩

/-- Feed chunks, each at its own time. -/
def feedAll (f : Framer) (chunks : List (List UInt8 × Time)) : Fed :=
  runAll (fun g chunk => g.feed chunk.1 chunk.2) f chunks

theorem feedAll_accounts {f : Framer} (h : Coherent maxBlock f)
    (chunks : List (List UInt8 × Time)) :
    ∃ segments, Accounts maxBlock f (chunks.map Prod.fst).flatten (f.feedAll chunks) segments := by
  induction chunks generalizing f with
  | nil => exact ⟨[], .start f⟩
  | cons chunk rest ih =>
    obtain ⟨first, hfirst⟩ := feed_accounts h chunk.1 chunk.2
    obtain ⟨later, hlater⟩ := ih (feed_sound h chunk.1 chunk.2).coherent
    refine ⟨first ++ later, ?_⟩
    rw [List.map_cons, List.flatten_cons]
    show Accounts maxBlock f _ ((f.feed chunk.1 chunk.2).andThen fun g => g.feedAll rest) _
    exact hfirst.andThen hlater

/-- The bytes that pushes take, one after the other. -/
def taken (f : Framer) : List (List UInt8 × Time) → List UInt8
  | [] => []
  | p :: rest => p.1.take (f.push p.1 p.2).1 ++ taken (f.push p.1 p.2).2.framer rest

theorem pushAll_accounts {f : Framer} (h : Coherent maxBlock f)
    (pushes : List (List UInt8 × Time)) :
    ∃ segments, Accounts maxBlock f (f.taken pushes) (f.pushAll pushes) segments := by
  induction pushes generalizing f with
  | nil => exact ⟨[], .start f⟩
  | cons p rest ih =>
    obtain ⟨first, hfirst⟩ := push_accounts h p.1 p.2
    obtain ⟨later, hlater⟩ := ih (push_coherent h p.1 p.2)
    refine ⟨first ++ later, ?_⟩
    show Accounts maxBlock f (_ ++ taken _ rest)
      ((f.push p.1 p.2).2.fed.andThen fun g => g.pushAll rest) _
    exact hfirst.andThen hlater

/-- A framer that was new has taken this stream, and every byte of it is
accounted for by what it delivered, noted and counted. -/
def Accounted (maxBlock : Nat) (stream : List UInt8) (r : Fed) : Prop :=
  ∃ segments : List Segment,
    Tiled maxBlock segments r.framer.draft.bytes.toList stream
      ∧ stream = segments.flatMap Segment.bytes ++ r.framer.draft.bytes.toList
      ∧ r.framer.draft.bytes.toList.length = r.framer.pending
      ∧ r.telegrams.toList = segments.filterMap Segment.telegram?
      ∧ r.events.toList.filterMap FramingEvent.fault? = segments.filterMap Segment.fault?
      ∧ r.framer.stats
        = { delivered := (segments.filterMap Segment.telegram?).length
            resyncs := (segments.filterMap Segment.fault?).length
            checksumFailures :=
              (segments.filterMap Segment.fault?).countP Fault.isChecksumMismatch }

theorem Accounts.accounted {stream : List UInt8} {r : Fed} {segments : List Segment}
    (h : Accounts maxBlock (new maxBlock) stream r segments) : Accounted maxBlock stream r := by
  have htiled : Tiled maxBlock segments r.framer.draft.bytes.toList stream := h.tiled
  refine ⟨segments, htiled, htiled.eq_append, Array.length_toList, h.telegrams, h.faults, ?_⟩
  -- a new framer has counted nothing
  have hdelivered := h.delivered
  have hresyncs := h.resyncs
  have hfailures := h.checksumFailures
  rw [show (new maxBlock).stats = ⟨0, 0, 0⟩ from rfl, Nat.zero_add] at hdelivered hresyncs hfailures
  rw [← hdelivered, ← hresyncs, ← hfailures]

/-- **Every byte of a stream is accounted for**, fed to a new framer in any
chunks at any times, or offered to it by any pushes. -/
theorem stream_accounted (maxBlock : Nat) :
    (∀ chunks : List (List UInt8 × Time),
        Accounted maxBlock (chunks.map Prod.fst).flatten ((new maxBlock).feedAll chunks))
      ∧ ∀ pushes : List (List UInt8 × Time),
        Accounted maxBlock ((new maxBlock).taken pushes) ((new maxBlock).pushAll pushes) := by
  have hnew := new_coherent maxBlock
  constructor
  · intro chunks
    obtain ⟨segments, h⟩ := feedAll_accounts hnew chunks
    exact h.accounted
  · intro pushes
    obtain ⟨segments, h⟩ := pushAll_accounts hnew pushes
    exact h.accounted

end Framer

end ReceiverLink
