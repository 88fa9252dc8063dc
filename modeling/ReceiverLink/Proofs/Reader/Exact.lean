/-
  ReceiverLink.Proofs.Reader.Exact
  ────────────────────────────────
  **Nothing is read past a telegram.**

  A reader asks for no more than what its framer wants, and the framer decides
  nothing before all of that has come.  So a telegram is whole with the last
  byte of a read.  What has been read besides are the bytes before the
  telegram; those in progress are always the last ones read (`TakenTo`), which
  every read keeps so.

  Main statements:
    * `push_telegram` — a telegram is what there was, and what was taken for it;
    * `feedAll_short` — less than what is wanted decides nothing;
    * `Course.takenTo` — a call leaves what it has in progress last;
    * `telegram_read_last` — both, for all calls of a new reader.
-/
import ReceiverLink.Proofs.Framer.Segments
import ReceiverLink.Proofs.Reader.Course

namespace ReceiverLink

namespace Framer

variable {maxBlock : Nat} {f : Framer} {t : Telegram}

/-! ## §1. A telegram is what has come of it. -/

theorem takeFirst_telegram (f : Framer) (byte : UInt8) (now : Time) :
    (f.takeFirst byte now).telegram = none := by
  unfold takeFirst
  split
  next => rfl
  next => rfl

theorem takeSelector_telegram (f : Framer) (byte : UInt8) (now : Time) :
    (f.takeSelector byte now).telegram = none := by
  unfold takeSelector
  split
  next => rfl
  next =>
    split
    next => rfl
    next => rfl

theorem takeConfirmation_telegram (f : Framer) (byte : UInt8) (now : Time) :
    (f.takeConfirmation byte now).telegram = none := by
  unfold takeConfirmation
  split
  next => rfl
  next =>
    split
    next => rfl
    next => rfl

/-- A line is delivered with its last byte. -/
theorem takeLineByte_telegram {byte : UInt8} {now : Time}
    (h : (f.takeLineByte byte now).telegram = some t) :
    t.bytes = f.draft.bytes.toList ++ [byte] := by
  rw [← Draft.push_toList]
  unfold takeLineByte at h
  dsimp only at h
  split at h
  next => cases h
  next =>
    split at h
    next =>
      split at h
      next =>
        cases h
        rfl
      next => cases h
    next =>
      split at h
      next =>
        cases h
        rfl
      next => cases h

theorem checkBody_telegram (h : f.checkBody.telegram = some t) :
    t.bytes = f.draft.bytes.toList := by
  unfold checkBody at h
  dsimp only at h
  split at h
  next =>
    cases h
    rfl
  next => cases h

theorem checkHeader_telegram (h : f.checkHeader.telegram = some t) :
    t.bytes = f.draft.bytes.toList := by
  unfold checkHeader at h
  dsimp only at h
  split at h
  next => cases h
  next =>
    split at h
    next => cases h
    next =>
      split at h
      next => exact checkBody_telegram h
      next => cases h

/-- A block is delivered with the last byte of a burst. -/
theorem takeBlockBytes_telegram {check : Framer → Step} (hcheck : checkOf f.stage = some check)
    {bytes : List UInt8} (h : (f.takeBlockBytes bytes check).telegram = some t) :
    t.bytes = f.draft.bytes.toList ++ bytes := by
  rw [← grow_toList]
  rw [takeBlockBytes_eq] at h
  split at h
  next => cases h
  next =>
    rcases stage_of_checkOf hcheck with ⟨-, rfl⟩ | ⟨_, -, rfl⟩
    · exact checkHeader_telegram h
    · exact checkBody_telegram h

/-- **A telegram is what there was of it, and what was taken for it.** -/
theorem push_telegram {bytes : List UInt8} {now : Time}
    (h : (f.push bytes now).2.telegram = some t) :
    t.bytes = f.draft.bytes.toList ++ bytes.take (f.push bytes now).1 := by
  match bytes with
  | [] => cases h
  | byte :: rest =>
    cases hstage : f.stage with
    | idle =>
      rw [push_idle hstage, takeFirst_telegram] at h
      cases h
    | selecting =>
      rw [push_selecting hstage, takeSelector_telegram] at h
      cases h
    | confirming =>
      rw [push_confirming hstage, takeConfirmation_telegram] at h
      cases h
    | line =>
      rw [push_line hstage] at h ⊢
      exact takeLineByte_telegram h
    | header | body =>
      have hcheck : ∃ check, checkOf f.stage = some check := by
        rw [hstage]
        exact ⟨_, rfl⟩
      obtain ⟨check, hcheck⟩ := hcheck
      rw [push_of_checkOf hcheck (List.cons_ne_nil _ _)] at h ⊢
      rw [takeBlockBytes_telegram hcheck h, List.length_take, ← List.take_eq_take_min]

/-- What is in progress after a push are the last bytes of what was in progress
and what was taken. -/
theorem push_draft_suffix (h : Coherent maxBlock f) (bytes : List UInt8) (now : Time) :
    (f.push bytes now).2.framer.draft.bytes.toList
      <:+ f.draft.bytes.toList ++ bytes.take (f.push bytes now).1 := by
  obtain ⟨segments, haccounts⟩ := push_accounts h bytes now
  rw [haccounts.tiled.eq_append]
  exact List.suffix_append _ _

/-- After giving up, nothing is in progress. -/
theorem abort_draft (h : Coherent maxBlock f) (read : Nat) : (f.abort read).framer.draft = {} := by
  unfold abort
  split
  next hidle => exact h.draft_of_idle hidle.1
  next => rfl

/-! ## §2. Less than what is wanted. -/

/-- Bytes that are fewer than wanted are kept, and nothing comes of them. -/
theorem feed_short (h : Coherent maxBlock f) {bytes : List UInt8} (hshort : bytes.length < f.wanted)
    (now : Time) : f.feed bytes now = .start (f.grow bytes) := by
  have htake : bytes.take f.wanted = bytes := List.take_of_length_le (Nat.le_of_lt hshort)
  by_cases hnil : bytes = []
  · rw [hnil, feed_nil]
    rfl
  · have hpos := List.length_pos_iff.mpr hnil
    cases hcheck : checkOf f.stage with
    | none =>
      -- the other stages want one byte
      rw [wanted_of_checkOf_none hcheck] at hshort
      omega
    | some check =>
      have hpush := push_fed_eq_feed h bytes now
      rw [htake, push_short hcheck hnil hshort, Step.fed_none] at hpush
      exact hpush.symm

/-- Each of them is one less to want. -/
theorem wanted_grow_short {bytes : List UInt8} (hshort : bytes.length < f.wanted) :
    (f.grow bytes).wanted = f.wanted - bytes.length := by
  cases hcheck : checkOf f.stage with
  | none =>
    rw [wanted_of_checkOf_none hcheck] at hshort
    rw [List.length_eq_zero_iff.mp (Nat.lt_one_iff.mp hshort)]
    rfl
  | some check => exact wanted_grow hcheck bytes

/-- **Less than what is wanted decides nothing**, however it is cut into
chunks. -/
theorem feedAll_short {f : Framer} (h : Coherent maxBlock f) {chunks : List (List UInt8 × Time)}
    (hshort : (chunks.map Prod.fst).flatten.length < f.wanted) :
    f.feedAll chunks = .start (f.grow (chunks.map Prod.fst).flatten) := by
  induction chunks generalizing f with
  | nil => rfl
  | cons chunk rest ih =>
    rw [List.map_cons, List.flatten_cons, List.length_append] at hshort
    have hfirst : chunk.1.length < f.wanted := by omega
    have hfed := feed_short h hfirst chunk.2
    have hcoherent := (feed_sound h chunk.1 chunk.2).coherent
    rw [hfed] at hcoherent
    -- so much less is wanted of the rest
    have hrest := ih hcoherent (f := f.grow chunk.1) (by rw [wanted_grow_short hfirst]; omega)
    show (f.feed chunk.1 chunk.2).andThen (fun g => g.feedAll rest) = _
    rw [hfed, Fed.start_andThen, hrest, grow_append, List.map_cons, List.flatten_cons]

/-- So it does when it is offered to pushes. -/
theorem pushAll_short {f : Framer} (h : Coherent maxBlock f) {pushes : List (List UInt8 × Time)}
    (hshort : (pushes.map Prod.fst).flatten.length < f.wanted) :
    f.pushAll pushes = .start (f.grow (pushes.map Prod.fst).flatten) := by
  rw [← feedAll_short h hshort]
  induction pushes generalizing f with
  | nil => rfl
  | cons p rest ih =>
    rw [List.map_cons, List.flatten_cons, List.length_append] at hshort
    have hfirst : p.1.length < f.wanted := by omega
    have htake : p.1.take f.wanted = p.1 := List.take_of_length_le (Nat.le_of_lt hfirst)
    have hpush : (f.push p.1 p.2).2.fed = f.feed p.1 p.2 := by
      rw [push_fed_eq_feed h, htake]
    have hfed := feed_short h hfirst p.2
    have hcoherent := (feed_sound h p.1 p.2).coherent
    show (f.push p.1 p.2).2.fed.andThen (fun g => g.pushAll rest)
      = (f.feed p.1 p.2).andThen fun g => g.feedAll rest
    rw [hpush]
    rw [hfed] at hcoherent ⊢
    exact Fed.andThen_congr
      (ih (f := f.grow p.1) hcoherent (by rw [wanted_grow_short hfirst]; omega))

end Framer

/-! ## §3. What a stream has given. -/

namespace Stream

variable {size : Nat} {s t : Stream} {given last : List UInt8}

/-- All bytes that a stream has to give. -/
def bytes : Stream → List UInt8
  | [] => []
  | .data bs :: rest => bs ++ bytes rest
  | _ :: rest => bytes rest

theorem bytes_unread (back : List UInt8) (s : Stream) :
    (s.unread back).bytes = back ++ s.bytes := by
  unfold unread
  split
  next hnil =>
    rw [hnil]
    rfl
  next => rfl

/-- A read gives the next bytes. -/
theorem bytes_of_read (h : s.read size = (.bytes given, t)) : s.bytes = given ++ t.bytes := by
  fun_induction read size s with
  | case1 =>
    cases h
    rfl
  | case2 rest ih => exact ih h
  | case3 b bs rest =>
    cases h
    rw [bytes_unread, ← List.append_assoc, List.take_append_drop]
    rfl
  | case4 => cases h
  | case5 =>
    cases h
    rfl
  | case6 => cases h

/-- A read that gives none leaves them all. -/
theorem bytes_of_read_none {reading : Reading} (h : s.read size = (reading, t))
    (hnone : ∀ given, reading ≠ .bytes given) : s.bytes = t.bytes := by
  fun_induction read size s with
  | case1 =>
    cases h
    exact absurd rfl (hnone _)
  | case2 rest ih => exact ih h
  | case3 =>
    cases h
    exact absurd rfl (hnone _)
  | case4 =>
    cases h
    rfl
  | case5 =>
    cases h
    exact absurd rfl (hnone _)
  | case6 =>
    cases h
    rfl

/-- Of all these bytes the stream has still to give what it has, and the last
ones that it has given are these. -/
def TakenTo (all last : List UInt8) (s : Stream) : Prop :=
  ∃ before, all = before ++ last ++ s.bytes

variable {all : List UInt8}

/-- The bytes that a read gives come last. -/
theorem TakenTo.read (h : TakenTo all last s) (hread : s.read size = (.bytes given, t)) :
    TakenTo all (last ++ given) t := by
  obtain ⟨before, hall⟩ := h
  refine ⟨before, ?_⟩
  rw [hall, bytes_of_read hread]
  simp only [List.append_assoc]

theorem TakenTo.read_none (h : TakenTo all last s) {reading : Reading}
    (hread : s.read size = (reading, t)) (hnone : ∀ given, reading ≠ .bytes given) :
    TakenTo all last t := by
  obtain ⟨before, hall⟩ := h
  exact ⟨before, by rw [hall, bytes_of_read_none hread hnone]⟩

/-- Only the last of them are the last ones, too. -/
theorem TakenTo.suffix (h : TakenTo all last s) {fewer : List UInt8} (hfewer : fewer <:+ last) :
    TakenTo all fewer s := by
  obtain ⟨before, hall⟩ := h
  obtain ⟨front, rfl⟩ := hfewer
  refine ⟨before ++ front, ?_⟩
  rw [hall]
  simp only [List.append_assoc]

end Stream

/-! ## §4. Calls. -/

namespace Reader

variable {maxBlock : Nat} {mode : ReadMode} {now : Time} {f : Framer} {s t : Stream}
  {call : ReadCall} {all : List UInt8}

/-- What a reader has in progress are the last bytes that it has read. -/
structure Exact (maxBlock : Nat) (all : List UInt8) (r : Reader) : Prop where
  coherent : r.framer.Coherent maxBlock
  draft : Stream.TakenTo all r.framer.draft.bytes.toList r.stream

/-- No more is read than what is taken. -/
theorem take_of_read {bytes : List UInt8} (hread : s.read f.wanted = (.bytes bytes, t))
    (now : Time) : bytes.take (f.push bytes now).1 = bytes := by
  rw [Framer.push_fst, Nat.min_eq_right (Stream.length_of_read hread), List.take_length]

/-- Bytes that are read are taken up, and those in progress stay the last. -/
theorem Exact.more {bytes : List UInt8} (h : Exact maxBlock all ⟨f, s⟩)
    (hread : s.read f.wanted = (.bytes bytes, t)) (now : Time) :
    Exact maxBlock all ⟨(f.push bytes now).2.framer, t⟩ := by
  refine ⟨Framer.push_coherent h.coherent bytes now, ?_⟩
  have hsuffix := Framer.push_draft_suffix h.coherent bytes now
  rw [take_of_read hread] at hsuffix
  exact (h.draft.read hread).suffix hsuffix

/-- A reader that gives up has nothing in progress. -/
theorem Exact.giveUp {last : List UInt8} (h : f.Coherent maxBlock)
    (htaken : Stream.TakenTo all last t) : Exact maxBlock all ⟨(f.abort 0).framer, t⟩ := by
  refine ⟨(Framer.abort_sound h 0).coherent, ?_⟩
  show Stream.TakenTo all (f.abort 0).framer.draft.bytes.toList t
  rw [Framer.abort_draft h]
  exact htaken.suffix List.nil_suffix

/-- **A call leaves what it has in progress last**, and a telegram that it
returns is last. -/
theorem Course.takenTo (h : Course mode now f s call) (hexact : Exact maxBlock all ⟨f, s⟩) :
    Exact maxBlock all call.reader
      ∧ ∀ telegram, call.result = .telegram telegram →
        telegram.bytes ≠ [] ∧ Stream.TakenTo all telegram.bytes call.reader.stream := by
  induction h with
  | closed read =>
    exact ⟨.giveUp hexact.coherent (hexact.draft.read read), fun _ hresult => by cases hresult⟩
  | @telegram f s t b bs telegram read whole =>
    -- the read asked for no more than the telegram still wanted, so none of it is left
    refine ⟨hexact.more read _, ?_⟩
    intro _ hresult
    cases hresult
    have hbytes := Framer.push_telegram whole
    rw [take_of_read read] at hbytes
    rw [hbytes]
    exact ⟨List.append_ne_nil_of_right_ne_nil _ (List.cons_ne_nil b bs), hexact.draft.read read⟩
  | more read _ _ ih => exact ih (hexact.more read _)
  | retry read _ _ ih =>
    exact ih ⟨hexact.coherent, hexact.draft.read_none read fun _ => Reading.noConfusion⟩
  | kept read =>
    have hdraft := hexact.draft.read_none read fun _ => Reading.noConfusion
    exact ⟨⟨hexact.coherent, hdraft⟩, fun _ hresult => by cases hresult⟩
  | dropped read =>
    have hdraft := hexact.draft.read_none read fun _ => Reading.noConfusion
    exact ⟨.giveUp hexact.coherent hdraft, fun _ hresult => by cases hresult⟩
  | wait read =>
    have hdraft := hexact.draft.read_none read fun _ => Reading.noConfusion
    refine ⟨⟨hexact.coherent, hdraft⟩, ?_⟩
    intro _ hresult
    cases mode <;> cases hresult

theorem calls_takenTo {r : Reader} (hexact : Exact maxBlock all r) (mode : ReadMode)
    (times : List Time) : ∀ call ∈ r.calls mode times, ∀ telegram,
      call.result = .telegram telegram →
        telegram.bytes ≠ [] ∧ Stream.TakenTo all telegram.bytes call.reader.stream := by
  induction times generalizing r with
  | nil => exact fun _ hcall => absurd hcall List.not_mem_nil
  | cons now later ih =>
    obtain ⟨hnext, hlast⟩ := (read_course mode r now).takenTo hexact
    intro call hcall
    rcases List.mem_cons.mp hcall with rfl | hlater
    · exact hlast
    · exact ih hnext call hlater

/-- **Nothing is read past a telegram.**  Whatever a new reader's stream gives
and however it cuts it, the bytes read when a telegram is returned are some
bytes and then those of the telegram, and the stream has all others still to
give.  And less than what is wanted decides nothing: on any framer that can be
brought about, no telegram comes of it and no fault, nothing is counted, and
the bytes are kept; only so many less are wanted. -/
theorem telegram_read_last (maxBlock : Nat) :
    (∀ (mode : ReadMode) (script : Stream) (times : List Time),
        ∀ call ∈ Reader.calls mode ⟨.new maxBlock, script⟩ times, ∀ telegram,
          call.result = .telegram telegram →
            telegram.bytes ≠ []
              ∧ ∃ before, script.bytes = before ++ telegram.bytes ++ call.reader.stream.bytes)
      ∧ ∀ f : Framer, Framer.Reachable maxBlock f → ∀ chunks : List (List UInt8 × Time),
          (chunks.map Prod.fst).flatten.length < f.wanted →
            let kept := f.grow (chunks.map Prod.fst).flatten
            f.feedAll chunks = ⟨kept, #[], #[]⟩ ∧ f.pushAll chunks = ⟨kept, #[], #[]⟩
              ∧ kept.draft.bytes.toList
                = f.draft.bytes.toList ++ (chunks.map Prod.fst).flatten
              ∧ kept.stage = f.stage ∧ kept.stats = f.stats
              ∧ kept.wanted = f.wanted - (chunks.map Prod.fst).flatten.length := by
  constructor
  · intro mode script times
    have hexact : Exact maxBlock script.bytes ⟨.new maxBlock, script⟩ :=
      ⟨Framer.new_coherent maxBlock, [], rfl⟩
    exact calls_takenTo hexact mode times
  · intro f hreachable chunks hshort
    have hcoherent := Framer.reachable_coherent hreachable
    exact ⟨Framer.feedAll_short hcoherent hshort, Framer.pushAll_short hcoherent hshort,
      Framer.grow_toList _ _, rfl, rfl, Framer.wanted_grow_short hshort⟩

/-- A line behind bytes of no use, read in three parts with a wait between them,
and the start of a block behind it; and a header of which five bytes are
wanted. -/
theorem telegram_read_last_split :
    let script : Stream := [.data [0x24, 0x00, 0x24, 0x47], .wait, .data [0x50, 0x0D],
      .data [0x0A, 0x24, 0x40]]
    let first : Reader := ⟨.new 100, script⟩
    let header : Framer := ((Framer.new 100).run [.feed [0x24, 0x40, 1] 1]).framer
    (∃ call ∈ first.calls .blocking [1, 2], call.result = .telegram
          ⟨.nmea, [0x24, 0x47, 0x50, 0x0D, 0x0A], 1⟩
        ∧ call.reader.stream.bytes = [0x24, 0x40]
        ∧ ∃ before, script.bytes
          = before ++ [0x24, 0x47, 0x50, 0x0D, 0x0A] ++ call.reader.stream.bytes)
      ∧ header.wanted = 5
      ∧ header.feedAll [([2, 3], 5), ([], 6), ([4, 5], 7)]
        = ⟨header.grow [2, 3, 4, 5], #[], #[]⟩
      ∧ (header.grow [2, 3, 4, 5]).wanted = 1 := by
  intro script first header
  obtain ⟨hread, hshort⟩ := telegram_read_last 100
  have hreachable : Framer.Reachable 100 header := ⟨_, rfl⟩
  have hwanted : header.wanted = 5 := by decide +kernel
  have hcall : (first.read .blocking 1).reader.read .blocking 2 ∈ first.calls .blocking [1, 2] :=
    List.mem_cons_of_mem _ List.mem_cons_self
  have hresult : ((first.read .blocking 1).reader.read .blocking 2).result
      = .telegram ⟨.nmea, [0x24, 0x47, 0x50, 0x0D, 0x0A], 1⟩ := by decide +kernel
  have hleft : ((first.read .blocking 1).reader.read .blocking 2).reader.stream.bytes
      = [0x24, 0x40] := by decide +kernel
  obtain ⟨-, hbefore⟩ := hread .blocking script [1, 2] _ hcall _ hresult
  obtain ⟨hfed, -, -, -, -, hless⟩ := hshort header hreachable [([2, 3], 5), ([], 6), ([4, 5], 7)]
    (by rw [hwanted]; decide)
  rw [hwanted] at hless
  exact ⟨⟨_, hcall, hresult, hleft, hbefore⟩, hwanted, hfed, hless⟩

end Reader

end ReceiverLink
