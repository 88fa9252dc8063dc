/-
  ReceiverLink.Proofs.Framer.Untimed
  ────────────────────────────────
  **Framing does not depend on the clock.**

  The moment of a push goes into the capture time of a telegram and nowhere
  else.  `Alike` says that two framers differ in the capture time of the
  telegram in progress at most; pushing or feeding the same bytes, each at its
  own time, keeps that, delivers the same formats and bytes, and notes the
  same events.

  Main statements:
    * `push_alike` — for one push;
    * `feed_alike` — for a whole buffer;
    * `framesOf_append` — the telegrams of a stream, whenever its bytes came.
-/
import ReceiverLink.Proofs.Framer.Chunks

namespace ReceiverLink

/-- What a telegram is, whenever it came. -/
def Telegram.frame (t : Telegram) : Format × List UInt8 :=
  (t.format, t.bytes)

namespace Framer

/-! ## §1. Framers that differ in the capture time. -/

/-- The two framers differ at most in when the telegram in progress came. -/
structure Alike (f g : Framer) : Prop where
  maxBlock : f.maxBlock = g.maxBlock
  stage : f.stage = g.stage
  bytes : f.draft.bytes = g.draft.bytes
  format : f.draft.format = g.draft.format
  stats : f.stats = g.stats

/-- Two results that differ at most in capture times. -/
structure Fed.Alike (a b : Fed) : Prop where
  framer : Framer.Alike a.framer b.framer
  frames : a.telegrams.toList.map Telegram.frame = b.telegrams.toList.map Telegram.frame
  events : a.events = b.events

variable {f g : Framer} {now now' : Time}

theorem Alike.refl (f : Framer) : Alike f f :=
  ⟨rfl, rfl, rfl, rfl, rfl⟩

namespace Alike

theorem wanted (h : Alike f g) : f.wanted = g.wanted := by
  unfold Framer.wanted pending
  rw [h.stage, h.bytes]

theorem reset (h : Alike f g) : Alike f.reset g.reset :=
  ⟨h.maxBlock, rfl, rfl, rfl, h.stats⟩

theorem restart (h : Alike f g) : Alike (f.restart now) (g.restart now') :=
  ⟨h.maxBlock, rfl, rfl, rfl, h.stats⟩

/-- Both count the same. -/
theorem count (h : Alike f g) (more : FramingStats → FramingStats) :
    Alike { f with stats := more f.stats } { g with stats := more g.stats } :=
  ⟨h.maxBlock, h.stage, h.bytes, h.format, congrArg more h.stats⟩

end Alike

namespace Fed.Alike

/-- Results of which nothing is delivered. -/
theorem of_none {events : List FramingEvent} (h : Framer.Alike f g) :
    Fed.Alike (Step.fed ⟨f, none, events⟩) (Step.fed ⟨g, none, events⟩) :=
  ⟨h, rfl, rfl⟩

theorem deliver (h : Framer.Alike f g) : Fed.Alike f.deliver.fed g.deliver.fed := by
  have hframe : f.draft.finish.frame = g.draft.finish.frame := by
    show (f.draft.format, f.draft.bytes.toList) = (g.draft.format, g.draft.bytes.toList)
    rw [h.format, h.bytes]
  refine ⟨h.reset.count fun s => { s with delivered := s.delivered + 1 }, ?_, ?_⟩
  · show [f.draft.finish.frame] = [g.draft.finish.frame]
    rw [hframe]
  · show #[FramingEvent.framed f.draft.format f.draft.bytes.toList.length]
      = #[FramingEvent.framed g.draft.format g.draft.bytes.toList.length]
    rw [h.format, h.bytes]

theorem drop (h : Framer.Alike f g) (fault : Fault) :
    Fed.Alike (f.drop fault).fed (g.drop fault).fed :=
  of_none (h.reset.count fun s => { s with resyncs := s.resyncs + 1 })

/-- A `$` starts afresh. -/
theorem restart (h : Framer.Alike f g) :
    Fed.Alike (Step.fed ⟨f.restart now, none, []⟩) (Step.fed ⟨g.restart now', none, []⟩) :=
  of_none h.restart

theorem andThen {a b : Fed} {next next' : Framer → Fed} (h : Fed.Alike a b)
    (hnext : Fed.Alike (next a.framer) (next' b.framer)) :
    Fed.Alike (a.andThen next) (b.andThen next') := by
  refine ⟨hnext.framer, ?_, ?_⟩
  · show (a.telegrams ++ _).toList.map _ = (b.telegrams ++ _).toList.map _
    rw [Array.toList_append, Array.toList_append, List.map_append, List.map_append, h.frames,
      hnext.frames]
  · show a.events ++ _ = b.events ++ _
    rw [h.events, hnext.events]

end Fed.Alike

/-! ## §2. Single bytes. -/

theorem takeFirst_alike (h : Alike f g) (byte : UInt8) :
    Fed.Alike (f.takeFirst byte now).fed (g.takeFirst byte now').fed := by
  unfold takeFirst
  split
  next => exact .restart h
  next => exact .of_none ⟨h.maxBlock, rfl, rfl, rfl, h.stats⟩

theorem takeSelector_alike (h : Alike f g) (byte : UInt8) :
    Fed.Alike (f.takeSelector byte now).fed (g.takeSelector byte now').fed := by
  unfold takeSelector
  split
  next => exact .restart h
  next =>
    split
    next => exact .of_none ⟨h.maxBlock, rfl, congrArg (·.push byte) h.bytes, rfl, h.stats⟩
    next => exact .drop h _

theorem takeConfirmation_alike (h : Alike f g) (byte : UInt8) :
    Fed.Alike (f.takeConfirmation byte now).fed (g.takeConfirmation byte now').fed := by
  unfold takeConfirmation
  rw [h.format]
  split
  next => exact .restart h
  next =>
    split
    next => exact .of_none ⟨h.maxBlock, rfl, congrArg (·.push byte) h.bytes, rfl, h.stats⟩
    next => exact .drop h _

theorem takeLineByte_alike (h : Alike f g) (byte : UInt8) :
    Fed.Alike (f.takeLineByte byte now).fed (g.takeLineByte byte now').fed := by
  have hbytes : (f.draft.push byte).bytes = (g.draft.push byte).bytes :=
    congrArg (·.push byte) h.bytes
  have hformat : (f.draft.push byte).format = (g.draft.push byte).format := h.format
  have hgrown : Alike { f with draft := f.draft.push byte } { g with draft := g.draft.push byte } :=
    ⟨h.maxBlock, h.stage, hbytes, hformat, h.stats⟩
  unfold takeLineByte
  dsimp only
  rw [hbytes, hformat]
  split
  next =>
    have hrestarted : Alike (f.restart now) (g.restart now') := h.restart
    exact .of_none (hrestarted.count fun s => { s with resyncs := s.resyncs + 1 })
  next =>
    split
    next =>
      split
      next => exact .deliver hgrown
      next =>
        have hdrop := Fed.Alike.drop hgrown (.lineWithoutReturn (g.draft.push byte).bytes.size)
        exact ⟨hdrop.framer, rfl, rfl⟩
    next =>
      split
      next => exact .deliver ⟨h.maxBlock, h.stage, rfl, rfl, h.stats⟩
      next => exact .of_none hgrown

/-! ## §3. Blocks. -/

theorem checkBody_alike (h : Alike f g) : Fed.Alike f.checkBody.fed g.checkBody.fed := by
  unfold checkBody
  rw [h.bytes]
  dsimp only
  split
  next => exact .deliver h
  next =>
    exact .drop (h.count fun s => { s with checksumFailures := s.checksumFailures + 1 }) _

theorem checkHeader_alike (h : Alike f g) : Fed.Alike f.checkHeader.fed g.checkHeader.fed := by
  unfold checkHeader
  rw [h.bytes, h.maxBlock]
  dsimp only
  repeat' split
  · exact .drop h _
  · exact .drop h _
  · exact checkBody_alike h
  · exact .of_none ⟨rfl, rfl, h.bytes, h.format, h.stats⟩

theorem takeBlockBytes_alike {check : Framer → Step} (h : Alike f g)
    (hcheck : checkOf f.stage = some check) (bytes : List UInt8) :
    Fed.Alike (f.takeBlockBytes bytes check).fed (g.takeBlockBytes bytes check).fed := by
  have hbytes : (f.grow bytes).draft.bytes = (g.grow bytes).draft.bytes := by
    show bytes.foldl Array.push f.draft.bytes = bytes.foldl Array.push g.draft.bytes
    rw [h.bytes]
  have hgrown : Alike (f.grow bytes) (g.grow bytes) :=
    ⟨h.maxBlock, h.stage, hbytes, h.format, h.stats⟩
  rw [takeBlockBytes_eq, takeBlockBytes_eq, hgrown.wanted]
  split
  next => exact .of_none hgrown
  next =>
    rcases stage_of_checkOf hcheck with ⟨-, rfl⟩ | ⟨_, -, rfl⟩
    · exact checkHeader_alike hgrown
    · exact checkBody_alike hgrown

/-! ## §4. Pushing and feeding. -/

/-- **A push at another time** differs in the capture time alone. -/
theorem push_alike (h : Alike f g) (bytes : List UInt8) (now now' : Time) :
    Fed.Alike (f.push bytes now).2.fed (g.push bytes now').2.fed := by
  match bytes with
  | [] => exact .of_none h
  | byte :: rest =>
    have hstage := h.stage
    cases hf : f.stage with
    | idle =>
      rw [push_idle hf, push_idle (hstage ▸ hf)]
      exact takeFirst_alike h byte
    | selecting =>
      rw [push_selecting hf, push_selecting (hstage ▸ hf)]
      exact takeSelector_alike h byte
    | confirming =>
      rw [push_confirming hf, push_confirming (hstage ▸ hf)]
      exact takeConfirmation_alike h byte
    | line =>
      rw [push_line hf, push_line (hstage ▸ hf)]
      exact takeLineByte_alike h byte
    | header | body =>
      obtain ⟨check, hcheck⟩ : ∃ check, checkOf f.stage = some check := by
        rw [hf]
        exact ⟨_, rfl⟩
      rw [push_of_checkOf hcheck (List.cons_ne_nil _ _),
        push_of_checkOf (hstage ▸ hcheck) (List.cons_ne_nil _ _), h.wanted]
      exact takeBlockBytes_alike h hcheck _

/-- **Feeding at another time** differs in capture times alone. -/
theorem feed_alike {maxBlock : Nat} {f g : Framer} (hf : Coherent maxBlock f)
    (hg : Coherent maxBlock g) (h : Alike f g) (bytes : List UInt8) (now now' : Time) :
    Fed.Alike (f.feed bytes now) (g.feed bytes now') := by
  induction bytes generalizing f g with
  | nil =>
    rw [feed_nil, feed_nil]
    exact ⟨h, rfl, rfl⟩
  | cons byte rest ih =>
    -- bytes may be fed one at a time, whatever is in progress
    have hpush := push_alike h [byte] now now'
    rw [feed_cons hf, feed_cons hg]
    exact hpush.andThen (ih (push_coherent hf [byte] now) (push_coherent hg [byte] now')
      hpush.framer)

end Framer

/-! ## §5. The telegrams of a stream. -/

/-- A new framer, fed with the bytes. -/
def framing (maxBlock : Nat) (bytes : List UInt8) : Framer.Fed :=
  (Framer.new maxBlock).feed bytes 0

/-- The telegrams that framing the bytes gives. -/
def framesOf (maxBlock : Nat) (bytes : List UInt8) : List (Format × List UInt8) :=
  (framing maxBlock bytes).telegrams.toList.map Telegram.frame

theorem framing_nil (maxBlock : Nat) : framing maxBlock [] = .start (.new maxBlock) :=
  Framer.feed_nil _ _

theorem framesOf_nil (maxBlock : Nat) : framesOf maxBlock [] = [] := by
  unfold framesOf
  rw [framing_nil]
  rfl

theorem framing_append (maxBlock : Nat) (a b : List UInt8) :
    framing maxBlock (a ++ b) = (framing maxBlock a).andThen fun g => g.feed b 0 :=
  Framer.feed_append (Framer.new_coherent maxBlock) a b 0

/-- Framing goes on where it has come to. -/
theorem framesOf_append (maxBlock : Nat) (a b : List UInt8) :
    framesOf maxBlock (a ++ b) = framesOf maxBlock a
      ++ ((framing maxBlock a).framer.feed b 0).telegrams.toList.map Telegram.frame := by
  unfold framesOf
  rw [framing_append, ← List.map_append, ← Array.toList_append]
  rfl

theorem framing_coherent (maxBlock : Nat) (bytes : List UInt8) :
    (framing maxBlock bytes).framer.Coherent maxBlock :=
  (Framer.feed_sound (Framer.new_coherent maxBlock) bytes 0).coherent

end ReceiverLink
