/-
  ReceiverLink.Proofs.Supervisor.Reception
  ────────────────────────────────
  **What the reading half does, byte by byte.**

  The reading half takes bytes out of the inbound pipe and frames them with a
  framer of its own.  Whatever turns it takes, the telegrams handed over are
  those that framing all bytes taken from the link gives; what is left in
  progress at the end is dropped.  And it ends, unless it is made to, only
  when all bytes are taken and no more can come.

  Main statements:
    * `Works.frames` — the telegrams of a link are those of framing its bytes;
    * `Works.inflow` — the bytes taken are those that were at the front;
    * `Works.patient` — a link is over only when all has been taken.
-/
import ReceiverLink.Proofs.Framer.Untimed
import ReceiverLink.Proofs.Supervisor.Rest

namespace ReceiverLink

/-! ## §1. What is recorded of reading. -/

/-- The bytes taken from a link. -/
def Happening.consumedOn (number : Nat) : Happening → List UInt8
  | .consumed n bytes => if n = number then bytes else []
  | _ => []

/-- The telegrams that the consumer has received, without the times at which
they came. -/
def framesReceived (hs : List Happening) : List (Format × List UInt8) :=
  (hs.filterMap Happening.telegram?).map Telegram.frame

theorem framesReceived_append (hs more : List Happening) :
    framesReceived (hs ++ more) = framesReceived hs ++ framesReceived more := by
  unfold framesReceived
  rw [List.filterMap_append, List.map_append]

/-- Nothing is read, and nothing handed over. -/
def Happening.Unread (h : Happening) : Prop :=
  h.telegram? = none ∧ ∀ n, h.consumedOn n = []

theorem Happening.unread_of_side {h : Happening} (hside : h.side ≠ .reading) : h.Unread := by
  cases h <;> first | exact ⟨rfl, fun _ => rfl⟩ | exact absurd rfl hside

theorem framesReceived_of_unread {hs : List Happening} (h : ∀ x ∈ hs, x.Unread) :
    framesReceived hs = [] := by
  unfold framesReceived
  rw [List.filterMap_eq_nil_iff.mpr fun x hx => (h x hx).1]
  rfl

theorem consumedOn_of_unread {hs : List Happening} (h : ∀ x ∈ hs, x.Unread) (n : Nat) :
    hs.flatMap (Happening.consumedOn n) = [] :=
  List.flatMap_eq_nil_iff.mpr fun x hx => (h x hx).2 n

namespace Working

variable {w w' : Working} {past : List Happening} {maxBlock : Nat}

/-- Giving up the telegram in progress hands none over. -/
theorem unread_dropped {reason : Happening} (hreason : reason.Unread) :
    ∀ x ∈ w.dropped reason, x.Unread := by
  have habort : (w.transfer.framer.abort 0).telegram = none := by
    unfold Framer.abort
    split <;> rfl
  intro x hx
  unfold dropped framed at hx
  rw [habort] at hx
  rcases List.mem_append.mp hx with hframed | hlast
  · obtain ⟨event, -, rfl⟩ := List.mem_map.mp (by simpa using hframed)
    exact ⟨rfl, fun _ => rfl⟩
  · rcases List.mem_cons.mp hlast with rfl | hlast
    · exact hreason
    · rw [List.mem_singleton.mp hlast]
      exact ⟨rfl, fun _ => rfl⟩

/-- While a consumer is there, framing a step hands over what it delivers. -/
theorem framesReceived_framed (step : Framer.Step) :
    framesReceived (framed true step) = step.fed.telegrams.toList.map Telegram.frame := by
  have hevents : framesReceived (step.events.map .framing) = [] := by
    refine framesReceived_of_unread ?_
    intro x hx
    obtain ⟨event, -, rfl⟩ := List.mem_map.mp hx
    exact ⟨rfl, fun _ => rfl⟩
  unfold framed
  rw [framesReceived_append, hevents, List.nil_append]
  unfold Framer.Step.fed
  cases step.telegram <;> rfl

theorem consumedOn_framed (consumer : Bool) (step : Framer.Step) (n : Nat) :
    (framed consumer step).flatMap (Happening.consumedOn n) = [] := by
  refine List.flatMap_eq_nil_iff.mpr ?_
  intro x hx
  have hside := (side_framed hx).2
  cases x <;> first | rfl | cases hside

/-! ## §2. Reading, and everything else. -/

/-- Nothing is read, and nothing handed over. -/
structure Aside (w w' : Working) : Prop where
  record : ∃ hs, w'.happenings = w.happenings ++ hs ∧ ∀ x ∈ hs, x.Unread
  buffer : w'.link.inbound.buffer = w.link.inbound.buffer
  writerOpen : w'.link.inbound.writerOpen = w.link.inbound.writerOpen
  capacity : w'.link.inbound.capacity = w.link.inbound.capacity
  framer : w'.transfer.reading = true →
    w.transfer.reading = true ∧ w'.transfer.framer = w.transfer.framer
  fault : w'.link.faults.read = none ∨ w'.link.faults.read = w.link.faults.read
  /-- A link is over when all has been taken, or when reading has failed. -/
  ended : w'.transfer.ended = true → w.transfer.ended = true ∨ w.link.inbound.atEnd = true
    ∨ ∃ kind, w.link.faults.read = some kind ∧ kind ≠ .interrupted

/-- Nothing is recorded, and the framer is not touched. -/
theorem Aside.silent (record : w'.happenings = w.happenings)
    (inbound : w'.link.inbound = w.link.inbound)
    (reading : w'.transfer.reading = w.transfer.reading)
    (framer : w'.transfer.framer = w.transfer.framer)
    (fault : w'.link.faults.read = none ∨ w'.link.faults.read = w.link.faults.read)
    (ended : w'.transfer.ended = w.transfer.ended) : Aside w w' := by
  refine ⟨⟨[], ?_, by simp⟩, ?_, ?_, ?_, ?_, fault, ?_⟩
  · rw [record, List.append_nil]
  · rw [inbound]
  · rw [inbound]
  · rw [inbound]
  · rw [reading]
    exact fun hreading => ⟨hreading, framer⟩
  · rw [ended]
    exact .inl

/-- Reading ends early. -/
theorem Aside.drop {reason : Happening} (hreason : reason.Unread)
    (hwhy : w.link.inbound.atEnd = true
      ∨ ∃ kind, w.link.faults.read = some kind ∧ kind ≠ .interrupted)
    (hinbound : w'.link.inbound = w.link.inbound) (hfault : w'.link.faults.read = none)
    (hrecord : w'.happenings = w.happenings) :
    Aside w ((w'.frame (w'.transfer.framer.abort 0)).note reason).stopReading := by
  rw [drop_eq]
  refine ⟨⟨w'.dropped reason, ?_, unread_dropped hreason⟩, ?_, ?_, ?_, (fun hr => nomatch hr),
    .inl hfault, fun _ => .inr hwhy⟩
  · rw [happenings_add, ← hrecord]
    rfl
  · exact congrArg Pipe.buffer hinbound
  · exact congrArg Pipe.writerOpen hinbound
  · exact congrArg Pipe.capacity hinbound

/-- An operation takes bytes, or it reads nothing. -/
theorem Operates.reads_or_aside (hop : Operates w w') :
    (w.transfer.reading = true ∧ w.transfer.ended = false ∧ w' = w.readOnce) ∨ Aside w w' := by
  cases hop with
  | arrange => exact .inr (.silent rfl rfl rfl rfl (.inr rfl) rfl)
  | read reads =>
    cases reads with
    | stop reading ended =>
      rw [stopReading_eq]
      refine .inr ⟨⟨_, happenings_add _ _, ?_⟩, rfl, rfl, rfl, (fun hr => nomatch hr), .inr rfl,
        fun _ => .inl ended⟩
      intro x hx
      rw [List.mem_singleton.mp hx]
      exact ⟨rfl, fun _ => rfl⟩
    | retry => exact .inr (.silent rfl rfl rfl rfl (.inl rfl) rfl)
    | @fail kind reading going fault other =>
      exact .inr (.drop ⟨rfl, fun _ => rfl⟩ (.inr ⟨kind, fault, other⟩) rfl rfl rfl)
    | close reading going fault atEnd =>
      exact .inr (.drop ⟨rfl, fun _ => rfl⟩ (.inl atEnd) rfl fault rfl)
    | take reading going => exact .inl ⟨reading, going, rfl⟩
  | write writes =>
    -- the writing half keeps the inbound side, and records nothing of it
    have hkeeps := writes.keepsInbound
    obtain ⟨hs, hrecord, hside⟩ := hkeeps.record
    refine .inr ⟨⟨hs, hrecord, ?_⟩, ?_, ?_, ?_, ?_, .inr hkeeps.fault, ?_⟩
    · intro x hx
      refine Happening.unread_of_side ?_
      rcases (hside x hx).1 with hwriting | hclosing
      · rw [hwriting]
        decide
      · rw [hclosing]
        decide
    · rw [hkeeps.inbound]
    · rw [hkeeps.inbound]
    · rw [hkeeps.inbound]
    · rw [hkeeps.reading]
      exact fun hreading => ⟨hreading, hkeeps.framer⟩
    · rw [hkeeps.ended]
      exact .inl
  | finish =>
    rw [finish_eq]
    refine .inr ⟨⟨w.cutOff, happenings_add _ _, ?_⟩, rfl, rfl, rfl, fun hr => ⟨hr, rfl⟩, .inr rfl,
      .inl⟩
    intro x hx
    rw [eq_of_mem_cutOff hx]
    exact ⟨rfl, fun _ => rfl⟩

/-! ## §3. The telegrams of a link. -/

/-- The bytes taken from the link so far. -/
def consumed (past : List Happening) (w : Working) : List UInt8 :=
  (past ++ w.happenings).flatMap (Happening.consumedOn w.transfer.number)

/-- What has been handed over is what framing the bytes gives, after what had
been handed over of other links; and reading goes on where framing has come
to. -/
structure Frames (maxBlock : Nat) (past : List Happening) (others : List (Format × List UInt8))
    (w : Working) : Prop where
  consumer : w.consumer = true
  sane : Sane maxBlock w.transfer
  received : framesReceived (past ++ w.happenings) = others ++ framesOf maxBlock (w.consumed past)
  framer : w.transfer.reading = true →
    Framer.Alike w.transfer.framer (framing maxBlock (w.consumed past)).framer

variable {others : List (Format × List UInt8)}

/-- Nothing is read. -/
theorem Frames.aside (h : Frames maxBlock past others w) (hsame : Same w w')
    (hsane : Sane maxBlock w'.transfer) (haside : Aside w w') :
    Frames maxBlock past others w' := by
  obtain ⟨hs, hrecord, hunread⟩ := haside.record
  have hconsumed : w'.consumed past = w.consumed past := by
    unfold consumed
    rw [hsame.number, hrecord, ← List.append_assoc, List.flatMap_append,
      consumedOn_of_unread hunread, List.append_nil]
  refine ⟨hsame.consumer.trans h.consumer, hsane, ?_, ?_⟩
  · rw [hconsumed, hrecord, ← List.append_assoc, framesReceived_append,
      framesReceived_of_unread hunread, List.append_nil]
    exact h.received
  · intro hreading
    obtain ⟨hread, hsteps⟩ := haside.framer hreading
    rw [hconsumed, hsteps]
    exact h.framer hread

theorem consumedOn_received (w : Working) :
    (w.received w.incoming).flatMap (Happening.consumedOn w.transfer.number) = w.incoming := by
  unfold Working.received
  rw [List.flatMap_cons, consumedOn_framed, List.append_nil]
  simp [Happening.consumedOn]

/-- Bytes are read and framed. -/
theorem Frames.take (h : Frames maxBlock past others w) (hreading : w.transfer.reading = true) :
    Frames maxBlock past others w.readOnce := by
  have halike := h.framer hreading
  have hcoherent := framing_coherent maxBlock (w.consumed past)
  -- a push of no more than what is wanted feeds all of it
  have hpush : (w.transfer.framer.push w.incoming w.now).2.fed
      = w.transfer.framer.feed w.incoming w.now := by
    rw [Framer.push_fed_eq_feed h.sane.coherent]
    unfold incoming
    rw [List.take_take, Nat.min_self]
  have hfeed := Framer.feed_alike h.sane.coherent hcoherent halike w.incoming w.now 0
  rw [← hpush] at hfeed
  have hrecord : w.readOnce.happenings = w.happenings ++ w.received w.incoming := by
    rw [readOnce_eq]
    exact happenings_add _ _
  have hconsumed : w.readOnce.consumed past = w.consumed past ++ w.incoming := by
    have hnumber : w.readOnce.transfer.number = w.transfer.number := by
      rw [readOnce_eq]
      rfl
    unfold consumed
    rw [hnumber, hrecord, ← List.append_assoc, List.flatMap_append, consumedOn_received]
  refine ⟨?_, ?_, ?_, ?_⟩
  · rw [readOnce_eq]
    exact h.consumer
  · rw [readOnce_eq]
    exact ⟨Framer.push_coherent h.sane.coherent _ _, h.sane.reading, h.sane.writer⟩
  · have hframes : framesReceived (w.received w.incoming)
        = ((framing maxBlock (w.consumed past)).framer.feed w.incoming 0).telegrams.toList.map
            Telegram.frame := by
      unfold Working.received
      rw [h.consumer]
      show framesReceived (framed true _) = _
      rw [framesReceived_framed]
      exact hfeed.frames
    rw [hrecord, ← List.append_assoc, framesReceived_append, h.received, hframes, hconsumed]
    rw [framesOf_append, List.append_assoc]
  · intro _
    rw [hconsumed, framing_append, readOnce_eq]
    exact hfeed.framer

theorem Operates.frames (hop : Operates w w') (h : Frames maxBlock past others w) :
    Frames maxBlock past others w' := by
  rcases hop.reads_or_aside with ⟨hreading, -, rfl⟩ | haside
  · exact h.take hreading
  · exact h.aside hop.same (hop.sane h.sane) haside

/-- **The telegrams of a link are those of framing its bytes.** -/
theorem Works.frames (hworks : Works w w') (h : Frames maxBlock past others w) :
    Frames maxBlock past others w' := by
  induction hworks with
  | refl => exact h
  | tail _ hop ih => exact hop.frames ih

/-! ## §4. The bytes of a link. -/

/-- The bytes taken are those at the front of the inbound pipe. -/
def Inflow (w w' : Working) : Prop :=
  w'.link.inbound.writerOpen = w.link.inbound.writerOpen
    ∧ ∃ hs, w'.happenings = w.happenings ++ hs ∧ w.link.inbound.buffer
      = hs.flatMap (Happening.consumedOn w.transfer.number) ++ w'.link.inbound.buffer

theorem Operates.inflow (hop : Operates w w') : Inflow w w' := by
  rcases hop.reads_or_aside with ⟨-, -, rfl⟩ | haside
  · rw [readOnce_eq]
    refine ⟨rfl, _, happenings_add _ _, ?_⟩
    rw [consumedOn_received]
    exact (List.take_append_drop _ _).symm
  · obtain ⟨hs, hrecord, hunread⟩ := haside.record
    refine ⟨haside.writerOpen, hs, hrecord, ?_⟩
    rw [consumedOn_of_unread hunread, haside.buffer]
    rfl

/-- **The bytes taken are those that were at the front.** -/
theorem Works.inflow (hworks : Works w w') : Inflow w w' := by
  induction hworks with
  | refl => exact ⟨rfl, [], (List.append_nil _).symm, rfl⟩
  | tail hworks hop ih =>
    obtain ⟨hopen, hs, hrecord, hbuffer⟩ := ih
    obtain ⟨hopen', more, hrecord', hbuffer'⟩ := hop.inflow
    rw [(Works.same hworks).number] at hbuffer'
    refine ⟨hopen'.trans hopen, hs ++ more, by rw [hrecord', hrecord, List.append_assoc], ?_⟩
    rw [hbuffer, hbuffer', List.flatMap_append, List.append_assoc]

/-- Once all is taken and no more can come, it stays so. -/
theorem Inflow.atEnd (h : Inflow w w') (hend : w.link.inbound.atEnd = true) :
    w'.link.inbound.atEnd = true := by
  obtain ⟨hopen, hs, -, hbuffer⟩ := h
  obtain ⟨hempty, hclosed⟩ := Bool.and_eq_true_iff.mp hend
  have hnil : w'.link.inbound.buffer = [] := by
    rw [List.isEmpty_iff.mp hempty] at hbuffer
    exact (List.append_eq_nil_iff.mp hbuffer.symm).2
  unfold Pipe.atEnd
  rw [hnil, hopen, hclosed]
  rfl

/-- A pipe holds as many bytes as before. -/
theorem Works.capacity (hworks : Works w w') :
    w'.link.inbound.capacity = w.link.inbound.capacity := by
  induction hworks with
  | refl => rfl
  | tail _ hop ih =>
    rw [← ih]
    rcases hop.reads_or_aside with ⟨-, -, rfl⟩ | haside
    · rw [readOnce_eq]
      rfl
    · exact haside.capacity

/-- No read fails, and the link is over only if all its bytes are taken. -/
structure Patient (w : Working) : Prop where
  fault : ∀ kind, w.link.faults.read = some kind → kind = .interrupted
  ended : w.transfer.ended = true → w.link.inbound.atEnd = true

theorem Operates.patient (hop : Operates w w') (h : Patient w) : Patient w' := by
  have hinflow := hop.inflow
  rcases hop.reads_or_aside with ⟨-, hgoing, rfl⟩ | haside
  · rw [readOnce_eq]
    refine ⟨h.fault, ?_⟩
    intro hended
    have hended : w.transfer.ended = true := hended
    rw [hgoing] at hended
    cases hended
  · refine ⟨?_, ?_⟩
    · intro kind hkind
      rcases haside.fault with hnone | hsame
      · rw [hnone] at hkind
        cases hkind
      · exact h.fault kind (hsame ▸ hkind)
    · intro hended
      refine hinflow.atEnd ?_
      rcases haside.ended hended with hended | hend | ⟨kind, hfault, hother⟩
      · exact h.ended hended
      · exact hend
      · exact absurd (h.fault kind hfault) hother

/-- **A link is over only when all has been taken.** -/
theorem Works.patient (hworks : Works w w') (h : Patient w) : Patient w' := by
  induction hworks with
  | refl => exact h
  | tail _ hop ih => exact hop.patient ih

end Working

end ReceiverLink
