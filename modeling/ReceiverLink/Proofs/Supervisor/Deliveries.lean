/-
  ReceiverLink.Proofs.Supervisor.Deliveries
  ────────────────────────────────
  **What the writing half does, item by item.**

  All that the writing half does for one item is a `Delivery`: it takes the
  item, puts pieces of it on the link, and writes it whole, or loses it, or is
  cut off.  What is recorded of writing is one delivery after the other, for
  the items of the queue in their order; a delivery that is not finished is
  the last one of its link.

  Main statements:
    * `Works.books` — what a transfer does is deliveries, and the items stay
      in their order;
    * `Works.sent` — the bytes put on the link are those recorded.
-/
import ReceiverLink.Proofs.Supervisor.Operations

namespace ReceiverLink

/-! ## §1. What is recorded of one item. -/

/-- How the writing of an item ended. -/
inductive Ending where
  /-- It has not, or the link has ended before. -/
  | unfinished
  | written
  | failed (error : IoError)
  deriving Repr, DecidableEq

/-- An item taken to be written on a link, the pieces of it that were put
there, and how that ended. -/
structure Delivery where
  link : Nat
  item : Outbound
  pieces : List (List UInt8) := []
  ending : Ending := .unfinished
  deriving Repr, DecidableEq

/-- What is recorded of an ending. -/
def Ending.happenings (item : Outbound) : Ending → List Happening
  | .unfinished => []
  | .written => [.written item]
  | .failed e => [.writeFailed item e]

namespace Delivery

/-- The bytes that were put on the link. -/
def bytes (d : Delivery) : List UInt8 :=
  d.pieces.flatten

/-- What is recorded of a delivery. -/
def happenings (d : Delivery) : List Happening :=
  .taken d.link d.item :: (d.pieces.map (.sent d.link) ++ d.ending.happenings d.item)

/-- No byte is put on the link that is not the next one of the item; what is
written is written whole. -/
structure Sound (d : Delivery) : Prop where
  part : d.bytes <+: d.item.payload
  whole : d.ending = .written → d.bytes = d.item.payload

/-- One comes before the other: not on a later link, and on an earlier one if
it is not finished. -/
def Precedes (d d' : Delivery) : Prop :=
  d.link ≤ d'.link ∧ (d.ending = .unfinished → d.link ≠ d'.link)

/-- One more piece. -/
def extend (d : Delivery) (piece : List UInt8) : Delivery :=
  { d with pieces := d.pieces ++ [piece] }

theorem bytes_extend (d : Delivery) (piece : List UInt8) :
    (d.extend piece).bytes = d.bytes ++ piece := by
  simp [extend, bytes]

theorem happenings_extend {d : Delivery} (hopen : d.ending = .unfinished) (piece : List UInt8) :
    (d.extend piece).happenings = d.happenings ++ [.sent d.link piece] := by
  simp [extend, happenings, hopen, Ending.happenings]

theorem happenings_end {d : Delivery} (hopen : d.ending = .unfinished) (ending : Ending) :
    { d with ending := ending }.happenings = d.happenings ++ ending.happenings d.item := by
  simp [happenings, hopen, Ending.happenings]

end Delivery

/-- What is recorded of the writing of items. -/
def ofWriting (hs : List Happening) : List Happening :=
  hs.filter fun h => h.side = .writing

theorem ofWriting_append (hs more : List Happening) :
    ofWriting (hs ++ more) = ofWriting hs ++ ofWriting more :=
  List.filter_append ..

theorem ofWriting_eq_nil {hs : List Happening} (h : ∀ x ∈ hs, x.side ≠ .writing) :
    ofWriting hs = [] := by
  refine List.filter_eq_nil_iff.mpr ?_
  intro x hx
  simpa using h x hx

/-- The bytes put on a link. -/
def Happening.sentOn (number : Nat) : Happening → List UInt8
  | .sent n bytes => if n = number then bytes else []
  | _ => []

/-- The item taken to be written on a link. -/
def Happening.takenOn (number : Nat) : Happening → List Outbound
  | .taken n item => if n = number then [item] else []
  | _ => []

/-! ## §2. The books of a transfer. -/

/-- How the writing half stands to what has been delivered: the item that it
writes is the last one, and all others on its link are finished. -/
def Writer.Holds (number : Nat) (ds : List Delivery) : Writer → Prop
  | .idle => ∀ d ∈ ds, d.ending = .unfinished → d.link ≠ number
  | .closed true => ∀ d ∈ ds, d.ending = .unfinished → d.link ≠ number
  | .closed false => ∃ done d, ds = done ++ [d] ∧ d.link = number ∧ d.ending = .unfinished
  | .writing item rest => ∃ done d, ds = done ++ [d] ∧ d.link = number ∧ d.item = item
      ∧ d.ending = .unfinished ∧ d.bytes ++ rest = item.payload

/-- What has been recorded of writing is made of deliveries. -/
structure Deliveries (hs : List Happening) (ds : List Delivery) : Prop where
  record : ofWriting hs = ds.flatMap Delivery.happenings
  sound : ∀ d ∈ ds, d.Sound
  order : ds.Pairwise Delivery.Precedes

namespace Deliveries

variable {hs : List Happening} {ds done : List Delivery} {d : Delivery}

/-- What is recorded of other matters. -/
theorem aside (h : Deliveries hs ds) {more : List Happening}
    (hmore : ∀ x ∈ more, x.side ≠ .writing) : Deliveries (hs ++ more) ds := by
  refine ⟨?_, h.sound, h.order⟩
  rw [ofWriting_append, ofWriting_eq_nil hmore, List.append_nil]
  exact h.record

/-- A new item is taken. -/
theorem take (h : Deliveries hs ds) {number : Nat} (item : Outbound)
    (hlinks : ∀ d ∈ ds, d.link ≤ number)
    (hfinished : ∀ d ∈ ds, d.ending = .unfinished → d.link ≠ number) :
    Deliveries (hs ++ [.taken number item]) (ds ++ [{ link := number, item := item }]) := by
  refine ⟨?_, ?_, ?_⟩
  · rw [ofWriting_append, h.record, List.flatMap_append]
    rfl
  · intro d hd
    rcases List.mem_append.mp hd with hold | hnew
    · exact h.sound d hold
    · rw [List.mem_singleton.mp hnew]
      exact ⟨List.nil_prefix, fun hwritten => nomatch hwritten⟩
  · refine List.pairwise_append.mpr ⟨h.order, List.pairwise_singleton _ _, ?_⟩
    intro d hd d' hd'
    rw [List.mem_singleton.mp hd']
    exact ⟨hlinks d hd, hfinished d hd⟩

/-- More is recorded of the last item. -/
theorem last (h : Deliveries hs (done ++ [d])) {d' : Delivery} {more : List Happening}
    (hlink : d'.link = d.link) (hrecord : d'.happenings = d.happenings ++ more)
    (hmore : ∀ x ∈ more, x.side = .writing) (hsound : d'.Sound) :
    Deliveries (hs ++ more) (done ++ [d']) := by
  refine ⟨?_, ?_, ?_⟩
  · have hwriting : ofWriting more = more :=
      List.filter_eq_self.mpr fun x hx => by simpa using hmore x hx
    rw [ofWriting_append, hwriting, h.record]
    simp [hrecord]
  · intro x hx
    rcases List.mem_append.mp hx with hold | hnew
    · exact h.sound x (List.mem_append_left _ hold)
    · rw [List.mem_singleton.mp hnew]
      exact hsound
  · obtain ⟨hdone, -, hbefore⟩ := List.pairwise_append.mp h.order
    refine List.pairwise_append.mpr ⟨hdone, List.pairwise_singleton _ _, ?_⟩
    intro x hx y hy
    rw [List.mem_singleton.mp hy]
    have hprecedes := hbefore x hx d (List.mem_singleton_self d)
    unfold Delivery.Precedes at hprecedes ⊢
    rwa [hlink]

/-- All but the last of a link are finished. -/
theorem finished (h : Deliveries hs (done ++ [d])) {number : Nat} (hlink : d.link = number)
    {d' : Delivery} (hending : d'.ending ≠ .unfinished) :
    ∀ x ∈ done ++ [d'], x.ending = .unfinished → x.link ≠ number := by
  intro x hx hopen
  rcases List.mem_append.mp hx with hold | hnew
  · have hprecedes := (List.pairwise_append.mp h.order).2.2 x hold d (List.mem_singleton_self d)
    rw [← hlink]
    exact hprecedes.2 hopen
  · rw [List.mem_singleton.mp hnew] at hopen
    exact absurd hopen hending

end Deliveries

namespace Working

variable {w w' : Working} {past : List Happening} {ds : List Delivery}

/-- The books of a transfer at work, after what was recorded before. -/
structure Books (past : List Happening) (w : Working) (ds : List Delivery) : Prop where
  deliveries : Deliveries (past ++ w.happenings) ds
  links : ∀ d ∈ ds, d.link ≤ w.transfer.number
  holds : w.transfer.writer.Holds w.transfer.number ds

namespace Books

/-- What does not concern the writing half. -/
theorem aside (h : Books past w ds) (hnumber : w'.transfer.number = w.transfer.number)
    (hwriter : w'.transfer.writer = w.transfer.writer) {more : List Happening}
    (hrecord : w'.happenings = w.happenings ++ more) (hmore : ∀ x ∈ more, x.side ≠ .writing) :
    Books past w' ds := by
  refine ⟨?_, ?_, ?_⟩
  · rw [hrecord, ← List.append_assoc]
    exact h.deliveries.aside hmore
  · rw [hnumber]
    exact h.links
  · rw [hnumber, hwriter]
    exact h.holds

theorem take (h : Books past w ds) (hidle : w.transfer.writer = .idle) (item : Outbound)
    (queue : List Outbound) :
    Books past (w.takeItem item queue) (ds ++ [{ link := w.transfer.number, item := item }]) := by
  have hfinished := h.holds
  rw [hidle] at hfinished
  rw [takeItem_eq]
  refine ⟨?_, ?_, ?_⟩
  · rw [happenings_add, ← List.append_assoc]
    exact h.deliveries.take item h.links hfinished
  · intro d hd
    rcases List.mem_append.mp hd with hold | hnew
    · exact h.links d hold
    · rw [List.mem_singleton.mp hnew]
      exact Nat.le_refl _
  · exact ⟨ds, _, rfl, rfl, rfl, rfl, rfl⟩

/-- The last item is written, or lost. -/
theorem finish {done : List Delivery} {d : Delivery} (h : Books past w (done ++ [d]))
    (hlink : d.link = w.transfer.number) (hopen : d.ending = .unfinished) {ending : Ending}
    (hending : ending ≠ .unfinished) (hwhole : ending = .written → d.bytes = d.item.payload)
    (hnumber : w'.transfer.number = w.transfer.number) (hwriter : w'.transfer.writer = .idle)
    (hrecord : w'.happenings = w.happenings ++ ending.happenings d.item) :
    Books past w' (done ++ [{ d with ending := ending }]) := by
  refine ⟨?_, ?_, ?_⟩
  · rw [hrecord, ← List.append_assoc]
    refine h.deliveries.last rfl (Delivery.happenings_end hopen ending) ?_ ⟨?_, hwhole⟩
    · cases ending <;> simp [Ending.happenings, Happening.side]
    · exact (h.deliveries.sound d (by simp)).part
  · intro x hx
    rw [hnumber]
    rcases List.mem_append.mp hx with hold | hnew
    · exact h.links x (List.mem_append_left _ hold)
    · rw [List.mem_singleton.mp hnew]
      exact h.links d (by simp)
  · rw [hwriter, hnumber]
    exact h.deliveries.finished hlink hending

/-- A piece of the last item is put on the link. -/
theorem piece {done : List Delivery} {d : Delivery} (h : Books past w (done ++ [d]))
    (hlink : d.link = w.transfer.number) (hopen : d.ending = .unfinished) {part left : List UInt8}
    (hleft : d.bytes ++ part ++ left = d.item.payload)
    (hnumber : w'.transfer.number = w.transfer.number)
    (hwriter : w'.transfer.writer = .writing d.item left)
    (hrecord : w'.happenings = w.happenings ++ [.sent d.link part]) :
    Books past w' (done ++ [d.extend part]) := by
  refine ⟨?_, ?_, ?_⟩
  · rw [hrecord, ← List.append_assoc]
    refine h.deliveries.last rfl (Delivery.happenings_extend hopen part) ?_ ⟨?_, ?_⟩
    · simp [Happening.side]
    · rw [Delivery.bytes_extend]
      exact ⟨left, hleft⟩
    · intro hwritten
      rw [show (d.extend part).ending = d.ending from rfl, hopen] at hwritten
      cases hwritten
  · intro x hx
    rw [hnumber]
    rcases List.mem_append.mp hx with hold | hnew
    · exact h.links x (List.mem_append_left _ hold)
    · rw [List.mem_singleton.mp hnew]
      exact h.links d (by simp)
  · rw [hwriter, hnumber]
    refine ⟨done, d.extend part, rfl, hlink, rfl, hopen, ?_⟩
    rw [Delivery.bytes_extend]
    exact hleft

end Books

/-! ## §3. The writing half keeps its books. -/

/-- The items in their order: those taken, and those still queued. -/
def entries (w : Working) (ds : List Delivery) : List Outbound :=
  ds.map Delivery.item ++ w.queue

/-- The items stay in their order, and nothing changes of other links. -/
structure Continues (w : Working) (ds : List Delivery) (w' : Working) (ds' : List Delivery) :
    Prop where
  entries : w'.entries ds' = w.entries ds
  others : ∀ d ∈ ds', d ∈ ds ∨ d.link = w.transfer.number

theorem Continues.same (h : w'.queue = w.queue) : Continues w ds w' ds := by
  refine ⟨?_, fun d hd => .inl hd⟩
  unfold Working.entries
  rw [h]

theorem Continues.trans {v : Working} {ds' ds'' : List Delivery} (h : Continues w ds w' ds')
    (h' : Continues w' ds' v ds'') (hnumber : w'.transfer.number = w.transfer.number) :
    Continues w ds v ds'' := by
  refine ⟨h'.entries.trans h.entries, ?_⟩
  intro d hd
  rcases h'.others d hd with hold | hnew
  · exact h.others d hold
  · exact .inr (hnew.trans hnumber)

/-- The last delivery goes on. -/
theorem Continues.last {done : List Delivery} {d d' : Delivery} (hqueue : w'.queue = w.queue)
    (hitem : d'.item = d.item) (hlink : d'.link = w.transfer.number) :
    Continues w (done ++ [d]) w' (done ++ [d']) := by
  refine ⟨?_, ?_⟩
  · unfold Working.entries
    rw [List.map_append, List.map_append, hqueue]
    simp [hitem]
  · intro x hx
    rcases List.mem_append.mp hx with hold | hnew
    · exact .inl (List.mem_append_left _ hold)
    · rw [List.mem_singleton.mp hnew]
      exact .inr hlink

/-- Losing the item in progress. -/
theorem Books.fail (h : Books past w ds) {item : Outbound} {rest : List UInt8}
    (hwriting : w.transfer.writer = .writing item rest) (e : IoError)
    (hnumber : w'.transfer.number = w.transfer.number) (hwriter : w'.transfer.writer = .idle)
    (hrecord : w'.happenings = w.happenings ++ [.writeFailed item e])
    (hqueue : w'.queue = w.queue) :
    ∃ ds', Books past w' ds' ∧ Continues w ds w' ds' := by
  have hholds := h.holds
  rw [hwriting] at hholds
  obtain ⟨done, d, rfl, hlink, rfl, hopen, -⟩ := hholds
  have hlost : Books past w' (done ++ [{ d with ending := .failed e }]) :=
    h.finish hlink hopen (by simp) (by simp) hnumber hwriter hrecord
  exact ⟨_, hlost, .last hqueue rfl hlink⟩

theorem Books.send (h : Books past w ds) {item : Outbound} {rest : List UInt8}
    (hwriting : w.transfer.writer = .writing item rest) :
    ∃ ds', Books past (w.sendOnce item rest) ds'
      ∧ Continues w ds (w.sendOnce item rest) ds' := by
  have hholds := h.holds
  rw [hwriting] at hholds
  obtain ⟨done, d, rfl, hlink, rfl, hopen, hrest⟩ := hholds
  generalize hpart : w.link.outbound.fitting rest = part
  have hleft : d.bytes ++ part ++ rest.drop part.length = d.item.payload := by
    have hfront : rest.take part.length = part := by
      rw [← hpart]
      exact (w.link.outbound.fitting_eq_take rest).symm
    calc d.bytes ++ part ++ rest.drop part.length
        = d.bytes ++ (rest.take part.length ++ rest.drop part.length) := by
          rw [hfront, List.append_assoc]
      _ = d.item.payload := by rw [List.take_append_drop, hrest]
  have hput : Books past (w.putPart d.item rest) (done ++ [d.extend part]) := by
    refine h.piece hlink hopen hleft rfl ?_ ?_
    · rw [← hpart]
      rfl
    · rw [hlink, ← hpart]
      exact happenings_add _ _
  rw [sendOnce_eq, hpart]
  split
  next hnil =>
    -- the item is on the link as a whole
    have hwhole : (d.extend part).bytes = (d.extend part).item.payload := by
      rw [hnil, List.append_nil] at hleft
      rw [Delivery.bytes_extend]
      exact hleft
    rcases (w.putPart d.item rest).flush_eq d.item with ⟨kind, hflush⟩ | hflush
    · refine ⟨done ++ [{ d.extend part with ending := .failed ⟨kind, none⟩ }], ?_, ?_⟩
      · rw [hflush]
        exact hput.finish hlink hopen (by simp) (by simp) rfl rfl (happenings_add _ _)
      · rw [hflush]
        exact .last rfl rfl hlink
    · refine ⟨done ++ [{ d.extend part with ending := .written }], ?_, ?_⟩
      · rw [hflush]
        exact hput.finish hlink hopen (by simp) (fun _ => hwhole) rfl rfl (happenings_add _ _)
      · rw [hflush]
        exact .last rfl rfl hlink
  next => exact ⟨_, hput, .last rfl rfl hlink⟩

theorem Writes.books (hwrites : Writes w w') (h : Books past w ds) :
    ∃ ds', Books past w' ds' ∧ Continues w ds w' ds' := by
  cases hwrites with
  | shut _ idle =>
    have hholds := h.holds
    rw [idle] at hholds
    unfold shutWriter
    dsimp only
    split
    next kind _ =>
      refine ⟨ds, ⟨?_, h.links, hholds⟩, .same rfl⟩
      rw [note_eq_add, happenings_add, ← List.append_assoc]
      exact h.deliveries.aside (by simp [Happening.side])
    next => exact ⟨ds, ⟨h.deliveries, h.links, hholds⟩, .same rfl⟩
  | cut _ writing =>
    -- the item stays as far as it has got
    have hholds := h.holds
    rw [writing] at hholds
    obtain ⟨done, d, hds, hlink, -, hopen, -⟩ := hholds
    exact ⟨ds, ⟨h.deliveries, h.links, done, d, hds, hlink, hopen⟩, .same rfl⟩
  | @take item queue idle first =>
    refine ⟨_, h.take idle item queue, ?_, ?_⟩
    · unfold entries
      rw [first]
      simp [takeItem, note, update]
    · intro d hd
      rcases List.mem_append.mp hd with hold | hnew
      · exact .inl hold
      · rw [List.mem_singleton.mp hnew]
        exact .inr rfl
  | @fail item rest kind writing =>
    refine h.fail writing ⟨kind, none⟩ rfl rfl ?_ rfl
    rw [failWriting_eq]
    exact happenings_add _ _
  | @refuse item rest writing =>
    refine h.fail writing ⟨.brokenPipe, none⟩ rfl rfl ?_ rfl
    rw [failWriting_eq]
    exact happenings_add _ _
  | send writing => exact h.send writing

theorem Operates.books (hop : Operates w w') (h : Books past w ds) :
    ∃ ds', Books past w' ds' ∧ Continues w ds w' ds' := by
  cases hop with
  | arrange => exact ⟨ds, ⟨h.deliveries, h.links, h.holds⟩, .same rfl⟩
  | read reads =>
    have hkeeps := reads.keepsOutbound
    obtain ⟨hs, hrecord, hside⟩ := hkeeps.record
    refine ⟨ds, h.aside hkeeps.number hkeeps.writer hrecord ?_, .same hkeeps.queue⟩
    intro x hx hwriting
    rw [(hside x hx).1] at hwriting
    cases hwriting
  | write writes => exact writes.books h
  | finish =>
    rw [finish_eq]
    refine ⟨ds, h.aside rfl rfl (happenings_add _ _) ?_, .same rfl⟩
    intro x hx
    rw [eq_of_mem_cutOff hx]
    decide

/-- **What a transfer does keeps the books**: the items stay in their order. -/
theorem Works.books (hworks : Works w w') (h : Books past w ds) :
    ∃ ds', Books past w' ds' ∧ Continues w ds w' ds' := by
  induction hworks with
  | refl => exact ⟨ds, h, .same rfl⟩
  | tail hworks hop ih =>
    obtain ⟨ds', hbooks, hcontinues⟩ := ih
    obtain ⟨ds'', hbooks', hcontinues'⟩ := hop.books hbooks
    exact ⟨ds'', hbooks', hcontinues.trans hcontinues' (Works.same hworks).number⟩

/-! ## §4. What is put on the link. -/

theorem flush_outbound (w : Working) (item : Outbound) :
    (w.flush item).link.outbound = w.link.outbound := by
  rcases w.flush_eq item with ⟨kind, hflush⟩ | hflush <;> rw [hflush] <;> rfl

theorem flush_record (w : Working) (item : Outbound) :
    ∃ hs, (w.flush item).happenings = w.happenings ++ hs
      ∧ ∀ n, hs.flatMap (Happening.sentOn n) = [] := by
  rcases w.flush_eq item with ⟨kind, hflush⟩ | hflush
  all_goals
    rw [hflush]
    exact ⟨_, happenings_add _ _, fun _ => rfl⟩

theorem Writes.sent (hwrites : Writes w w') :
    ∃ hs, w'.happenings = w.happenings ++ hs
      ∧ w'.link.outbound.buffer
        = w.link.outbound.buffer ++ hs.flatMap (Happening.sentOn w.transfer.number) := by
  cases hwrites with
  | shut =>
    unfold shutWriter
    dsimp only
    split
    next =>
      rw [note_eq_add]
      exact ⟨_, happenings_add _ _, (List.append_nil _).symm⟩
    next => exact ⟨[], (List.append_nil _).symm, (List.append_nil _).symm⟩
  | cut => exact ⟨[], (List.append_nil _).symm, (List.append_nil _).symm⟩
  | take =>
    rw [takeItem_eq]
    exact ⟨_, happenings_add _ _, (List.append_nil _).symm⟩
  | fail =>
    rw [failWriting_eq]
    exact ⟨_, happenings_add _ _, (List.append_nil _).symm⟩
  | refuse =>
    rw [failWriting_eq]
    exact ⟨_, happenings_add _ _, (List.append_nil _).symm⟩
  | @send item rest =>
    -- a part is put there and recorded; flushing does neither
    have hbuffer : (w.putPart item rest).link.outbound.buffer = w.link.outbound.buffer
        ++ [Happening.sent w.transfer.number (w.link.outbound.fitting rest)].flatMap
          (Happening.sentOn w.transfer.number) := by
      simp [putPart, update, add, Pipe.put, Happening.sentOn]
    have hrecord : (w.putPart item rest).happenings
        = w.happenings ++ [.sent w.transfer.number (w.link.outbound.fitting rest)] :=
      happenings_add _ _
    rw [sendOnce_eq]
    split
    next =>
      obtain ⟨hs, hflush, hnone⟩ := (w.putPart item rest).flush_record item
      refine ⟨_, by rw [hflush, hrecord, List.append_assoc], ?_⟩
      rw [flush_outbound, hbuffer, List.flatMap_append, hnone, List.append_nil]
    next => exact ⟨_, hrecord, hbuffer⟩

/-- **The bytes put on the link are those recorded.** -/
theorem Works.sent (hworks : Works w w') :
    ∃ hs, w'.happenings = w.happenings ++ hs
      ∧ w'.link.outbound.buffer
        = w.link.outbound.buffer ++ hs.flatMap (Happening.sentOn w.transfer.number) := by
  induction hworks with
  | refl => exact ⟨[], (List.append_nil _).symm, (List.append_nil _).symm⟩
  | @tail b c hworks hop ih =>
    obtain ⟨hs, hrecord, hbuffer⟩ := ih
    have hnumber := (Works.same hworks).number
    -- writing records what it puts there, and nothing else touches the pipe
    obtain ⟨more, hrecord', hbuffer'⟩ : ∃ more, c.happenings = b.happenings ++ more
        ∧ c.link.outbound.buffer
          = b.link.outbound.buffer ++ more.flatMap (Happening.sentOn b.transfer.number) := by
      cases hop with
      | arrange => exact ⟨[], (List.append_nil _).symm, (List.append_nil _).symm⟩
      | read reads =>
        have hkeeps := reads.keepsOutbound
        obtain ⟨more, hmore, hside⟩ := hkeeps.record
        refine ⟨more, hmore, ?_⟩
        have hnone : more.flatMap (Happening.sentOn b.transfer.number) = [] := by
          refine List.flatMap_eq_nil_iff.mpr ?_
          intro x hx
          have hreading := (hside x hx).1
          cases x <;> first | rfl | cases hreading
        rw [hkeeps.outbound, hnone, List.append_nil]
      | write writes => exact writes.sent
      | finish =>
        rw [finish_eq]
        refine ⟨b.cutOff, happenings_add _ _, ?_⟩
        have hnone : b.cutOff.flatMap (Happening.sentOn b.transfer.number) = [] := by
          refine List.flatMap_eq_nil_iff.mpr ?_
          intro x hx
          rw [eq_of_mem_cutOff hx]
          rfl
        rw [hnone, List.append_nil]
        rfl
    refine ⟨hs ++ more, by rw [hrecord', hrecord, List.append_assoc], ?_⟩
    rw [hbuffer', hbuffer, hnumber, List.flatMap_append, List.append_assoc]

end Working

end ReceiverLink
