/-
  ReceiverLink.Proofs.Supervisor.Hearing
  ────────────────────────────────
  **Writing cannot be heard.**

  `heard` leaves out of a transfer at work all that belongs to its writing
  half: the item in progress, the queue, the outbound pipe with the failures
  prepared for it, and the order of turns.  What the writing half does cannot
  be heard, and what the reading half does is determined by what is heard.  So
  a transfer comes to rest, as far as it can be heard, where its reading half
  alone would have come to rest.

  Main statements:
    * `hears_rightUnique` — what is heard determines what is heard next;
    * `Works.hears` — a transfer is heard to do what its reading half does;
    * `settle_heard` — transfers that are heard alike settle alike.
-/
import ReceiverLink.Proofs.Supervisor.Rest

namespace ReceiverLink

/-! ## §1. What is heard. -/

/-- It is the doing of a reading half, or of a call or the watchdog and not
about sending. -/
def Happening.isHeard (h : Happening) : Bool :=
  match h.side with
  | .reading => true
  | .writing => false
  | .closing => false
  | .queueing => false
  | .steering => h ≠ .emptyCommand

/-- What a writing half does is not heard. -/
theorem Happening.isHeard_of_writing {h : Happening}
    (hside : h.side = .writing ∨ h.side = .closing) : h.isHeard = false := by
  unfold isHeard
  rcases hside with hside | hside <;> rw [hside]

/-- What is heard of a record. -/
def heardOf (hs : List Happening) : List Happening :=
  hs.filter Happening.isHeard

theorem heardOf_append (hs more : List Happening) :
    heardOf (hs ++ more) = heardOf hs ++ heardOf more :=
  List.filter_append ..

theorem heardOf_heardOf (hs : List Happening) : heardOf (heardOf hs) = heardOf hs := by
  unfold heardOf
  rw [List.filter_filter]
  simp

theorem heardOf_eq_nil {hs : List Happening} (h : ∀ x ∈ hs, x.isHeard = false) :
    heardOf hs = [] := by
  refine List.filter_eq_nil_iff.mpr ?_
  intro x hx
  rw [h x hx]
  decide

/-- A transfer without its writing half. -/
def Transfer.heard (t : Transfer) : Transfer :=
  { t with writer := .idle, turns := 0, due := true }

/-- A link without its outbound pipe, and with the failures for reading only. -/
def Link.heard (l : Link) : Link :=
  { l with
    outbound := { capacity := none, writerOpen := false, readerOpen := false }
    faults := { read := l.faults.read } }

/-- A link as long as the supervisor holds it. -/
def Link.held (l : Link) : Link :=
  { l with inbound := { l.inbound with readerOpen := true } }

/-- When a link is let go depends on both halves. -/
theorem Link.heard_eq_of_held {l m : Link} (hheld : l.heard.held = m.heard.held)
    (hopen : l.inbound.readerOpen = m.inbound.readerOpen) : l.heard = m.heard := by
  have hinbound : l.inbound = m.inbound := by
    have hsame : l.heard.held.inbound = m.heard.held.inbound := congrArg Link.inbound hheld
    calc l.inbound = { l.heard.held.inbound with readerOpen := l.inbound.readerOpen } := rfl
      _ = { m.heard.held.inbound with readerOpen := m.inbound.readerOpen } := by rw [hsame, hopen]
      _ = m.inbound := rfl
  calc l.heard = { l.heard.held with inbound := l.inbound } := rfl
    _ = { m.heard.held with inbound := m.inbound } := by rw [hheld, hinbound]
    _ = m.heard := rfl

namespace Working

variable {w v w' v' : Working} {maxBlock : Nat}

/-- A transfer at work, as far as it can be heard: at whatever pace. -/
def heard (w : Working) : Working :=
  { w with
    pace := .cooperative
    transfer := w.transfer.heard
    link := w.link.heard.held
    queue := []
    record := (heardOf w.happenings).toArray }

theorem heard_congr (transfer : w.transfer.heard = v.transfer.heard)
    (link : w.link.heard.held = v.link.heard.held) (consumer : w.consumer = v.consumer)
    (now : w.now = v.now) (record : heardOf w.happenings = heardOf v.happenings) :
    w.heard = v.heard := by
  unfold heard
  rw [transfer, link, consumer, now, record]

theorem happenings_heard (w : Working) : w.heard.happenings = heardOf w.happenings :=
  rfl

/-- More is recorded, in the one as in the other. -/
theorem heardOf_add (w : Working) (hs : List Happening) :
    heardOf (w.heard.happenings ++ hs) = heardOf (w.happenings ++ hs) := by
  rw [happenings_heard, heardOf_append, heardOf_append, heardOf_heardOf]

/-! ## §2. Reading is determined by what is heard. -/

/-- What a reading half does is heard. -/
theorem Reads.heard (h : Reads w w') : ∃ v, Reads w.heard v ∧ v.heard = w'.heard := by
  -- the conditions of each operation are about what is heard
  cases h with
  | stop reading ended =>
    refine ⟨w.heard.stopReading, .stop reading ended, ?_⟩
    rw [stopReading_eq, stopReading_eq]
    refine heard_congr rfl rfl rfl rfl ?_
    rw [happenings_add, happenings_add]
    exact heardOf_add w _
  | retry reading going fault =>
    refine ⟨w.heard.forgetReadFault, .retry reading going fault, ?_⟩
    exact heard_congr rfl rfl rfl rfl (heardOf_heardOf _)
  | @fail kind reading going fault other =>
    refine ⟨w.heard.forgetReadFault.failReading kind, .fail reading going fault other, ?_⟩
    unfold failReading
    rw [drop_eq, drop_eq]
    refine heard_congr rfl rfl rfl rfl ?_
    rw [happenings_add, happenings_add]
    exact heardOf_add w _
  | close reading going fault atEnd =>
    refine ⟨w.heard.endReading, .close reading going fault atEnd, ?_⟩
    unfold endReading
    dsimp only
    rw [drop_eq, drop_eq]
    refine heard_congr rfl rfl rfl rfl ?_
    rw [happenings_add, happenings_add]
    exact heardOf_add w _
  | take reading going fault come =>
    refine ⟨w.heard.readOnce, .take reading going fault come, ?_⟩
    rw [readOnce_eq, readOnce_eq]
    refine heard_congr rfl rfl rfl rfl ?_
    rw [happenings_add, happenings_add]
    exact heardOf_add w _

/-- There is no choice in reading. -/
theorem Reads.unique (h : Reads w w') (h' : Reads w v) : w' = v := by
  -- any two different operations ask for different things of the same fields
  cases h <;> cases h' <;> first | rfl | simp_all [Pipe.atEnd]

/-- What can be heard next. -/
def Hears (a b : Working) : Prop :=
  ∃ c, Reads a c ∧ c.heard = b

theorem hears_rightUnique : Relator.RightUnique Hears := by
  rintro a b b' ⟨c, hreads, rfl⟩ ⟨c', hreads', rfl⟩
  rw [hreads.unique hreads']

theorem Reads.canRead (h : Reads w w') : w.canRead = true := by
  unfold Working.canRead
  cases h with
  | stop reading ended => simp [reading, ended]
  | retry reading _ fault => simp [reading, fault]
  | fail reading _ fault => simp [reading, fault]
  | close reading _ _ atEnd => simp [reading, atEnd]
  | take reading _ _ come => simp [reading, come]

theorem canRead_heard (w : Working) : w.heard.canRead = w.canRead :=
  rfl

/-- At rest the reading half has nothing to do. -/
theorem canRead_of_rest (h : w.isReady = false) : w.canRead = false := by
  rw [isReady_eq] at h
  rcases Bool.and_eq_false_iff.mp h with hdone | hcannot
  · have hdone : w.transfer.isDone = true := by simpa using hdone
    have hreading := (Bool.and_eq_true_iff.mp hdone).1
    unfold canRead
    rw [show w.transfer.reading = false by simpa using hreading]
    rfl
  · exact (Bool.or_eq_false_iff.mp (Bool.or_eq_false_iff.mp hcannot).1).2

/-! ## §3. Writing cannot be heard. -/

theorem Writes.heard (h : Writes w w') : w'.heard = w.heard := by
  have hkeeps := h.keepsInbound
  obtain ⟨hs, hrecord, hside⟩ := hkeeps.record
  refine heard_congr ?_ ?_ hkeeps.consumer hkeeps.now ?_
  · rw [← hkeeps.transfer]
    rfl
  · unfold Link.heard Link.held
    rw [hkeeps.inbound, hkeeps.fault, hkeeps.receiver]
  · have hnone : heardOf hs = [] :=
      heardOf_eq_nil fun x hx => Happening.isHeard_of_writing (hside x hx).1
    rw [hrecord, heardOf_append, hnone, List.append_nil]

theorem finish_heard (w : Working) : w.finish.heard = w.heard := by
  have hnone : heardOf w.cutOff = [] := by
    refine heardOf_eq_nil ?_
    intro x hx
    rw [eq_of_mem_cutOff hx]
    rfl
  rw [finish_eq]
  refine heard_congr rfl rfl rfl rfl ?_
  rw [happenings_add, heardOf_append, hnone]
  exact List.append_nil _

/-- **A transfer is heard to do what its reading half does.** -/
theorem Works.hears (h : Works w w') : Relation.ReflTransGen Hears w.heard w'.heard := by
  induction h with
  | refl => exact .refl
  | @tail b c _ hop ih =>
    cases hop with
    | arrange => exact ih
    | read reads =>
      obtain ⟨v, hreads, hsame⟩ := reads.heard
      exact ih.tail ⟨v, hreads, hsame⟩
    | write writes =>
      rw [writes.heard]
      exact ih
    | finish =>
      rw [finish_heard]
      exact ih

/-- What is heard of a transfer at rest is all that will be heard. -/
theorem eq_of_hears_rest (hrest : w.isReady = false)
    (h : Relation.ReflTransGen Hears w.heard v) : v = w.heard := by
  rcases Relation.ReflTransGen.cases_head h with hsame | ⟨c, ⟨b, hreads, -⟩, -⟩
  · exact hsame.symm
  · have hcan := hreads.canRead
    rw [canRead_heard, canRead_of_rest hrest] at hcan
    cases hcan

/-- **Transfers that are heard alike settle alike.** -/
theorem settle_heard (hw : Sane maxBlock w.transfer) (hv : Sane maxBlock v.transfer)
    (h : w.heard = v.heard) : w.settle.heard = v.settle.heard := by
  have hears := Works.hears w.settle_works
  have hears' := Works.hears v.settle_works
  rw [h] at hears
  -- both have come to rest from the same beginning
  rcases Relation.ReflTransGen.total_of_right_unique hears_rightUnique hears hears' with hon | hon
  · exact (eq_of_hears_rest (settle_rests hw) hon).symm
  · exact eq_of_hears_rest (settle_rests hv) hon

/-- And they let go of their links together. -/
theorem settle_link (hw : Sane maxBlock w.transfer) (hv : Sane maxBlock v.transfer)
    (hholds : w.Holds) (hholds' : v.Holds) (h : w.heard = v.heard) :
    w.settle.link.heard = v.settle.link.heard := by
  have hsame := settle_heard hw hv h
  have hended : w.settle.transfer.ended = v.settle.transfer.ended := by
    have hended := congrArg (fun a : Working => a.transfer.ended) hsame
    exact hended
  have hdone := (isDone_of_rest (w.settle_works.sane hw) (settle_rests hw)).1
  have hdone' := (isDone_of_rest (v.settle_works.sane hv) (settle_rests hv)).1
  have hopen : w.settle.link.inbound.readerOpen = !w.settle.transfer.isDone := settle_holds hholds
  have hopen' : v.settle.link.inbound.readerOpen = !v.settle.transfer.isDone :=
    settle_holds hholds'
  refine Link.heard_eq_of_held (congrArg Working.link hsame) ?_
  rw [hopen, hopen', hdone, hdone', hended]

end Working

end ReceiverLink
