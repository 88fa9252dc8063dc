/-
  ReceiverLink.Proofs.Supervisor.Rest
  ────────────────────────────────
  **A transfer that has settled is at rest.**

  Settling makes a bounded number of turns.  The bound is large enough: each
  operation uses up some of what there is to do (`load`), a turn in which
  something can be done does it, and a turn that ends because its operations
  are used up has done as many.  So afterwards neither half can do anything,
  and if both have ended the link has been let go.

  Main statements:
    * `turn_load` — a turn of a transfer that is ready leaves less to do;
    * `settle_rests` — after settling nothing can be done;
    * `settle_holds` — the link is let go exactly when both halves have ended;
    * `settle_whole` — and then with both its ends.
-/
import Mathlib.Tactic.ByContra
import ReceiverLink.Proofs.Framer.Stages
import ReceiverLink.Proofs.Supervisor.Operations

namespace ReceiverLink

/-! ## §1. What there is to do. -/

/-- What a writing half still has to do for the item in progress. -/
def Writer.load : Writer → Nat
  | .closed _ => 0
  | .idle => 1
  | .writing _ rest => rest.length + 2

/-- The supervisor has not let go of the reading end of the link alone. -/
def Link.Whole (l : Link) : Prop :=
  l.inbound.readerOpen = false → l.outbound.writerOpen = false

namespace Working

/-- The reading half can do something. -/
def canRead (w : Working) : Bool :=
  w.transfer.reading &&
    (w.transfer.ended || w.link.faults.read.isSome || !w.link.inbound.buffer.isEmpty ||
      w.link.inbound.atEnd)

/-- The writing half can do something. -/
def canWrite (w : Working) : Bool :=
  match w.transfer.writer with
  | .closed _ => false
  | .idle => w.transfer.ended || !w.queue.isEmpty
  | .writing _ _ => w.transfer.ended || w.link.outbound.isBroken || !w.link.outbound.isFull

theorem isReady_eq (w : Working) :
    w.isReady = (!w.transfer.isDone && (w.transfer.due || w.canRead || w.canWrite)) :=
  rfl

/-- What the items of the queue make to do. -/
def queueLoad (queue : List Outbound) : Nat :=
  queue.foldr (fun o n => o.payload.length + 3 + n) 0

/-- A bound on the operations still to come. -/
def load (w : Working) : Nat :=
  w.link.inbound.buffer.length + queueLoad w.queue + w.transfer.writer.load +
    2 * w.transfer.reading.toNat + w.link.faults.read.isSome.toNat

/-- A turn that is due counts as well, but less than an operation. -/
def loadDue (w : Working) : Nat :=
  2 * w.load + w.transfer.due.toNat

theorem work_eq (w : Working) :
    w.work = 2 * (w.link.inbound.buffer.length + queueLoad w.queue + w.transfer.writer.load
      + 2 * w.transfer.reading.toNat + 1) + 1 := by
  unfold work
  cases w.transfer.writer <;> cases w.transfer.reading <;> rfl

theorem loadDue_le_work (w : Working) : w.loadDue ≤ w.work := by
  have hfault := w.link.faults.read.isSome.toNat_le
  have hdue := w.transfer.due.toNat_le
  rw [work_eq]
  unfold loadDue load
  omega

/-! ## §2. What an operation uses up. -/

/-- A number of operations is used up, `left` of them are not, and each of
those used has done something.  A new turn becomes due only when none is
left. -/
structure Spends (w : Working) (n : Nat) (w' : Working) (left : Nat) : Prop where
  cost : w'.load + n ≤ w.load + left
  left_le : left ≤ n
  due : w'.transfer.due = true → w.transfer.due = true ∨ left = 0

namespace Spends

variable {a b c : Working} {n m left : Nat}

theorem refl (w : Working) (n : Nat) : Spends w n w n :=
  ⟨Nat.le_refl _, Nat.le_refl _, .inl⟩

theorem trans (h : Spends a n b m) (h' : Spends b m c left) : Spends a n c left := by
  have hcost := h.cost
  have hcost' := h'.cost
  have hle := h'.left_le
  refine ⟨by omega, Nat.le_trans hle h.left_le, ?_⟩
  intro hdue
  rcases h'.due hdue with hdue | hleft
  · rcases h.due hdue with hdue | hm
    · exact .inl hdue
    · exact .inr (by omega)
  · exact .inr hleft

/-- One operation. -/
theorem op (hload : b.load < a.load) (hdue : b.transfer.due = a.transfer.due) :
    Spends a (n + 1) b n :=
  ⟨by omega, Nat.le_succ n, fun h => .inl (hdue ▸ h)⟩

/-- What is not counted as an operation. -/
theorem free (hload : b.load ≤ a.load) (hdue : b.transfer.due = a.transfer.due) :
    Spends a n b n :=
  ⟨by omega, Nat.le_refl n, fun h => .inl (hdue ▸ h)⟩

theorem load_le (h : Spends a n b left) : b.load ≤ a.load := by
  have hcost := h.cost
  have hle := h.left_le
  omega

end Spends

variable {maxBlock : Nat} {w : Working}

theorem stopReading_load (h : w.transfer.reading = true) : w.stopReading.load < w.load := by
  rw [stopReading_eq]
  unfold load
  rw [h]
  simp only [update, add, Bool.toNat_true, Bool.toNat_false]
  omega

theorem drop_load (h : w.transfer.reading = true) (reason : Happening) :
    ((w.frame (w.transfer.framer.abort 0)).note reason).stopReading.load < w.load := by
  rw [drop_eq]
  unfold load
  rw [h]
  simp only [update, add, Bool.toNat_true, Bool.toNat_false]
  omega

theorem forgetReadFault_load (h : w.link.faults.read.isSome = true) :
    w.forgetReadFault.load < w.load := by
  unfold load
  rw [h]
  simp only [forgetReadFault, Option.isSome_none, Bool.toNat_true, Bool.toNat_false]
  omega

theorem readOnce_load (hcoherent : w.transfer.framer.Coherent maxBlock)
    (hcome : w.link.inbound.buffer ≠ []) : w.readOnce.load < w.load := by
  have hwanted := hcoherent.wanted_pos
  have hlength : 0 < w.link.inbound.buffer.length := List.length_pos_iff.mpr hcome
  rw [readOnce_eq]
  unfold load
  simp only [update, add, List.length_drop]
  omega

theorem takeItem_load {item : Outbound} {queue : List Outbound} (hidle : w.transfer.writer = .idle)
    (hqueue : w.queue = item :: queue) : (w.takeItem item queue).load < w.load := by
  rw [takeItem_eq]
  unfold load
  rw [hidle, hqueue]
  simp only [update, add, queueLoad, List.foldr_cons, Writer.load]
  omega

theorem failWriting_load {item : Outbound} {rest : List UInt8} {kind : IoKind}
    (hwriting : w.transfer.writer = .writing item rest) :
    (w.failWriting item kind).load < w.load := by
  rw [failWriting_eq]
  unfold load
  rw [hwriting]
  simp only [update, add, Writer.load]
  omega

theorem flush_load {item : Outbound} {rest : List UInt8}
    (hwriting : w.transfer.writer = .writing item rest) : (w.flush item).load < w.load := by
  rcases w.flush_eq item with ⟨kind, hflush⟩ | hflush
  all_goals
    rw [hflush]
    unfold load
    rw [hwriting]
    simp only [update, add, Writer.load]
    omega

theorem shutWriter_load (hidle : w.transfer.writer = .idle) : w.shutWriter.load < w.load := by
  unfold load shutWriter
  rw [hidle]
  dsimp only
  split
  all_goals
    simp only [update, note, Writer.load]
    omega

theorem cutWriter_load {item : Outbound} {rest : List UInt8}
    (hwriting : w.transfer.writer = .writing item rest) : w.cutWriter.load < w.load := by
  unfold load cutWriter
  rw [hwriting]
  simp only [update, Writer.load]
  omega

/-- What is put on a link that is not full is not nothing. -/
theorem fitting_length {p : Pipe} {bytes : List UInt8} (hroom : p.isFull = false)
    (hne : bytes ≠ []) : 0 < (p.fitting bytes).length := by
  have hlength : 0 < bytes.length := List.length_pos_iff.mpr hne
  unfold Pipe.isFull at hroom
  unfold Pipe.fitting
  cases hcapacity : p.capacity with
  | none => exact hlength
  | some c =>
    rw [hcapacity] at hroom
    have hlt : p.buffer.length < c := by simpa using hroom
    show 0 < (bytes.take (c - p.buffer.length)).length
    rw [List.length_take]
    omega

theorem sendOnce_load {item : Outbound} {rest : List UInt8}
    (hwriting : w.transfer.writer = .writing item rest)
    (hroom : w.link.outbound.isFull = false) : (w.sendOnce item rest).load < w.load := by
  have hput : (w.putPart item rest).load
      + (rest.length - (rest.drop (w.link.outbound.fitting rest).length).length) = w.load := by
    unfold putPart load
    rw [hwriting]
    simp only [update, add, Writer.load, List.length_drop]
    omega
  rw [sendOnce_eq]
  split
  next hleft =>
    have hflush : ((w.putPart item rest).flush item).load < (w.putPart item rest).load :=
      flush_load rfl
    omega
  next hleft =>
    -- something was left, so something was put
    have hne : rest ≠ [] := fun hnil => hleft (by rw [hnil, List.drop_nil])
    have hlength : 0 < rest.length := List.length_pos_iff.mpr hne
    have hfits := fitting_length hroom hne
    rw [List.length_drop] at hput
    omega

/-! ## §3. What a turn uses up. -/

theorem readOn_spends (n : Nat) (hcoherent : w.transfer.framer.Coherent maxBlock)
    (hreading : w.transfer.reading = true) :
    Spends w n (w.readOn n).1 (w.readOn n).2 := by
  -- the budget goes down by one with each operation, and the load with it
  induction n generalizing w with
  | zero => exact ⟨Nat.le_refl _, Nat.le_refl _, fun _ => .inr rfl⟩
  | succ n ih =>
    unfold readOn
    split
    next =>
      have hload : w.endReading.load < w.load := drop_load hreading _
      refine .op hload ?_
      unfold endReading
      dsimp only
      rw [drop_eq]
      rfl
    next =>
      split
      next => exact .refl _ _
      next hcome =>
        have hne : w.link.inbound.buffer ≠ [] := fun hnil => hcome (by rw [hnil]; rfl)
        have hop : Spends w (n + 1) w.readOnce n := by
          refine .op (readOnce_load hcoherent hne) ?_
          rw [readOnce_eq]
          rfl
        refine hop.trans (ih ?_ ?_)
        · rw [readOnce_eq]
          exact Framer.push_coherent hcoherent _ _
        · rw [readOnce_eq]
          exact hreading

theorem readTurn_spends (n : Nat) (hcoherent : w.transfer.framer.Coherent maxBlock) :
    Spends w n (w.readTurn n).1 (w.readTurn n).2 := by
  unfold readTurn
  split
  next => exact .refl _ _
  next hreading =>
    have hreading : w.transfer.reading = true := by simpa using hreading
    split
    next =>
      refine .free (Nat.le_of_lt (stopReading_load hreading)) ?_
      rw [stopReading_eq]
      rfl
    next =>
      split
      next => exact readOn_spends n hcoherent hreading
      next kind hfault =>
        have hforget := forgetReadFault_load (w := w) (by rw [hfault]; rfl)
        dsimp only
        split
        next =>
          have hfree : Spends w n w.forgetReadFault n := .free (Nat.le_of_lt hforget) rfl
          exact hfree.trans (readOn_spends n hcoherent hreading)
        next =>
          have hfail : (w.forgetReadFault.failReading kind).load < w.forgetReadFault.load :=
            drop_load (w := w.forgetReadFault) hreading _
          refine .free (Nat.le_of_lt (Nat.lt_trans hfail hforget)) ?_
          unfold failReading
          rw [drop_eq]
          rfl

theorem writeOn_spends (n : Nat) (w : Working) : Spends w n (w.writeOn n).1 (w.writeOn n).2 := by
  induction n generalizing w with
  | zero => exact ⟨Nat.le_refl _, Nat.le_refl _, fun _ => .inr rfl⟩
  | succ n ih =>
    unfold writeOn
    split
    next => exact .refl _ _
    next hidle =>
      split
      next => exact .refl _ _
      next item queue hqueue =>
        have hop : Spends w (n + 1) (w.takeItem item queue) n :=
          .op (takeItem_load hidle hqueue) rfl
        exact hop.trans (ih _)
    next item rest hwriting =>
      split
      next kind hfault =>
        have hop : Spends w (n + 1) (w.forgetWriteFault.failWriting item kind) n :=
          .op (failWriting_load (w := w.forgetWriteFault) hwriting) rfl
        exact hop.trans (ih _)
      next =>
        split
        next =>
          have hop : Spends w (n + 1) (w.failWriting item .brokenPipe) n :=
            .op (failWriting_load hwriting) rfl
          exact hop.trans (ih _)
        next =>
          split
          next => exact .refl _ _
          next hfull =>
            have hop : Spends w (n + 1) (w.sendOnce item rest) n :=
              .op (sendOnce_load hwriting (by simpa using hfull)) (KeepsInbound.sendOnce _ _ _).due
            exact hop.trans (ih _)

theorem writeTurn_spends (n : Nat) (w : Working) :
    Spends w n (w.writeTurn n).1 (w.writeTurn n).2 := by
  unfold writeTurn
  split
  next =>
    split
    next hidle =>
      exact .free (Nat.le_of_lt (shutWriter_load hidle)) (KeepsInbound.shutWriter w).due
    next hwriting => exact .free (Nat.le_of_lt (cutWriter_load hwriting)) rfl
    next => exact .refl _ _
  next => exact writeOn_spends n w

/-! ## §4. What a half can do it does. -/

theorem readTurn_load {n : Nat} (hcoherent : w.transfer.framer.Coherent maxBlock) (hn : 0 < n)
    (hcan : w.canRead = true) : (w.readTurn n).1.load < w.load := by
  obtain ⟨hreading, hwhy⟩ := Bool.and_eq_true_iff.mp hcan
  unfold readTurn
  rw [if_neg (by simp [hreading])]
  split
  next => exact stopReading_load hreading
  next hgoing =>
    split
    next hfault =>
      obtain ⟨m, rfl⟩ : ∃ m, n = m + 1 := ⟨n - 1, by omega⟩
      unfold readOn
      split
      next => exact drop_load hreading _
      next hend =>
        -- bytes have come, as nothing else could be the reason
        have hcome : w.link.inbound.buffer ≠ [] := by
          intro hnil
          rw [hnil, hfault] at hwhy
          simp_all
        rw [if_neg (by simpa using hcome)]
        have hspends : Spends w.readOnce m (w.readOnce.readOn m).1 (w.readOnce.readOn m).2 := by
          refine readOn_spends m (?_ : w.readOnce.transfer.framer.Coherent maxBlock) ?_
          · rw [readOnce_eq]
            exact Framer.push_coherent hcoherent _ _
          · rw [readOnce_eq]
            exact hreading
        exact Nat.lt_of_le_of_lt hspends.load_le (readOnce_load hcoherent hcome)
    next kind hfault =>
      have hforget := forgetReadFault_load (w := w) (by rw [hfault]; rfl)
      dsimp only
      split
      next =>
        have hspends : Spends w.forgetReadFault n (w.forgetReadFault.readOn n).1
            (w.forgetReadFault.readOn n).2 := readOn_spends n hcoherent hreading
        exact Nat.lt_of_le_of_lt hspends.load_le hforget
      next =>
        have hfail : (w.forgetReadFault.failReading kind).load < w.forgetReadFault.load :=
          drop_load (w := w.forgetReadFault) hreading _
        exact Nat.lt_trans hfail hforget

theorem writeTurn_load {n : Nat} (hn : 0 < n) (hcan : w.canWrite = true) :
    (w.writeTurn n).1.load < w.load := by
  unfold canWrite at hcan
  unfold writeTurn
  split
  next hended =>
    split
    next hidle => exact shutWriter_load hidle
    next hwriting => exact cutWriter_load hwriting
    next hclosed =>
      rw [hclosed] at hcan
      cases hcan
  next hgoing =>
    have hgoing : w.transfer.ended = false := by simpa using hgoing
    -- the first operation lessens the load, and those after it do not add to it
    obtain ⟨m, rfl⟩ : ∃ m, n = m + 1 := ⟨n - 1, by omega⟩
    unfold writeOn
    split
    next hclosed =>
      rw [hclosed] at hcan
      cases hcan
    next hidle =>
      split
      next hqueue =>
        rw [hidle, hqueue, hgoing] at hcan
        cases hcan
      next item queue hqueue =>
        have hspends := writeOn_spends m (w.takeItem item queue)
        exact Nat.lt_of_le_of_lt hspends.load_le (takeItem_load hidle hqueue)
    next item rest hwriting =>
      rw [hwriting, hgoing] at hcan
      split
      next kind hfault =>
        have hspends := writeOn_spends m (w.forgetWriteFault.failWriting item kind)
        exact Nat.lt_of_le_of_lt hspends.load_le
          (failWriting_load (w := w.forgetWriteFault) hwriting)
      next =>
        split
        next =>
          have hspends := writeOn_spends m (w.failWriting item .brokenPipe)
          exact Nat.lt_of_le_of_lt hspends.load_le (failWriting_load hwriting)
        next hbroken =>
          have hroom : w.link.outbound.isFull = false := by simpa [hbroken] using hcan
          rw [if_neg (by simp [hroom])]
          have hspends := writeOn_spends m (w.sendOnce item rest)
          exact Nat.lt_of_le_of_lt hspends.load_le (sendOnce_load hwriting hroom)

theorem canRead_of_writes {w' : Working} (h : Half Writes w w') : w'.canRead = w.canRead := by
  induction h with
  | refl => rfl
  | @tail b c _ hop ih =>
    rw [← ih]
    rcases hop with hwrites | rfl
    · have hkeeps := hwrites.keepsInbound
      unfold canRead
      rw [hkeeps.reading, hkeeps.ended, hkeeps.fault, hkeeps.inbound]
    · rfl

/-- A writing half that has nothing to do has nothing to do without a queue. -/
theorem cannotWrite_of_empty (h : w.canWrite = false) :
    canWrite { w with queue := [] } = false := by
  unfold canWrite at h ⊢
  dsimp only
  cases hwriter : w.transfer.writer with
  | closed => rfl
  | idle =>
    rw [hwriter] at h
    show (w.transfer.ended || false) = false
    rw [Bool.or_false]
    exact (Bool.or_eq_false_iff.mp h).1
  | writing item rest =>
    rw [hwriter] at h
    exact h

/-- So a transfer that can do nothing can do nothing without a queue. -/
theorem isReady_of_empty (h : w.isReady = false) : isReady { w with queue := [] } = false := by
  rw [isReady_eq] at h ⊢
  rcases Bool.and_eq_false_iff.mp h with hdone | hcannot
  · exact Bool.and_eq_false_iff.mpr (.inl hdone)
  · obtain ⟨hread, hwrite⟩ := Bool.or_eq_false_iff.mp hcannot
    refine Bool.and_eq_false_iff.mpr (.inr (Bool.or_eq_false_iff.mpr ⟨hread, ?_⟩))
    exact cannotWrite_of_empty hwrite

/-- And it leaves everything as it is. -/
theorem settle_of_rest (h : w.isReady = false) : w.settle = w := by
  unfold settle
  rw [h]
  rfl

/-- A transfer that is done does nothing more. -/
theorem settle_of_done (h : w.transfer.isDone = true) : w.settle = w := by
  refine settle_of_rest ?_
  rw [isReady_eq, h]
  rfl

theorem settle_isDone (h : w.transfer.isDone = true) : w.settle.transfer.isDone = true := by
  rw [settle_of_done h]
  exact h

/-- Reading may end the link, but does not take it back. -/
theorem Reads.ended {w' : Working} (h : Reads w w') (hended : w.transfer.ended = true) :
    w'.transfer.ended = true := by
  cases h with
  | stop =>
    rw [stopReading_eq]
    rfl
  | retry => exact hended
  | fail _ going =>
    rw [hended] at going
    cases going
  | close _ going =>
    rw [hended] at going
    cases going
  | take =>
    rw [readOnce_eq]
    exact hended

theorem canWrite_of_reads {w' : Working} (h : Half Reads w w') (hcan : w.canWrite = true) :
    w'.canWrite = true := by
  induction h with
  | refl => exact hcan
  | @tail b c _ hop ih =>
    rcases hop with hreads | rfl
    · have hkeeps := hreads.keepsOutbound
      unfold canWrite at ih ⊢
      rw [hkeeps.writer, hkeeps.queue, hkeeps.outbound]
      cases hended : b.transfer.ended with
      | true =>
        rw [hended] at ih
        rw [hreads.ended hended]
        exact ih
      | false =>
        rw [hended] at ih
        split at ih
        next => exact ih
        next => exact Bool.or_eq_true_iff.mpr (.inr (by simpa using ih))
        next =>
          rw [Bool.false_or] at ih
          rw [Bool.or_assoc, ih, Bool.or_true]
    · exact ih

/-! ## §5. Sane transfers. -/

/-- The framer is as framing leaves it, and a half ends only with the link. -/
structure Sane (maxBlock : Nat) (t : Transfer) : Prop where
  coherent : t.framer.Coherent maxBlock
  reading : t.reading = false → t.ended = true
  writer : ∀ clean, t.writer = .closed clean → t.ended = true

theorem Reads.sane {w' : Working} (h : Reads w w') (hsane : Sane maxBlock w.transfer) :
    Sane maxBlock w'.transfer := by
  have habort : (w.transfer.framer.abort 0).framer.Coherent maxBlock :=
    (Framer.abort_sound hsane.coherent 0).coherent
  cases h with
  | stop =>
    rw [stopReading_eq]
    exact ⟨hsane.coherent, fun _ => rfl, fun _ _ => rfl⟩
  | retry => exact hsane
  | fail =>
    unfold failReading
    rw [drop_eq]
    exact ⟨habort, fun _ => rfl, fun _ _ => rfl⟩
  | close =>
    unfold endReading
    dsimp only
    rw [drop_eq]
    exact ⟨habort, fun _ => rfl, fun _ _ => rfl⟩
  | take =>
    rw [readOnce_eq]
    exact ⟨Framer.push_coherent hsane.coherent _ _, hsane.reading, hsane.writer⟩

/-- Only a link that is to end closes the writing half. -/
theorem Writes.closed {w' : Working} (h : Writes w w') {clean : Bool}
    (hclosed : w'.transfer.writer = .closed clean) : w.transfer.ended = true := by
  have hflush : ∀ (v : Working) (item : Outbound), (v.flush item).transfer.writer = .idle := by
    intro v item
    rcases v.flush_eq item with ⟨kind, hflush⟩ | hflush <;> rw [hflush] <;> rfl
  cases h with
  | shut ended => exact ended
  | cut ended => exact ended
  | take => cases hclosed
  | fail => cases hclosed
  | refuse => cases hclosed
  | send =>
    rw [sendOnce_eq] at hclosed
    split at hclosed
    next =>
      rw [hflush] at hclosed
      cases hclosed
    next => cases hclosed

theorem Operates.sane {w' : Working} (h : Operates w w') (hsane : Sane maxBlock w.transfer) :
    Sane maxBlock w'.transfer := by
  cases h with
  | arrange => exact ⟨hsane.coherent, hsane.reading, hsane.writer⟩
  | read reads => exact reads.sane hsane
  | write writes =>
    have hkeeps := writes.keepsInbound
    refine ⟨?_, ?_, ?_⟩
    · rw [hkeeps.framer]
      exact hsane.coherent
    · rw [hkeeps.reading, hkeeps.ended]
      exact hsane.reading
    · rw [hkeeps.ended]
      exact fun clean hclosed => writes.closed hclosed
  | finish =>
    rw [finish_eq]
    exact hsane

theorem Works.sane {w' : Working} (h : Works w w') (hsane : Sane maxBlock w.transfer) :
    Sane maxBlock w'.transfer := by
  induction h with
  | refl => exact hsane
  | tail _ hop ih => exact hop.sane ih

/-! ## §6. Settling comes to rest. -/

theorem finish_load (w : Working) : w.finish.loadDue = w.loadDue := by
  rw [finish_eq]
  rfl

/-- A turn in which something is done, or whose operations are used up, leaves
less to do. -/
theorem Spends.loadDue_lt {a c : Working} {budget left : Nat} (h : Spends a budget c left)
    (hbudget : 0 < budget) (hload : a.load = w.load) (hdue : a.transfer.due = false)
    (hwhy : w.transfer.due = true ∨ c.load < a.load) : c.loadDue < w.loadDue := by
  have hcost := h.cost
  have hle := h.left_le
  unfold loadDue
  cases hc : c.transfer.due with
  | true =>
    -- a new turn is due only when no operation is left
    rcases h.due hc with ha | hleft
    · rw [hdue] at ha
      cases ha
    · simp only [Bool.toNat_true]
      omega
  | false =>
    rcases hwhy with hdue | hless
    · rw [hdue]
      simp only [Bool.toNat_true, Bool.toNat_false]
      omega
    · simp only [Bool.toNat_false]
      omega

/-- The reading half has its turn first. -/
theorem readFirst_load {budget : Nat} (hbudget : 0 < budget) (hsane : Sane maxBlock w.transfer)
    (hcan : w.canRead = true ∨ w.canWrite = true) :
    ((w.readTurn budget).1.writeTurn (w.readTurn budget).2).1.load < w.load := by
  have hreads := readTurn_spends (w := w) budget hsane.coherent
  have hhalf := readTurn_half budget w
  have hless := readTurn_load (w := w) hsane.coherent hbudget
  generalize w.readTurn budget = r at hreads hhalf hless
  obtain ⟨b, left⟩ := r
  have hwrites := writeTurn_spends left b
  rcases hcan with hcan | hcan
  · exact Nat.lt_of_le_of_lt hwrites.load_le (hless hcan)
  · have hcan' := canWrite_of_reads hhalf hcan
    rcases Nat.eq_zero_or_pos left with hzero | hpos
    · -- reading has used up all operations, and each of them has done something
      have hcost := (hreads.trans hwrites).cost
      have hle : (b.writeTurn left).2 ≤ left := hwrites.left_le
      show (b.writeTurn left).1.load < w.load
      omega
    · exact Nat.lt_of_lt_of_le (writeTurn_load hpos hcan') hreads.load_le

/-- The writing half has its turn first. -/
theorem writeFirst_load {budget : Nat} (hbudget : 0 < budget) (hsane : Sane maxBlock w.transfer)
    (hcan : w.canRead = true ∨ w.canWrite = true) :
    ((w.writeTurn budget).1.readTurn (w.writeTurn budget).2).1.load < w.load := by
  have hwrites := writeTurn_spends budget w
  have hhalf := writeTurn_half budget w
  have hless := writeTurn_load (w := w) hbudget
  generalize w.writeTurn budget = r at hwrites hhalf hless
  obtain ⟨b, left⟩ := r
  have hcoherent := ((hhalf.works .write).sane hsane).coherent
  have hreads := readTurn_spends left hcoherent
  rcases hcan with hcan | hcan
  · rcases Nat.eq_zero_or_pos left with hzero | hpos
    · have hcost : (b.readTurn left).1.load + budget ≤ w.load + (b.readTurn left).2 :=
        (hwrites.trans hreads).cost
      have hle : (b.readTurn left).2 ≤ left := hreads.left_le
      show (b.readTurn left).1.load < w.load
      omega
    · have hcan' : b.canRead = true := (canRead_of_writes hhalf).trans hcan
      exact Nat.lt_of_lt_of_le (readTurn_load hcoherent hpos hcan') hwrites.load_le
  · exact Nat.lt_of_le_of_lt hreads.load_le (hless hcan)

/-- **A turn leaves less to do.** -/
theorem turn_load (hsane : Sane maxBlock w.transfer) (hready : w.isReady = true) :
    w.turn.loadDue < w.loadDue := by
  rw [isReady_eq] at hready
  obtain ⟨-, hwhy⟩ := Bool.and_eq_true_iff.mp hready
  have hbudget := w.pace.budget_pos w.transfer.number w.transfer.turns
  unfold turn
  dsimp only
  generalize w.pace.budget w.transfer.number w.transfer.turns = budget at hbudget
  generalize hbegin : w.update ({ · with due := false, turns := w.transfer.turns + 1 }) = a
  obtain ⟨hload, hdue, hread, hwrite, hsanea⟩ : a.load = w.load ∧ a.transfer.due = false
      ∧ a.canRead = w.canRead ∧ a.canWrite = w.canWrite ∧ Sane maxBlock a.transfer := by
    rw [← hbegin]
    exact ⟨rfl, rfl, rfl, rfl, hsane.coherent, hsane.reading, hsane.writer⟩
  rw [← hread, ← hwrite, Bool.or_assoc] at hwhy
  have hcan : w.transfer.due = true ∨ (a.canRead = true ∨ a.canWrite = true) :=
    (Bool.or_eq_true_iff.mp hwhy).imp id Bool.or_eq_true_iff.mp
  -- letting go of the link costs nothing
  have hend : ∀ {c : Working}, c.loadDue < w.loadDue →
      (if c.transfer.isDone then c.finish else c).loadDue < w.loadDue := by
    intro c hless
    split
    next => exact c.finish_load ▸ hless
    next => exact hless
  split
  next =>
    have hspends := (readTurn_spends budget hsanea.coherent).trans (writeTurn_spends _ _)
    exact hend (hspends.loadDue_lt hbudget hload hdue
      (hcan.imp id (readFirst_load hbudget hsanea)))
  next =>
    have hworks := (writeTurn_half budget a).works .write
    have hspends := (writeTurn_spends budget a).trans
      (readTurn_spends _ (hworks.sane hsanea).coherent)
    exact hend (hspends.loadDue_lt hbudget hload hdue
      (hcan.imp id (writeFirst_load hbudget hsanea)))

theorem settleFor_rests (n : Nat) (hsane : Sane maxBlock w.transfer) (h : w.loadDue ≤ n) :
    (w.settleFor n).isReady = false := by
  induction n generalizing w with
  | zero =>
    -- nothing to do is nothing to be ready for
    show w.isReady = false
    have hwriter : w.transfer.writer.load = 0 := by
      unfold loadDue load at h
      omega
    have hreading : w.transfer.reading = false := by
      unfold loadDue load at h
      cases hreading : w.transfer.reading with
      | false => rfl
      | true =>
        rw [hreading, Bool.toNat_true] at h
        omega
    rw [isReady_eq]
    unfold Transfer.isDone
    rw [hreading]
    cases hw : w.transfer.writer with
    | closed => rfl
    | idle =>
      rw [hw] at hwriter
      cases hwriter
    | writing =>
      rw [hw] at hwriter
      cases hwriter
  | succ n ih =>
    unfold settleFor
    split
    next hready =>
      have hless := turn_load hsane hready
      exact ih (w.turn_works.sane hsane) (by omega)
    next hready => simpa using hready

/-- **A transfer that has settled is at rest.** -/
theorem settle_rests (hsane : Sane maxBlock w.transfer) : w.settle.isReady = false := by
  unfold settle
  split
  next => exact settleFor_rests _ hsane w.loadDue_le_work
  next hready => simpa using hready

/-- At rest both halves have ended if the link is to end, and none of them
otherwise. -/
theorem isDone_of_rest (hsane : Sane maxBlock w.transfer) (hrest : w.isReady = false) :
    w.transfer.isDone = w.transfer.ended ∧ w.transfer.reading = !w.transfer.ended := by
  rw [isReady_eq] at hrest
  cases hended : w.transfer.ended with
  | false =>
    have hreading : w.transfer.reading = true := by
      by_contra hnot
      have := hsane.reading (by simpa using hnot)
      rw [hended] at this
      cases this
    unfold Transfer.isDone
    rw [hreading]
    exact ⟨rfl, rfl⟩
  | true =>
    -- a half that has not ended could do so
    rcases Bool.and_eq_false_iff.mp hrest with hdone | hcannot
    · have hdone : w.transfer.isDone = true := by simpa using hdone
      have hreading := (Bool.and_eq_true_iff.mp hdone).1
      exact ⟨hdone, by simpa using hreading⟩
    · obtain ⟨hrest, hwrite⟩ := Bool.or_eq_false_iff.mp hcannot
      obtain ⟨-, hread⟩ := Bool.or_eq_false_iff.mp hrest
      have hreading : w.transfer.reading = false := by
        unfold canRead at hread
        rw [hended] at hread
        simpa using hread
      refine ⟨?_, hreading⟩
      unfold canWrite at hwrite
      unfold Transfer.isDone
      rw [hended] at hwrite
      rw [hreading]
      cases hw : w.transfer.writer with
      | closed => rfl
      | idle =>
        rw [hw] at hwrite
        cases hwrite
      | writing =>
        rw [hw] at hwrite
        cases hwrite

/-- The link is held until both halves have ended, and then it is let go. -/
def Holds (w : Working) : Prop :=
  w.link.inbound.readerOpen = !w.transfer.isDone

theorem Reads.readerOpen {w' : Working} (h : Reads w w') :
    w'.link.inbound.readerOpen = w.link.inbound.readerOpen := by
  cases h with
  | stop =>
    rw [stopReading_eq]
    rfl
  | retry => rfl
  | fail =>
    unfold failReading
    rw [drop_eq]
    rfl
  | close =>
    unfold endReading
    dsimp only
    rw [drop_eq]
    rfl
  | take =>
    rw [readOnce_eq]
    rfl

/-- No half lets go of the link. -/
theorem Half.readerOpen {op : Working → Working → Prop} {w' : Working} (h : Half op w w')
    (hop : ∀ {a b : Working}, op a b → b.link.inbound.readerOpen = a.link.inbound.readerOpen) :
    w'.link.inbound.readerOpen = w.link.inbound.readerOpen := by
  induction h with
  | refl => rfl
  | tail _ hlast ih =>
    rw [← ih]
    rcases hlast with hlast | rfl
    · exact hop hlast
    · rfl

theorem turn_holds (h : w.Holds) (hready : w.isReady = true) : w.turn.Holds := by
  rw [isReady_eq] at hready
  have hheld : w.link.inbound.readerOpen = true := h.trans (Bool.and_eq_true_iff.mp hready).1
  have hread : ∀ (n : Nat) (a : Working),
      (a.readTurn n).1.link.inbound.readerOpen = a.link.inbound.readerOpen :=
    fun n a => (readTurn_half n a).readerOpen Reads.readerOpen
  have hwrite : ∀ (n : Nat) (a : Working),
      (a.writeTurn n).1.link.inbound.readerOpen = a.link.inbound.readerOpen :=
    fun n a => (writeTurn_half n a).readerOpen fun hop => by rw [hop.keepsInbound.inbound]
  have hend : ∀ c : Working, c.link.inbound.readerOpen = true →
      (if c.transfer.isDone then c.finish else c).Holds := by
    intro c hopen
    unfold Holds
    split
    next hdone =>
      rw [finish_eq]
      show false = !c.transfer.isDone
      rw [hdone]
      rfl
    next hdone =>
      rw [hopen]
      simpa using hdone
  unfold turn
  dsimp only
  split
  next => exact hend _ (((hwrite _ _).trans (hread _ _)).trans hheld)
  next => exact hend _ (((hread _ _).trans (hwrite _ _)).trans hheld)

theorem settle_holds (h : w.Holds) : w.settle.Holds := by
  have hfor : ∀ (n : Nat) (a : Working), a.Holds → (a.settleFor n).Holds := by
    intro n
    induction n with
    | zero => exact fun a ha => ha
    | succ n ih =>
      intro a ha
      unfold settleFor
      split
      next hready => exact ih _ (turn_holds ha hready)
      next => exact ha
  unfold settle
  split
  next => exact hfor _ _ h
  next => exact h

/-- A turn after which both halves have ended lets go of the writing end, too. -/
theorem turn_whole (hdone : w.turn.transfer.isDone = true) :
    w.turn.link.outbound.writerOpen = false := by
  have hend : ∀ c : Working,
      (if c.transfer.isDone then c.finish else c).transfer.isDone = true →
      (if c.transfer.isDone then c.finish else c).link.outbound.writerOpen = false := by
    intro c hover
    by_cases hc : c.transfer.isDone = true
    · rw [if_pos hc, finish_eq]
      rfl
    · rw [if_neg hc] at hover
      exact absurd hover hc
  unfold turn at hdone ⊢
  exact hend _ hdone

/-- **A transfer lets go of both ends of its link, or of none.** -/
theorem settle_whole (hholds : w.Holds) (h : w.link.Whole) : w.settle.link.Whole := by
  have hdone : ∀ a : Working, a.Holds → a.link.Whole → a.transfer.isDone = true →
      a.link.outbound.writerOpen = false := by
    intro a ha hwhole hover
    apply hwhole
    have hheld : a.link.inbound.readerOpen = !a.transfer.isDone := ha
    rw [hheld, hover]
    rfl
  -- the writing end is let go in the last turn, or has been before
  have hfor : ∀ (n : Nat) (a : Working),
      (a.transfer.isDone = true → a.link.outbound.writerOpen = false) →
      (a.settleFor n).transfer.isDone = true →
      (a.settleFor n).link.outbound.writerOpen = false := by
    intro n
    induction n with
    | zero => exact fun a ha => ha
    | succ n ih =>
      intro a ha
      unfold settleFor
      split
      next => exact ih _ turn_whole
      next => exact ha
  have hsettled : w.settle.transfer.isDone = true → w.settle.link.outbound.writerOpen = false := by
    unfold settle
    split
    next => exact hfor _ _ (hdone w hholds h)
    next => exact hdone w hholds h
  intro hgone
  apply hsettled
  have hheld : w.settle.link.inbound.readerOpen = !w.settle.transfer.isDone := settle_holds hholds
  rw [hheld] at hgone
  simpa using hgone

end Working

end ReceiverLink
