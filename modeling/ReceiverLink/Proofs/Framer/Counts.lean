/-
  ReceiverLink.Proofs.Framer.Counts
  ────────────────────────────────
  **The counts only ever go up, and decide nothing.**

  A framer looks at the telegram in progress, never at what it has counted.
  So a framer that starts with other counts frames the same telegrams, notes
  the same events, and counts the same on top: `addStats` commutes with each
  operation.

  Main statements:
    * `push_addStats`, `feed_addStats` — for pushing and feeding;
    * `Coherent.abort_framer` — giving up counts a telegram in progress.
-/
import ReceiverLink.Proofs.Framer.Progress

namespace ReceiverLink

namespace FramingStats

/-- Counts taken together. -/
instance : Add FramingStats :=
  ⟨fun a b => ⟨a.delivered + b.delivered, a.resyncs + b.resyncs,
    a.checksumFailures + b.checksumFailures⟩⟩

instance : Zero FramingStats :=
  ⟨{}⟩

/-- One telegram dropped. -/
def oneResync : FramingStats :=
  { resyncs := 1 }

theorem add_assoc (a b c : FramingStats) : a + b + c = a + (b + c) := by
  show FramingStats.mk _ _ _ = FramingStats.mk _ _ _
  congr 1
  · exact Nat.add_assoc _ _ _
  · exact Nat.add_assoc _ _ _
  · exact Nat.add_assoc _ _ _

@[simp] theorem zero_add (a : FramingStats) : 0 + a = a := by
  show FramingStats.mk _ _ _ = a
  congr 1
  · exact Nat.zero_add _
  · exact Nat.zero_add _
  · exact Nat.zero_add _

end FramingStats

namespace Framer

variable {maxBlock : Nat} {f : Framer} {base : FramingStats} {now : Time}

/-- The framer with counts from before. -/
def addStats (base : FramingStats) (f : Framer) : Framer :=
  { f with stats := base + f.stats }

/-- A step, with counts from before it. -/
def Step.addStats (base : FramingStats) (s : Step) : Step :=
  { s with framer := s.framer.addStats base }

/-- Results, with counts from before them. -/
def Fed.addStats (base : FramingStats) (r : Fed) : Fed :=
  { r with framer := r.framer.addStats base }

theorem addStats_coherent (h : Coherent maxBlock f) : (f.addStats base).Coherent maxBlock :=
  ⟨h.bound, h.progress⟩

/-! ## §1. Single bytes. -/

theorem takeFirst_addStats (byte : UInt8) :
    (f.addStats base).takeFirst byte now = (f.takeFirst byte now).addStats base := by
  unfold takeFirst
  split
  next => rfl
  next => rfl

theorem takeSelector_addStats (byte : UInt8) :
    (f.addStats base).takeSelector byte now = (f.takeSelector byte now).addStats base := by
  unfold takeSelector
  split
  next => rfl
  next => split <;> rfl

theorem takeConfirmation_addStats (byte : UInt8) :
    (f.addStats base).takeConfirmation byte now = (f.takeConfirmation byte now).addStats base := by
  have hformat : (f.addStats base).draft.format = f.draft.format := rfl
  unfold takeConfirmation
  rw [hformat]
  split
  next => rfl
  next => split <;> rfl

theorem takeLineByte_addStats (byte : UInt8) :
    (f.addStats base).takeLineByte byte now = (f.takeLineByte byte now).addStats base := by
  have hdraft : (f.addStats base).draft = f.draft := rfl
  unfold takeLineByte
  rw [hdraft]
  dsimp only
  split
  next => rfl
  next =>
    split
    next => split <;> rfl
    next => split <;> rfl

/-! ## §2. Blocks. -/

theorem checkBody_addStats : (f.addStats base).checkBody = f.checkBody.addStats base := by
  have hdraft : (f.addStats base).draft = f.draft := rfl
  unfold checkBody
  rw [hdraft]
  dsimp only
  split
  next => rfl
  next => rfl

theorem checkHeader_addStats : (f.addStats base).checkHeader = f.checkHeader.addStats base := by
  have hdraft : (f.addStats base).draft = f.draft := rfl
  have hmax : (f.addStats base).maxBlock = f.maxBlock := rfl
  unfold checkHeader
  rw [hdraft, hmax]
  dsimp only
  repeat' split
  · rfl
  · rfl
  · exact checkBody_addStats
  · rfl

theorem takeBlockBytes_addStats {check : Framer → Step} (hcheck : checkOf f.stage = some check)
    (bytes : List UInt8) : (f.addStats base).takeBlockBytes bytes check
      = (f.takeBlockBytes bytes check).addStats base := by
  have hgrow : (f.addStats base).grow bytes = (f.grow bytes).addStats base := rfl
  have hwanted : ((f.grow bytes).addStats base).wanted = (f.grow bytes).wanted := rfl
  rw [takeBlockBytes_eq, takeBlockBytes_eq, hgrow, hwanted]
  split
  next => rfl
  next =>
    rcases stage_of_checkOf hcheck with ⟨-, rfl⟩ | ⟨_, -, rfl⟩
    · exact checkHeader_addStats
    · exact checkBody_addStats

/-! ## §3. Pushing, feeding and giving up. -/

/-- **A push counts on top** of what was counted before. -/
theorem push_addStats (f : Framer) (base : FramingStats) (bytes : List UInt8) (now : Time) :
    ((f.addStats base).push bytes now).2 = (f.push bytes now).2.addStats base := by
  match bytes with
  | [] => rfl
  | byte :: rest =>
    have hstage : (f.addStats base).stage = f.stage := rfl
    have hwanted : (f.addStats base).wanted = f.wanted := rfl
    cases hf : f.stage with
    | idle =>
      rw [push_idle hf, push_idle (hstage.trans hf)]
      exact takeFirst_addStats byte
    | selecting =>
      rw [push_selecting hf, push_selecting (hstage.trans hf)]
      exact takeSelector_addStats byte
    | confirming =>
      rw [push_confirming hf, push_confirming (hstage.trans hf)]
      exact takeConfirmation_addStats byte
    | line =>
      rw [push_line hf, push_line (hstage.trans hf)]
      exact takeLineByte_addStats byte
    | header | body =>
      obtain ⟨check, hcheck⟩ : ∃ check, checkOf f.stage = some check := by
        rw [hf]
        exact ⟨_, rfl⟩
      rw [push_of_checkOf hcheck (List.cons_ne_nil _ _),
        push_of_checkOf (hstage ▸ hcheck) (List.cons_ne_nil _ _), hwanted]
      exact takeBlockBytes_addStats hcheck _

/-- **Feeding counts on top** of what was counted before. -/
theorem feed_addStats {f : Framer} (h : Coherent maxBlock f) (base : FramingStats)
    (bytes : List UInt8) (now : Time) :
    (f.addStats base).feed bytes now = (f.feed bytes now).addStats base := by
  induction bytes generalizing f with
  | nil =>
    rw [feed_nil, feed_nil]
    rfl
  | cons byte rest ih =>
    rw [feed_cons (addStats_coherent h), feed_cons h, push_addStats]
    have hrest : ((f.push [byte] now).2.fed.framer.addStats base).feed rest now
        = ((f.push [byte] now).2.fed.framer.feed rest now).addStats base :=
      ih (push_coherent h [byte] now)
    show Fed.andThen ((f.push [byte] now).2.fed.addStats base) (fun g => g.feed rest now) = _
    unfold Fed.andThen
    dsimp only [Fed.addStats]
    rw [hrest]
    rfl

/-- Something is pending exactly when a telegram is in progress. -/
theorem Coherent.pending_pos_iff (h : Coherent maxBlock f) : 0 < f.pending ↔ f.stage ≠ .idle := by
  have hsize : f.pending = f.draft.bytes.toList.length := Array.length_toList.symm
  have hstaged := h.staged
  unfold Staged at hstaged
  rw [hsize, List.length_pos_iff]
  cases hstage : f.stage with
  | idle =>
    rw [hstage] at hstaged
    exact ⟨fun hsome => absurd hstaged.1 hsome, fun hbusy => absurd rfl hbusy⟩
  | selecting | confirming | header | body | line =>
    rw [hstage] at hstaged
    refine ⟨fun _ => Stage.noConfusion, fun _ hnone => ?_⟩
    rw [hnone] at hstaged
    simp at hstaged

/-- **Giving up counts a telegram in progress**, and leaves nothing of it. -/
theorem Coherent.abort_framer (h : Coherent maxBlock f) :
    (f.abort 0).framer = (new maxBlock).addStats
      (if 0 < f.pending then f.stats + .oneResync else f.stats) := by
  have hmax : f.maxBlock = maxBlock := h.bound
  unfold abort
  by_cases hidle : f.stage = .idle
  · -- nothing is in progress
    rw [if_pos ⟨hidle, rfl⟩, if_neg fun hsome => h.pending_pos_iff.mp hsome hidle, ← hmax]
    have hdraft := h.draft_of_idle hidle
    cases f
    cases hidle
    cases hdraft
    rfl
  · rw [if_neg fun hboth => hidle hboth.1, if_pos (h.pending_pos_iff.mpr hidle), ← hmax]
    rfl

end Framer

end ReceiverLink
