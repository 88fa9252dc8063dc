/-
  ReceiverLink.Proofs.Framer.Delayed
  ────────────────────────────────
  **Framing at a later moment.**

  `later` moves the capture times of a framer, of a step and of a telegram by
  so many milliseconds.  A framer with nothing in progress keeps no time, so it
  stays as it is.  What a framer does at a later moment is what it does now,
  moved by as much: framing adds moments to telegrams and computes nothing from
  them.

  Main statements:
    * `push_later` — a push at a later moment;
    * `abort_later` — an abort afterwards.
-/
import ReceiverLink.Proofs.Framer.Untimed

namespace ReceiverLink

/-! ## §1. What is moved. -/

/-- The same telegram, so much later. -/
def Telegram.later (delay : Nat) (t : Telegram) : Telegram :=
  { t with captured := t.captured + delay }

theorem Telegram.later_zero (t : Telegram) : t.later 0 = t :=
  congrArg (Telegram.mk _ _) (Int.add_zero _)

/-- The same telegram in progress, begun so much later. -/
def Draft.later (delay : Nat) (d : Draft) : Draft :=
  { d with captured := d.captured + delay }

namespace Framer

/-- The same framer, so much later. -/
def later (delay : Nat) (f : Framer) : Framer :=
  if f.stage = .idle then f else { f with draft := f.draft.later delay }

/-- The same step, so much later. -/
def Step.later (delay : Nat) (step : Step) : Step :=
  { step with
    framer := step.framer.later delay
    telegram := step.telegram.map (Telegram.later delay) }

variable {f : Framer} {delay : Nat} {now : Time}

theorem later_of_idle (h : f.stage = .idle) : f.later delay = f :=
  if_pos h

theorem later_of_busy (h : f.stage ≠ .idle) :
    f.later delay = { f with draft := f.draft.later delay } :=
  if_neg h

/-- No delay changes nothing. -/
theorem later_zero (f : Framer) : f.later 0 = f := by
  have hdraft : f.draft.later 0 = f.draft := congrArg (Draft.mk _ _) (Int.add_zero _)
  by_cases hidle : f.stage = .idle
  · exact later_of_idle hidle
  · rw [later_of_busy hidle, hdraft]

@[simp] theorem later_stage (delay : Nat) (f : Framer) : (f.later delay).stage = f.stage := by
  unfold later
  split <;> rfl

@[simp] theorem later_stats (delay : Nat) (f : Framer) : (f.later delay).stats = f.stats := by
  unfold later
  split <;> rfl

@[simp] theorem later_pending (delay : Nat) (f : Framer) :
    (f.later delay).pending = f.pending := by
  unfold later
  split <;> rfl

@[simp] theorem later_wanted (delay : Nat) (f : Framer) : (f.later delay).wanted = f.wanted := by
  unfold wanted
  rw [later_stage, later_pending]

/-! ## §2. The end of a telegram. -/

/-- Nothing is in progress after a telegram was delivered. -/
theorem deliver_later (f : Framer) :
    deliver { f with draft := f.draft.later delay } = f.deliver.later delay := by
  unfold Step.later
  rw [show f.deliver.framer.later delay = f.deliver.framer from later_of_idle rfl]
  rfl

/-- Nor after it was dropped. -/
theorem drop_later (f : Framer) (fault : Fault) :
    drop { f with draft := f.draft.later delay } fault = (f.drop fault).later delay := by
  unfold Step.later
  rw [show (f.drop fault).framer.later delay = (f.drop fault).framer from later_of_idle rfl]
  rfl

/-- A step into a telegram that goes on. -/
theorem later_going (hbusy : f.stage ≠ .idle) (events : List FramingEvent) :
    Step.later delay ⟨f, none, events⟩
      = ⟨{ f with draft := f.draft.later delay }, none, events⟩ := by
  unfold Step.later
  rw [later_of_busy hbusy]
  rfl

/-! ## §3. Single bytes. -/

theorem takeFirst_later (f : Framer) (byte : UInt8) (now : Time) :
    f.takeFirst byte (now + delay) = (f.takeFirst byte now).later delay := by
  unfold takeFirst
  split
  next => exact (later_going (f := f.restart now) Stage.noConfusion []).symm
  next => exact (later_going (f := { f with
    stage := .line, draft := .startingWith byte now }) Stage.noConfusion []).symm

theorem takeSelector_later (f : Framer) (byte : UInt8) (now : Time) :
    takeSelector { f with draft := f.draft.later delay } byte (now + delay)
      = (f.takeSelector byte now).later delay := by
  unfold takeSelector
  split
  next => exact (later_going (f := f.restart now) Stage.noConfusion []).symm
  next =>
    split
    next format _ =>
      refine (later_going (f := { f with
        stage := if format = .binary then .header else .confirming
        draft := { f.draft.push byte with format := format } }) ?_ []).symm
      dsimp only
      split <;> exact Stage.noConfusion
    next => exact f.drop_later _

theorem takeConfirmation_later (f : Framer) (byte : UInt8) (now : Time) :
    takeConfirmation { f with draft := f.draft.later delay } byte (now + delay)
      = (f.takeConfirmation byte now).later delay := by
  unfold takeConfirmation
  split
  next => exact (later_going (f := f.restart now) Stage.noConfusion []).symm
  next =>
    rw [show ({ f with draft := f.draft.later delay } : Framer).draft.format = f.draft.format
      from rfl]
    split
    next format _ =>
      exact (later_going (f := { f with
        stage := .line, draft := { f.draft.push byte with format := format } })
        Stage.noConfusion []).symm
    next => exact f.drop_later _

theorem takeLineByte_later (hline : f.stage = .line) (byte : UInt8) (now : Time) :
    takeLineByte { f with draft := f.draft.later delay } byte (now + delay)
      = (f.takeLineByte byte now).later delay := by
  let grown : Framer := { f with draft := f.draft.push byte }
  have hbusy : grown.stage ≠ .idle := by
    rw [show grown.stage = f.stage from rfl, hline]
    exact Stage.noConfusion
  unfold takeLineByte
  dsimp only
  split
  next =>
    exact (later_going (f := (grown.restart now).countResync) Stage.noConfusion _).symm
  next =>
    split
    next =>
      rw [show (Draft.push (f.draft.later delay) byte).bytes = (f.draft.push byte).bytes from rfl]
      split
      next => exact grown.deliver_later
      next =>
        have hdrop : drop { grown with draft := grown.draft.later delay } _ = _ :=
          grown.drop_later (.lineWithoutReturn (f.draft.push byte).bytes.size)
        exact congrArg (fun step : Step => { step with
          events := .bareLineFeed (f.draft.push byte).bytes.toList :: step.events }) hdrop
    next =>
      rw [show (Draft.push (f.draft.later delay) byte).format = (f.draft.push byte).format from rfl]
      split
      next =>
        exact deliver_later { f with draft := { f.draft.push byte with format := .prompt } }
      next => exact (later_going hbusy []).symm

/-! ## §4. Blocks. -/

theorem checkBody_later (f : Framer) :
    checkBody { f with draft := f.draft.later delay } = f.checkBody.later delay := by
  unfold checkBody
  dsimp only
  rw [show (f.draft.later delay).bytes = f.draft.bytes from rfl]
  split
  next => exact f.deliver_later
  next => exact f.countChecksumFailure.drop_later _

theorem checkHeader_later (f : Framer) :
    checkHeader { f with draft := f.draft.later delay } = f.checkHeader.later delay := by
  unfold checkHeader
  dsimp only
  rw [show (f.draft.later delay).bytes = f.draft.bytes from rfl]
  repeat' split
  · exact f.drop_later _
  · exact f.drop_later _
  · exact f.checkBody_later
  · exact (later_going (f := { f with stage := .body _ }) Stage.noConfusion []).symm

theorem takeBlockBytes_later {check : Framer → Step} (hcheck : checkOf f.stage = some check)
    (bytes : List UInt8) :
    takeBlockBytes { f with draft := f.draft.later delay } bytes check
      = (f.takeBlockBytes bytes check).later delay := by
  have hbusy : (f.grow bytes).stage ≠ .idle := by
    show f.stage ≠ .idle
    intro hidle
    rw [hidle] at hcheck
    cases hcheck
  have hgrown : grow { f with draft := f.draft.later delay } bytes = (f.grow bytes).later delay :=
    (later_of_busy hbusy).symm
  rw [takeBlockBytes_eq, takeBlockBytes_eq, hgrown, later_wanted, later_of_busy hbusy]
  split
  next => exact (later_going hbusy []).symm
  next =>
    rcases stage_of_checkOf hcheck with ⟨-, rfl⟩ | ⟨_, -, rfl⟩
    · exact checkHeader_later _
    · exact checkBody_later _

/-! ## §5. Pushing and aborting. -/

/-- **A push at a later moment** is the same push, moved. -/
theorem push_later (f : Framer) (bytes : List UInt8) (now : Time) (delay : Nat) :
    (f.later delay).push bytes (now + delay)
      = ((f.push bytes now).1, (f.push bytes now).2.later delay) := by
  match bytes with
  | [] => rfl
  | byte :: rest =>
    have hstage := f.later_stage delay
    cases hf : f.stage with
    | idle =>
      rw [push_idle hf, push_idle (hstage.trans hf), later_of_idle hf]
      exact congrArg (Prod.mk 1) (f.takeFirst_later byte now)
    | selecting =>
      rw [push_selecting hf, push_selecting (hstage.trans hf), later_of_busy (by simp [hf])]
      exact congrArg (Prod.mk 1) (f.takeSelector_later byte now)
    | confirming =>
      rw [push_confirming hf, push_confirming (hstage.trans hf), later_of_busy (by simp [hf])]
      exact congrArg (Prod.mk 1) (f.takeConfirmation_later byte now)
    | line =>
      rw [push_line hf, push_line (hstage.trans hf), later_of_busy (by simp [hf])]
      exact congrArg (Prod.mk 1) (takeLineByte_later hf byte now)
    | header | body =>
      obtain ⟨check, hcheck⟩ : ∃ check, checkOf f.stage = some check := by
        rw [hf]
        exact ⟨_, rfl⟩
      rw [push_of_checkOf hcheck (List.cons_ne_nil _ _),
        push_of_checkOf (hstage ▸ hcheck) (List.cons_ne_nil _ _), later_wanted,
        later_of_busy (by simp [hf])]
      exact congrArg (Prod.mk _) (takeBlockBytes_later hcheck _)

/-- **An abort** reads no clock. -/
theorem abort_later (f : Framer) (read delay : Nat) :
    (f.later delay).abort read = (f.abort read).later delay := by
  unfold abort
  rw [later_stage, later_wanted]
  by_cases hidle : f.stage = .idle
  · rw [later_of_idle hidle]
    split
    next => exact (congrArg (Step.mk · none []) (later_of_idle hidle)).symm
    next =>
      rw [Step.later, show (f.drop _).framer.later delay = (f.drop _).framer from
        later_of_idle rfl]
      rfl
  · rw [if_neg fun h => hidle h.1, if_neg fun h => hidle h.1, later_of_busy hidle]
    exact f.drop_later _

end Framer

end ReceiverLink
