/-
  ReceiverLink.Proofs.Framer.Run
  ────────────────────────────────
  **Runs: many calls on one framer, one after the other.**

  What a call leaves behind is a `Fed`: the framer, and all that was delivered
  and noted so far.  `Fed.andThen` goes on from there, and `runAll` acts on the
  items of a list in order, be they calls, chunks or single bytes.

  What one push does is said stage by stage in §3, so that nothing after it
  opens `push`:

    * `push_fst` — a push takes all that is wanted of what is offered;
    * `feed_eq` — a buffer is fed by one push and feeding what that left over.
-/
import ReceiverLink.Framer.Basic

namespace ReceiverLink

namespace Framer

/-! ## §1. One after the other. -/

namespace Fed

/-- A framer on which nothing has been done yet. -/
def start (f : Framer) : Fed :=
  ⟨f, #[], #[]⟩

/-- Go on with the framer that was left; what was delivered and noted before
stays in front. -/
def andThen (a : Fed) (next : Framer → Fed) : Fed :=
  ⟨(next a.framer).framer, a.telegrams ++ (next a.framer).telegrams,
    a.events ++ (next a.framer).events⟩

@[simp] theorem start_andThen (f : Framer) (next : Framer → Fed) :
    (start f).andThen next = next f := by
  simp only [andThen, start, Array.empty_append]

@[simp] theorem andThen_start (a : Fed) : a.andThen start = a := by
  simp only [andThen, start, Array.append_empty]

theorem andThen_assoc (a : Fed) (next last : Framer → Fed) :
    (a.andThen next).andThen last = a.andThen fun g => (next g).andThen last := by
  simp only [andThen, Array.append_assoc]

/-- Only what is done next on the framer that was left counts. -/
theorem andThen_congr {a : Fed} {next last : Framer → Fed}
    (h : next a.framer = last a.framer) : a.andThen next = a.andThen last := by
  unfold andThen
  rw [h]

end Fed

/-- What one step leaves behind. -/
def Step.fed (s : Step) : Fed :=
  ⟨s.framer, s.telegram.toArray, s.events.toArray⟩

/-- A step of which nothing comes yet. -/
theorem Step.fed_none (f : Framer) : Step.fed ⟨f, none, []⟩ = .start f :=
  rfl

/-- Act on the items of a list in order. -/
def runAll {α : Type} (act : Framer → α → Fed) (f : Framer) : List α → Fed
  | [] => .start f
  | a :: rest => (act f a).andThen fun g => runAll act g rest

/-! ## §2. Calls. -/

/-- One call on a framer. -/
inductive Call where
  | push (bytes : List UInt8) (now : Time)
  | feed (bytes : List UInt8) (now : Time)
  | abort (read : Nat)
  deriving Repr, DecidableEq

/-- Make one call. -/
def call (f : Framer) : Call → Fed
  | .push bytes now => (f.push bytes now).2.fed
  | .feed bytes now => f.feed bytes now
  | .abort read => (f.abort read).fed

/-- Make calls in order. -/
def run (f : Framer) (calls : List Call) : Fed :=
  runAll call f calls

/-- Some calls on a new framer lead to this one. -/
def Reachable (maxBlock : Nat) (f : Framer) : Prop :=
  ∃ calls, ((new maxBlock).run calls).framer = f

/-! ## §3. Pushing, stage by stage. -/

variable {f : Framer}

theorem push_idle (h : f.stage = .idle) (byte : UInt8) (rest : List UInt8) (now : Time) :
    f.push (byte :: rest) now = (1, f.takeFirst byte now) := by
  unfold push
  rw [h]

theorem push_selecting (h : f.stage = .selecting) (byte : UInt8) (rest : List UInt8) (now : Time) :
    f.push (byte :: rest) now = (1, f.takeSelector byte now) := by
  unfold push
  rw [h]

theorem push_confirming (h : f.stage = .confirming) (byte : UInt8) (rest : List UInt8)
    (now : Time) : f.push (byte :: rest) now = (1, f.takeConfirmation byte now) := by
  unfold push
  rw [h]

theorem push_line (h : f.stage = .line) (byte : UInt8) (rest : List UInt8) (now : Time) :
    f.push (byte :: rest) now = (1, f.takeLineByte byte now) := by
  unfold push
  rw [h]

/-- What decides on a block once all that its stage wants has come.  The other
stages take single bytes. -/
def checkOf : Stage → Option (Framer → Step)
  | .header => some checkHeader
  | .body _ => some checkBody
  | _ => none

theorem checkOf_header (h : f.stage = .header) : checkOf f.stage = some checkHeader := by
  rw [h]
  rfl

theorem checkOf_body {length : Nat} (h : f.stage = .body length) :
    checkOf f.stage = some checkBody := by
  rw [h]
  rfl

/-- Bytes are taken in bursts of a header or of a body only. -/
theorem stage_of_checkOf {check : Framer → Step} (h : checkOf f.stage = some check) :
    (f.stage = .header ∧ check = checkHeader)
      ∨ ∃ length, f.stage = .body length ∧ check = checkBody := by
  cases hstage : f.stage with
  | idle | selecting | confirming | line =>
      rw [hstage] at h
      cases h
  | header =>
      rw [checkOf_header hstage] at h
      injection h with h
      exact .inl ⟨rfl, h.symm⟩
  | body length =>
      rw [checkOf_body hstage] at h
      injection h with h
      exact .inr ⟨length, rfl, h.symm⟩

theorem push_of_checkOf {check : Framer → Step} (h : checkOf f.stage = some check)
    {bytes : List UInt8} (hne : bytes ≠ []) (now : Time) :
    f.push bytes now
      = ((bytes.take f.wanted).length, f.takeBlockBytes (bytes.take f.wanted) check) := by
  match bytes with
  | [] => exact absurd rfl hne
  | byte :: rest =>
      unfold push
      rcases stage_of_checkOf h with ⟨hstage, rfl⟩ | ⟨length, hstage, rfl⟩
      · rw [hstage]
        rfl
      · rw [hstage]
        rfl

/-- Of what is offered, the other stages look at the first byte only. -/
theorem push_of_checkOf_none (h : checkOf f.stage = none) (byte : UInt8) (rest : List UInt8)
    (now : Time) : f.push (byte :: rest) now = (1, (f.push [byte] now).2) := by
  cases hstage : f.stage with
  | header | body =>
      rw [hstage] at h
      cases h
  | idle => rw [push_idle hstage, push_idle hstage]
  | selecting => rw [push_selecting hstage, push_selecting hstage]
  | confirming => rw [push_confirming hstage, push_confirming hstage]
  | line => rw [push_line hstage, push_line hstage]

theorem wanted_of_checkOf_none (h : checkOf f.stage = none) : f.wanted = 1 := by
  unfold wanted
  cases hstage : f.stage with
  | header | body =>
      rw [hstage] at h
      cases h
  | idle | selecting | confirming | line => rfl

theorem wanted_header (h : f.stage = .header) :
    f.wanted = Block.headerSize - f.draft.bytes.size := by
  unfold wanted pending
  rw [h]

theorem wanted_body {length : Nat} (h : f.stage = .body length) :
    f.wanted = length - f.draft.bytes.size := by
  unfold wanted pending
  rw [h]

/-- **A push takes all that is wanted of what is offered.** -/
theorem push_fst (f : Framer) (bytes : List UInt8) (now : Time) :
    (f.push bytes now).1 = min f.wanted bytes.length := by
  match bytes with
  | [] => exact (Nat.min_zero _).symm
  | byte :: rest =>
      cases hcheck : checkOf f.stage with
      | none =>
          rw [push_of_checkOf_none hcheck, wanted_of_checkOf_none hcheck]
          exact (Nat.min_eq_left (Nat.succ_pos _)).symm
      | some check => rw [push_of_checkOf hcheck (List.cons_ne_nil _ _), List.length_take]

/-! ## §4. Feeding as pushing. -/

theorem feedFrom_nil (f : Framer) (telegrams : Array Telegram) (events : Array FramingEvent)
    (now : Time) : f.feedFrom telegrams events [] now = ⟨f, telegrams, events⟩ := by
  rw [feedFrom]

/-- One turn of the loop of `feed`. -/
theorem feedFrom_cons (f : Framer) (telegrams : Array Telegram) (events : Array FramingEvent)
    (b : UInt8) (rest : List UInt8) (now : Time) :
    f.feedFrom telegrams events (b :: rest) now
      = if 0 < (f.push (b :: rest) now).1 then
          (f.push (b :: rest) now).2.framer.feedFrom
            (telegrams ++ (f.push (b :: rest) now).2.telegram.toArray)
            (events ++ (f.push (b :: rest) now).2.events.toArray)
            ((b :: rest).drop (f.push (b :: rest) now).1) now
        else ⟨(f.push (b :: rest) now).2.framer,
          telegrams ++ (f.push (b :: rest) now).2.telegram.toArray,
          events ++ (f.push (b :: rest) now).2.events.toArray⟩ := by
  rw [feedFrom]

/-- What was delivered and noted before stays in front. -/
theorem feedFrom_eq (f : Framer) (telegrams : Array Telegram) (events : Array FramingEvent)
    (bytes : List UInt8) (now : Time) :
    f.feedFrom telegrams events bytes now
      = Fed.andThen ⟨f, telegrams, events⟩ fun g => g.feed bytes now := by
  match bytes with
  | [] =>
      unfold feed
      rw [feedFrom_nil]
      simp only [feedFrom_nil, Fed.andThen, Array.append_empty]
  | b :: rest =>
      unfold feed
      simp only [Fed.andThen]
      rw [feedFrom_cons, feedFrom_cons]
      split
      next hused =>
        -- both sides go on with the same push, and the rest is shorter
        have hshort : ((b :: rest).drop (f.push (b :: rest) now).1).length
            < (b :: rest).length := by
          rw [List.length_drop, List.length_cons]
          omega
        rw [feedFrom_eq _ (telegrams ++ _), feedFrom_eq _ (#[] ++ _)]
        simp only [Fed.andThen, Array.empty_append, Array.append_assoc]
      next => simp only [Array.empty_append]
termination_by bytes.length

theorem feed_nil (f : Framer) (now : Time) : f.feed [] now = .start f :=
  feedFrom_nil f #[] #[] now

/-- **Feeding a buffer** is pushing it, and feeding what that left over. -/
theorem feed_eq (f : Framer) {bytes : List UInt8} (now : Time) (h : 0 < (f.push bytes now).1) :
    f.feed bytes now
      = (f.push bytes now).2.fed.andThen fun g => g.feed (bytes.drop (f.push bytes now).1) now := by
  match bytes with
  | [] => exact absurd h (Nat.lt_irrefl 0)
  | b :: rest =>
      rw [feed, feedFrom_cons, if_pos h, feedFrom_eq, Array.empty_append, Array.empty_append]
      rfl

end Framer

end ReceiverLink
