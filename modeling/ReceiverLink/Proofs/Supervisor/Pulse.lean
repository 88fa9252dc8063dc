/-
  ReceiverLink.Proofs.Supervisor.Pulse
  ────────────────────────────────
  **The pulse of a supervisor.**

  Of a timeline three things make up its pulse: that a state is published,
  that the watchdog looks at the link, and that a keepalive is queued
  (`Mark.isBeat`).  A link that comes up starts the pulse.  At each tick the
  watchdog looks: if the link is over the pulse stops, otherwise a keepalive
  is queued, on links that are kept alive, and the next tick is due an
  interval later.  `Beat` says this mark by mark, and `Paced` of a whole
  timeline.

  Main statements:
    * `Paced.keepalives` — there is a keepalive for each look that finds the
      link up, and no other;
    * `Paced.looks` — the looks at a link come at its ticks, and none is
      missed;
    * `Paced.state` — the pulse beats in the active state only.
-/
import Mathlib.Data.List.Induction
import ReceiverLink.Proofs.Supervisor.Schedule

namespace ReceiverLink

open Simulation (stateAfter stateAfter_append)

/-! ## §1. Beats. -/

/-- It belongs to the pulse: a state is published, or a keepalive queued. -/
def Happening.isBeat : Happening → Bool
  | .stateChanged _ _ => true
  | .queued .keepalive => true
  | _ => false

/-- The transfer brings about nothing of that kind. -/
theorem Happening.isBeat_of_transfer {h : Happening} (hside : h.side.ofTransfer = true) :
    h.isBeat = false := by
  cases h <;> first | rfl | cases hside

namespace Mark

/-- A keepalive is queued. -/
def probe : Mark :=
  .told (.queued .keepalive)

/-- It belongs to the pulse. -/
def isBeat : Mark → Bool
  | .look _ => true
  | .attempt _ => false
  | .told h => h.isBeat

/-- Looks and keepalives do. -/
theorem isBeat_of_look_or_probe {m : Mark} (h : m.isLook = true ∨ m = .probe) :
    m.isBeat = true := by
  rcases h with hlook | rfl
  · cases m <;> first | rfl | cases hlook
  · rfl

/-- The change of state that is published. -/
def change? : Mark → Option (Lifecycle × Lifecycle)
  | .told h => h.published?
  | _ => none

end Mark

/-- The marks that belong to the pulse. -/
def beats (xs : List (Nat × Mark)) : List (Nat × Mark) :=
  xs.filter (·.2.isBeat)

theorem beats_append (xs ys : List (Nat × Mark)) : beats (xs ++ ys) = beats xs ++ beats ys :=
  List.filter_append ..

/-- Attempts do not belong to it, so the plan does not matter. -/
theorem beats_marks (plan : List Attempt) (es : List (Nat × Happening)) :
    beats (marks plan es) = (es.filter (·.2.isBeat)).map fun x => (x.1, .told x.2) := by
  induction es generalizing plan with
  | nil => rfl
  | cons x later ih =>
    obtain ⟨t, h⟩ := x
    by_cases hattempt : h = .attempt
    · subst hattempt
      exact ih plan.tail
    · rw [marks_cons_of_ne plan t hattempt]
      by_cases hbeat : h.isBeat = true
      · rw [List.filter_cons_of_pos (a := (t, h)) hbeat, List.map_cons, ← ih plan]
        exact List.filter_cons_of_pos (a := (t, Mark.told h)) hbeat
      · rw [List.filter_cons_of_neg (a := (t, h)) hbeat, ← ih plan]
        exact List.filter_cons_of_neg (a := (t, Mark.told h)) hbeat

/-- The times of a mark. -/
def timesOf (m : Mark) (xs : List (Nat × Mark)) : List Nat :=
  (xs.filter fun x => x.2 = m).map Prod.fst

theorem timesOf_beats {m : Mark} (h : m.isBeat = true) (xs : List (Nat × Mark)) :
    timesOf m (beats xs) = timesOf m xs := by
  unfold timesOf beats
  rw [List.filter_filter]
  refine congrArg (List.map Prod.fst) (List.filter_congr ?_)
  intro x _
  by_cases hx : x.2 = m
  · simp [hx, h]
  · simp [hx]

/-- The changes of state that are published. -/
def stateChanges (xs : List (Nat × Mark)) : List (Lifecycle × Lifecycle) :=
  xs.filterMap (·.2.change?)

theorem stateChanges_beats (xs : List (Nat × Mark)) :
    stateChanges (beats xs) = stateChanges xs := by
  have hbeat : ∀ x : Nat × Mark,
      (if x.2.isBeat = true then x.2.change? else none) = x.2.change? := by
    rintro ⟨t, m⟩
    cases m with
    | look | attempt => rfl
    | told h =>
      cases h with
      | queued item => cases item <;> rfl
      | _ => rfl
  unfold stateChanges beats
  rw [List.filterMap_filter]
  simp only [hbeat]

/-! ## §2. The pulse. -/

/-- What the pulse waits for. -/
inductive Pulse where
  /-- Nothing: no link is up. -/
  | off
  /-- The next tick. -/
  | due (t : Nat)
  /-- The keepalive of this moment. -/
  | probing (t : Nat)
  /-- The state to be published in this moment, since the link is over. -/
  | lost (t : Nat)
  deriving Repr, DecidableEq

/-- The next beat, where ticks are so far apart and links are kept alive or
not. -/
inductive Beat (interval : Nat) (alive : Bool) : Pulse → Nat × Mark → Pulse → Prop
  /-- A link comes up: the first tick is an interval away. -/
  | up {t : Nat} {old : Lifecycle} :
      Beat interval alive .off (t, .told (.stateChanged old .active)) (.due (t + interval))
  /-- The link is up at its tick, and is not kept alive. -/
  | found {t : Nat} (kept : alive = false) :
      Beat interval alive (.due t) (t, .look false) (.due (t + interval))
  /-- The link is up at its tick, and is kept alive. -/
  | asked {t : Nat} (kept : alive = true) :
      Beat interval alive (.due t) (t, .look false) (.probing t)
  | probed {t : Nat} : Beat interval alive (.probing t) (t, .probe) (.due (t + interval))
  /-- The link is over at its tick. -/
  | finished {t : Nat} : Beat interval alive (.due t) (t, .look true) (.lost t)
  /-- The link is lost, or the recording has ended. -/
  | down {t : Nat} {new : Lifecycle} (down : new = .reconnecting ∨ new = .drained) :
      Beat interval alive (.lost t) (t, .told (.stateChanged .active new)) .off
  /-- The supervisor is shut down while no link is up. -/
  | rest {t : Nat} {old : Lifecycle} :
      Beat interval alive .off (t, .told (.stateChanged old .stopped)) .off
  /-- It is shut down before the next tick. -/
  | stop {t next : Nat} {old : Lifecycle} (before : t < next) :
      Beat interval alive (.due next) (t, .told (.stateChanged old .stopped)) .off

/-- Beat after beat. -/
inductive Paced (interval : Nat) (alive : Bool) : Pulse → List (Nat × Mark) → Pulse → Prop
  | nil {p : Pulse} : Paced interval alive p [] p
  | cons {p q r : Pulse} {x : Nat × Mark} {later : List (Nat × Mark)}
      (beat : Beat interval alive p x q) (paced : Paced interval alive q later r) :
      Paced interval alive p (x :: later) r

namespace Paced

variable {interval : Nat} {alive : Bool} {p q r : Pulse} {xs ys : List (Nat × Mark)}

theorem append_iff :
    Paced interval alive p (xs ++ ys) r
      ↔ ∃ q, Paced interval alive p xs q ∧ Paced interval alive q ys r := by
  induction xs generalizing p with
  | nil =>
    constructor
    · exact fun h => ⟨p, .nil, h⟩
    · rintro ⟨q, ⟨⟩, h⟩
      exact h
  | cons x xs ih =>
    constructor
    · rintro (_ | ⟨beat, paced⟩)
      obtain ⟨q, hxs, hys⟩ := ih.mp paced
      exact ⟨q, .cons beat hxs, hys⟩
    · rintro ⟨q, (_ | ⟨beat, paced⟩), hys⟩
      exact .cons beat (ih.mpr ⟨q, paced, hys⟩)

/-! ## §3. What a pulse tells. -/

/-- The keepalive that is still to come. -/
def owed : Pulse → List Nat
  | .probing t => [t]
  | _ => []

/-- **There is one keepalive for each look that finds the link up**, if links
are kept alive, and there is no other. -/
theorem keepalives (h : Paced interval alive p xs q) :
    owed p ++ (if alive then timesOf (.look false) xs else [])
      = timesOf .probe xs ++ owed q := by
  induction h with
  | nil => cases alive <;> simp [timesOf]
  | cons beat paced ih =>
    cases beat with
    | found kept | asked kept =>
      subst kept
      simpa [timesOf, owed, Mark.probe] using ih
    | _ => simpa [timesOf, owed, Mark.probe] using ih

/-- **The pulse beats in the active state only.** -/
theorem state (h : Paced interval alive .off xs q) :
    stateAfter (stateChanges xs) = .active ↔ q ≠ .off := by
  induction xs using List.reverseRecOn generalizing q with
  | nil =>
    cases h
    simp [stateAfter, stateChanges]
  | append_singleton xs x ih =>
    obtain ⟨p, hxs, hx⟩ := append_iff.mp h
    have hbefore := ih hxs
    have hone : stateChanges (xs ++ [x]) = stateChanges xs ++ stateChanges [x] :=
      List.filterMap_append
    rw [hone]
    cases hx with
    | cons beat paced =>
      cases paced
      cases beat with
      | up | rest | stop =>
        show stateAfter (stateChanges xs ++ [_]) = _ ↔ _
        simp [stateAfter_append]
      | down down =>
        show stateAfter (stateChanges xs ++ [_]) = _ ↔ _
        rcases down with rfl | rfl <;> simp [stateAfter_append]
      | found | asked | probed | finished =>
        show stateAfter (stateChanges xs ++ []) = _ ↔ _
        rw [List.append_nil, hbefore]
        simp

end Paced

/-- The looks at a link, among the marks that come after it is up: those before
the next change of state. -/
def looksAt (xs : List (Nat × Mark)) : List (Nat × Mark) :=
  (xs.takeWhile fun x => x.2.change?.isNone).filter (·.2.isLook)

/-- The looks at a link that came up at the given time are made at its ticks,
and none is missed before the next change of state. -/
structure OnTicks (interval up : Nat) (xs : List (Nat × Mark)) (q : Pulse) : Prop where
  times : (looksAt xs).map Prod.fst = ticks up interval (looksAt xs).length
  found : ∀ x ∈ (looksAt xs).dropLast, x.2 = .look false
  change : ∀ x, xs.find? (·.2.change?.isSome) = some x →
    x.1 < up + ((looksAt xs).length + 1) * interval
  next : xs.find? (·.2.change?.isSome) = none → q ≠ .off ∧ ∀ t, q = .due t →
    t = up + ((looksAt xs).length + 1) * interval

namespace OnTicks

variable {interval up : Nat} {q : Pulse} {xs : List (Nat × Mark)}

/-- The next look finds the link up. -/
theorem look (h : OnTicks interval (up + interval) xs q) :
    OnTicks interval up ((up + interval, .look false) :: xs) q := by
  have hlooks : looksAt ((up + interval, Mark.look false) :: xs)
      = (up + interval, .look false) :: looksAt xs := rfl
  have hfind : ((up + interval, Mark.look false) :: xs).find? (·.2.change?.isSome)
      = xs.find? (·.2.change?.isSome) := rfl
  have hnext : up + interval + ((looksAt xs).length + 1) * interval
      = up + ((looksAt xs).length + 1 + 1) * interval := by
    rw [Nat.succ_mul ((looksAt xs).length + 1)]
    omega
  refine ⟨?_, ?_, ?_, ?_⟩
  · rw [hlooks, List.map_cons, List.length_cons, ticks_succ, h.times]
  · rw [hlooks]
    intro x hx
    cases hlater : looksAt xs with
    | nil =>
      rw [hlater] at hx
      cases hx
    | cons y later =>
      rw [hlater, List.dropLast_cons_cons] at hx
      rcases List.mem_cons.mp hx with rfl | hx
      · rfl
      · exact h.found x (hlater ▸ hx)
  · rw [hfind, hlooks, List.length_cons, ← hnext]
    exact h.change
  · rw [hfind, hlooks, List.length_cons, ← hnext]
    exact h.next

/-- A keepalive is no look. -/
theorem probe {t : Nat} (h : OnTicks interval up xs q) :
    OnTicks interval up ((t, .probe) :: xs) q :=
  ⟨h.times, h.found, h.change, h.next⟩

/-- The next look finds the link over: nothing but the change of state follows. -/
theorem finished {alive : Bool} (pos : 0 < interval)
    (h : Paced interval alive (.lost (up + interval)) xs q) :
    OnTicks interval up ((up + interval, .look true) :: xs) q := by
  have hlooks : looksAt ((up + interval, Mark.look true) :: xs)
      = [(up + interval, .look true)] := by
    cases h with
    | nil => rfl
    | cons beat _ =>
      cases beat
      rfl
  refine ⟨?_, ?_, ?_, ?_⟩
  · rw [hlooks]
    exact (ticks_succ up interval 0).symm
  · rw [hlooks]
    exact fun x hx => absurd hx List.not_mem_nil
  · rw [hlooks]
    intro x hx
    cases h with
    | nil => cases hx
    | cons beat _ =>
      cases beat
      cases hx
      show up + interval < up + 2 * interval
      omega
  · intro hnone
    cases h with
    | nil => exact ⟨nofun, nofun⟩
    | cons beat _ =>
      cases beat
      cases hnone

/-- The supervisor is shut down before the next look. -/
theorem stop {t : Nat} {old : Lifecycle} (before : t < up + interval) :
    OnTicks interval up ((t, .told (.stateChanged old .stopped)) :: xs) q := by
  have hlooks : looksAt ((t, Mark.told (.stateChanged old .stopped)) :: xs) = [] := rfl
  have hfind : ((t, Mark.told (.stateChanged old .stopped)) :: xs).find? (·.2.change?.isSome)
      = some (t, .told (.stateChanged old .stopped)) := rfl
  refine ⟨?_, ?_, ?_, ?_⟩
  · rw [hlooks]
    rfl
  · rw [hlooks]
    exact fun x hx => absurd hx List.not_mem_nil
  · rw [hlooks, hfind]
    rintro x ⟨⟩
    show t < up + 1 * interval
    omega
  · rw [hfind]
    exact fun hnone => absurd hnone (Option.some_ne_none _)

end OnTicks

/-- **The watchdog looks at the ticks of a link**, and misses none. -/
theorem Paced.looks {interval up : Nat} {alive : Bool} {p q : Pulse} {xs : List (Nat × Mark)}
    (pos : 0 < interval) (h : Paced interval alive p xs q)
    (hup : p = .due (up + interval) ∨ p = .probing up) : OnTicks interval up xs q := by
  -- each look moves the time at which the link seems to have come up on by an interval
  induction h generalizing up with
  | nil =>
    have hlooks : looksAt [] = [] := rfl
    refine ⟨rfl, fun x hx => absurd hx List.not_mem_nil, fun x hx => (nomatch hx), fun _ => ?_⟩
    rw [hlooks]
    rcases hup with rfl | rfl
    · refine ⟨nofun, ?_⟩
      rintro t ⟨⟩
      exact congrArg (up + ·) (Nat.one_mul interval).symm
    · exact ⟨nofun, nofun⟩
  | cons beat paced ih =>
    cases beat with
    | up => rcases hup with h | h <;> cases h
    | rest => rcases hup with h | h <;> cases h
    | down => rcases hup with h | h <;> cases h
    | probed =>
      rcases hup with h | h
      · cases h
      · cases h
        exact (ih (.inl rfl)).probe
    | found =>
      rcases hup with h | h
      · cases h
        exact (ih (.inl rfl)).look
      · cases h
    | asked =>
      rcases hup with h | h
      · cases h
        exact (ih (.inr rfl)).look
      · cases h
    | stop before =>
      rcases hup with h | h
      · cases h
        exact .stop before
      · cases h
    | finished =>
      rcases hup with h | h
      · cases h
        exact .finished pos paced
      · cases h

namespace Paced

variable {interval : Nat} {alive : Bool} {q : Pulse} {before after : List (Nat × Mark)}

/-- So it is from when a link comes up. -/
theorem looks_of_up {up : Nat} {old : Lifecycle} (pos : 0 < interval)
    (h : Paced interval alive .off
      (before ++ (up, .told (.stateChanged old .active)) :: after) q) :
    OnTicks interval up after q := by
  obtain ⟨p, -, hafter⟩ := append_iff.mp h
  cases hafter with
  | cons beat hlater =>
    cases beat with
    | up => exact hlater.looks pos (.inl rfl)
    | down hdown => rcases hdown with h | h <;> cases h

/-- Looks and keepalives are beats of the active state. -/
theorem active_of_beat {x : Nat × Mark}
    (h : Paced interval alive .off (beats (before ++ x :: after)) q)
    (hbeat : x.2.isLook = true ∨ x.2 = .probe) : stateAfter (stateChanges before) = .active := by
  have hx : beats (x :: after) = x :: beats after :=
    List.filter_cons_of_pos (Mark.isBeat_of_look_or_probe hbeat)
  rw [beats_append, hx] at h
  obtain ⟨p, hbefore, hafter⟩ := append_iff.mp h
  rw [← stateChanges_beats, hbefore.state]
  rintro rfl
  -- while no link is up, what comes is a change of state
  cases hafter with
  | cons beat _ => cases beat <;> simp [Mark.isLook, Mark.probe] at hbeat

end Paced

end ReceiverLink
