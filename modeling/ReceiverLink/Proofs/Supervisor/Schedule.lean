/-
  ReceiverLink.Proofs.Supervisor.Schedule
  ────────────────────────────────
  **The schedule of a live supervisor.**

  A watchdog looks at its link once per interval, counted from the moment in
  which the link came up.  When it finds the link over, it tries to reconnect
  at once, and pauses after each attempt that fails.  `Leads` says what comes
  after what in the life of a supervisor, `delay?` after how long, and `Timely`
  that a timeline keeps to both.

  Main statements:
    * `Timely.append_iff` — a timeline keeps to it piece by piece;
    * `Timely.looks` — the looks at one link come in equal intervals.
-/
import ReceiverLink.Proofs.Supervisor.Timeline

namespace ReceiverLink

/-! ## §1. What comes when. -/

namespace Mark

/-- The watchdog looks at the link. -/
def isLook : Mark → Bool
  | .look _ => true
  | _ => false

/-- The supervisor is shut down. -/
def isStop : Mark → Bool
  | .told (.stateChanged _ .stopped) => true
  | _ => false

/-- How long it is until the next mark, where that is settled. -/
def delay? (config : SupervisorConfig) : Mark → Option Nat
  | .look false => some config.watchdog
  | .look true => some 0
  | .attempt a => some a.delay
  | .told (.connected _ _) => some 0
  | .told (.reconnected _) => some 0
  | .told (.reconnectFailed _ _) => some config.reconnect
  | .told (.stateChanged _ .active) => some config.watchdog
  | .told (.stateChanged _ .reconnecting) => some 0
  | .told _ => none

/-- What comes after what. -/
inductive Leads : Mark → Mark → Prop
  /-- The caller's attempt fails. -/
  | refused {a : Attempt} {kind : IoKind} {endpoint : String} {error : TransportError}
      (outcome : a.outcome = .error kind) :
      Leads (.attempt a) (.told (.connectFailed endpoint error))
  /-- The caller's attempt succeeds. -/
  | connected {a : Attempt} {link : Nat} {endpoint : String} {kind : LinkKind}
      (outcome : a.outcome = .ok link) : Leads (.attempt a) (.told (.connected endpoint kind))
  /-- The first link is up. -/
  | up {endpoint : String} {kind : LinkKind} :
      Leads (.told (.connected endpoint kind)) (.told (.stateChanged .disconnected .active))
  /-- The watchdog looks for the first time at a link. -/
  | first {old : Lifecycle} {lost : Bool} : Leads (.told (.stateChanged old .active)) (.look lost)
  /-- It has found the link up, and looks again. -/
  | again {lost : Bool} : Leads (.look false) (.look lost)
  /-- It has found the link over. -/
  | lost : Leads (.look true) (.told (.stateChanged .active .reconnecting))
  /-- The first attempt to reconnect. -/
  | try {a : Attempt} : Leads (.told (.stateChanged .active .reconnecting)) (.attempt a)
  /-- An attempt to reconnect fails. -/
  | failed {a : Attempt} {kind : IoKind} {number : Nat} {error : TransportError}
      (outcome : a.outcome = .error kind) :
      Leads (.attempt a) (.told (.reconnectFailed number error))
  /-- The next attempt to reconnect. -/
  | retry {number : Nat} {error : TransportError} {a : Attempt} :
      Leads (.told (.reconnectFailed number error)) (.attempt a)
  /-- An attempt to reconnect succeeds. -/
  | reconnected {a : Attempt} {link : Nat} {endpoint : String} (outcome : a.outcome = .ok link) :
      Leads (.attempt a) (.told (.reconnected endpoint))
  /-- The next link is up. -/
  | back {endpoint : String} :
      Leads (.told (.reconnected endpoint)) (.told (.stateChanged .reconnecting .active))

/-- A mark comes after the last one as the schedule says, and when it says. -/
inductive Follows (config : SupervisorConfig) : Option (Nat × Mark) → Nat × Mark → Prop
  /-- The caller tries to connect for the first time. -/
  | call {t : Nat} {a : Attempt} : Follows config none (t, .attempt a)
  /-- The caller tries again, at any time. -/
  | callAgain {t t' : Nat} {endpoint : String} {error : TransportError} {a : Attempt}
      (later : t ≤ t') :
      Follows config (some (t, .told (.connectFailed endpoint error))) (t', .attempt a)
  | next {t delay : Nat} {m m' : Mark} (leads : m.Leads m')
      (settled : m.delay? config = some delay) : Follows config (some (t, m)) (t + delay, m')
  /-- The caller shuts the supervisor down, before what would have come next. -/
  | stop {last : Option (Nat × Mark)} {t : Nat} {old : Lifecycle}
      (running : ∀ x, last = some x → x.2.isStop = false)
      (later : ∀ x, last = some x → x.1 ≤ t)
      (before : ∀ x delay, last = some x → x.2.delay? config = some delay → t < x.1 + delay) :
      Follows config last (t, .told (.stateChanged old .stopped))

end Mark

/-- The last of some marks, which come after another one. -/
def lastMark (last : Option (Nat × Mark)) (xs : List (Nat × Mark)) : Option (Nat × Mark) :=
  xs.foldl (fun _ x => some x) last

/-- Marks keep to the schedule, coming after the last one. -/
inductive Timely (config : SupervisorConfig) : Option (Nat × Mark) → List (Nat × Mark) → Prop
  | nil {last : Option (Nat × Mark)} : Timely config last []
  | cons {last : Option (Nat × Mark)} {x : Nat × Mark} {later : List (Nat × Mark)}
      (follows : Mark.Follows config last x) (timely : Timely config (some x) later) :
      Timely config last (x :: later)

/-! ## §2. Timelines that keep to it. -/

/-- So many moments in equal intervals, the first of them one interval after
the start. -/
def ticks (start interval count : Nat) : List Nat :=
  (List.range count).map fun k => start + (k + 1) * interval

theorem ticks_succ (start interval count : Nat) :
    ticks start interval (count + 1)
      = (start + interval) :: ticks (start + interval) interval count := by
  unfold ticks
  rw [List.range_succ_eq_map, List.map_cons, List.map_map]
  refine congrArg₂ List.cons (by rw [Nat.zero_add, Nat.one_mul]) (List.map_congr_left ?_)
  intro k _
  show start + (k + 1 + 1) * interval = _
  rw [Nat.succ_mul (k + 1)]
  omega

theorem lastMark_append (last : Option (Nat × Mark)) (xs ys : List (Nat × Mark)) :
    lastMark last (xs ++ ys) = lastMark (lastMark last xs) ys :=
  List.foldl_append

theorem lastMark_none (xs : List (Nat × Mark)) : lastMark none xs = xs.getLast? := by
  rcases List.eq_nil_or_concat xs with rfl | ⟨before, x, rfl⟩
  · rfl
  · rw [List.concat_eq_append, lastMark_append, List.getLast?_concat]
    rfl

namespace Timely

variable {config : SupervisorConfig} {last : Option (Nat × Mark)} {xs ys : List (Nat × Mark)}

theorem append_iff :
    Timely config last (xs ++ ys)
      ↔ Timely config last xs ∧ Timely config (lastMark last xs) ys := by
  induction xs generalizing last with
  | nil => exact ⟨fun h => ⟨.nil, h⟩, And.right⟩
  | cons x xs ih =>
    constructor
    · intro h
      cases h with
      | cons follows timely =>
        obtain ⟨hxs, hys⟩ := ih.mp timely
        exact ⟨.cons follows hxs, hys⟩
    · rintro ⟨hxs, hys⟩
      cases hxs with
      | cons follows timely => exact .cons follows (ih.mpr ⟨timely, hys⟩)

/-- **The watchdog looks in equal intervals**, counted from where the link came
up or from its last look; only with the last one can the link be over. -/
theorem looks {t : Nat} {m : Mark} (h : Timely config (some (t, m)) xs)
    (hinterval : m.delay? config = some config.watchdog) (hlooks : ∀ x ∈ xs, x.2.isLook = true) :
    xs.map Prod.fst = ticks t config.watchdog xs.length ∧ ∀ x ∈ xs.dropLast, x.2 = .look false := by
  induction xs generalizing t m with
  | nil => exact ⟨rfl, fun _ hx => absurd hx List.not_mem_nil⟩
  | cons x later ih =>
    cases h with
    | cons follows timely =>
      have hx := hlooks x List.mem_cons_self
      have hrest := fun y hy => hlooks y (List.mem_cons_of_mem _ hy)
      cases follows with
      | callAgain => cases hx
      | stop => cases hx
      | @next _ delay _ m' leads settled =>
        obtain rfl : config.watchdog = delay := Option.some.inj (hinterval.symm.trans settled)
        cases m' with
        | attempt => cases hx
        | told => cases hx
        | look lost =>
          cases lost with
          | true =>
            -- a link that is over is not looked at again
            cases timely with
            | nil =>
              exact ⟨(ticks_succ t _ 0).symm, fun _ hy => absurd hy List.not_mem_nil⟩
            | @cons _ y _ follows' _ =>
              have hy := hrest y List.mem_cons_self
              cases follows' with
              | stop => cases hy
              | next leads' =>
                cases leads'
                cases hy
          | false =>
            obtain ⟨htimes, hup⟩ := ih timely rfl hrest
            constructor
            · rw [List.map_cons, htimes, List.length_cons, ticks_succ]
            · intro y hy
              cases later with
              | nil => cases hy
              | cons z rest =>
                rw [List.dropLast_cons_cons] at hy
                rcases List.mem_cons.mp hy with rfl | hlater
                · rfl
                · exact hup y hlater

end Timely

end ReceiverLink
