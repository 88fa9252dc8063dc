/-
  ReceiverLink.Proofs.Supervisor.Punctual
  ────────────────────────────────
  **A live supervisor keeps to its schedule.**

  The timeline of a run is followed from mark to mark: the last one tells what
  the watchdog waits for, and until when (`Awaits`).  Whatever is done, nothing
  is ever overdue (`Reached`), so that the watchdog acts at the very moment in
  which it has to.

  Main statements:
    * `wake_onTime` — the watchdog acts when and as it has to;
    * `step_onTime`, `run_onTime` — every step keeps to the schedule;
    * `reconnect_schedule` — the schedule of every run.
-/
import ReceiverLink.Proofs.Supervisor.Schedule

namespace ReceiverLink

/-- The watchdog looks at links one time after the other, and pauses between
attempts. -/
structure SupervisorConfig.Spaced (config : SupervisorConfig) : Prop where
  interval : 0 < config.watchdog
  pause : 0 < config.reconnect

namespace Simulation

variable {config : SupervisorConfig} {s s' : Simulation} {last : Option (Nat × Mark)}

/-! ## §1. What the watchdog waits for. -/

/-- The last mark tells what the watchdog waits for. -/
inductive Awaits (config : SupervisorConfig) (s : Simulation) : Option (Nat × Mark) → Prop
  | fresh (lifecycle : s.lifecycle = .disconnected) (watch : s.watch = .off) : Awaits config s none
  | refused {t : Nat} {endpoint : String} {error : TransportError}
      (lifecycle : s.lifecycle = .disconnected) (watch : s.watch = .off) :
      Awaits config s (some (t, .told (.connectFailed endpoint error)))
  | up {t : Nat} {old : Lifecycle} (lifecycle : s.lifecycle = .active)
      (watch : s.watch = .looking (t + config.watchdog)) :
      Awaits config s (some (t, .told (.stateChanged old .active)))
  | looked {t : Nat} (lifecycle : s.lifecycle = .active)
      (watch : s.watch = .looking (t + config.watchdog)) : Awaits config s (some (t, .look false))
  | trying {t number : Nat} {a : Attempt} (lifecycle : s.lifecycle = .reconnecting)
      (watch : s.watch = .attempting number a.outcome (t + a.delay)) :
      Awaits config s (some (t, .attempt a))
  | pausing {t number n : Nat} {error : TransportError} (lifecycle : s.lifecycle = .reconnecting)
      (watch : s.watch = .pausing number (t + config.reconnect)) :
      Awaits config s (some (t, .told (.reconnectFailed n error)))
  | gone {last : Option (Nat × Mark)} (ended : s.lifecycle = .stopped ∨ s.released = true)
      (watch : s.watch = .off) : Awaits config s last

/-- What the watchdog waits for is still to come. -/
def Ahead (s : Simulation) : Prop :=
  ∀ t, s.deadline? = some t → s.clock < t

theorem Ahead.of_deadline {t : Nat} (h : s.deadline? = some t) (later : s.clock < t) :
    s.Ahead := by
  intro t' ht'
  obtain rfl := Option.some.inj (h.symm.trans ht')
  exact later

/-- The next look at a link is an interval away. -/
theorem Ahead.of_looking (interval : 0 < s.config.watchdog)
    (watch : s'.watch = .looking (s.clock + s.config.watchdog)) (now : s'.clock = s.clock) :
    s'.Ahead := by
  refine .of_deadline (deadline?_of_looking watch) ?_
  rw [now]
  exact Nat.lt_add_of_pos_right interval

theorem linkUp_looking (interval : 0 < s.config.watchdog) (link : Nat) :
    (s.linkUp link).watch = .looking (s.clock + s.config.watchdog) :=
  (s.linkUp_watch link).trans (firstLook_of_pos interval)

theorem linkUp_ahead (interval : 0 < s.config.watchdog) (link : Nat) : (s.linkUp link).Ahead :=
  .of_looking interval (linkUp_looking interval link) ((Instant.refl s).linkUp link).clock

/-- Who waits for nothing is late for nothing. -/
theorem Ahead.of_off (watch : s.watch = .off) : s.Ahead := by
  intro t ht
  rw [deadline?_of_off watch] at ht
  cases ht

/-- The supervisor has come to the last mark of its timeline, and to nothing
after it. -/
structure Reached (config : SupervisorConfig) (s : Simulation) (last : Option (Nat × Mark)) :
    Prop where
  awaits : Awaits config s last
  ahead : s.Ahead
  past : ∀ x, last = some x → x.1 ≤ s.clock

/-- It has come to a mark that has just been made. -/
theorem Reached.now {t : Nat} {m : Mark} (awaits : Awaits config s (some (t, m))) (ahead : s.Ahead)
    (now : s.clock = t) : Reached config s (some (t, m)) := by
  refine ⟨awaits, ahead, ?_⟩
  intro x hx
  cases hx
  exact Nat.le_of_eq now.symm

theorem Awaits.congr (h : Awaits config s last) (lifecycle : s'.lifecycle = s.lifecycle)
    (watch : s'.watch = s.watch) (released : s'.released = s.released) :
    Awaits config s' last := by
  cases h with
  | fresh hlifecycle hwatch => exact .fresh (lifecycle.trans hlifecycle) (watch.trans hwatch)
  | refused hlifecycle hwatch => exact .refused (lifecycle.trans hlifecycle) (watch.trans hwatch)
  | up hlifecycle hwatch => exact .up (lifecycle.trans hlifecycle) (watch.trans hwatch)
  | looked hlifecycle hwatch => exact .looked (lifecycle.trans hlifecycle) (watch.trans hwatch)
  | trying hlifecycle hwatch => exact .trying (lifecycle.trans hlifecycle) (watch.trans hwatch)
  | pausing hlifecycle hwatch => exact .pausing (lifecycle.trans hlifecycle) (watch.trans hwatch)
  | gone hended hwatch =>
    refine .gone ?_ (watch.trans hwatch)
    rw [lifecycle, released]
    exact hended

theorem not_ended (going : s.lifecycle ≠ .stopped) (kept : s.released = false) :
    ¬ (s.lifecycle = .stopped ∨ s.released = true) := by
  rintro (hstopped | hreleased)
  · exact going hstopped
  · rw [kept] at hreleased
    cases hreleased

/-- While the supervisor goes on, the watchdog acts when the next mark is due. -/
theorem Awaits.deadline (h : Awaits config s last) (hgoing : s.lifecycle ≠ .stopped)
    (hkept : s.released = false) {x : Nat × Mark} (hlast : last = some x) {delay : Nat}
    (hdelay : x.2.delay? config = some delay) : s.deadline? = some (x.1 + delay) := by
  cases h with
  | fresh => cases hlast
  | gone ended => exact absurd ended (not_ended hgoing hkept)
  | refused =>
    cases hlast
    cases hdelay
  | up _ watch | looked _ watch | trying _ watch | pausing _ watch =>
    cases hlast
    cases hdelay
    unfold deadline?
    rw [watch]

/-! ## §2. What the watchdog does. -/

/-- The attempt of the watchdog with the given number is over. -/
def concluded (s : Simulation) (number : Nat) : Except IoKind Nat → Simulation
  | .ok link => s.reconnected link
  | .error kind => s.reconnectFailed number kind s.config.reconnect

/-- An attempt of the watchdog begins, and may be over at once. -/
theorem reconnect_eq (spaced : s.config.Spaced) (number : Nat) :
    s.reconnect number s.plan
      = if 0 < s.nextAttempt.1.delay then s.attempted number
        else (s.attempted number).concluded number s.nextAttempt.1.outcome := by
  unfold attempted concluded
  cases hplan : s.plan with
  | nil =>
    rw [nextAttempt_of_nil hplan]
    unfold reconnect
    rw [restPause_of_pos spaced.pause]
    rfl
  | cons a plan =>
    rw [nextAttempt_of_cons hplan]
    unfold reconnect
    dsimp only
    by_cases hdelay : 0 < a.delay
    · rw [if_pos hdelay, if_pos hdelay]
      rfl
    · rw [if_neg hdelay, if_neg hdelay]
      cases a.outcome with
      | ok link => exact (reconnected_of_watch ({ s with plan := plan }.note .attempt) _ link).symm
      | error kind => exact if_neg (Nat.ne_of_gt spaced.pause)

/-- What a moment adds to the timeline, if it adds this to the life of the
supervisor. -/
theorem Instant.vitalMarks (h : Instant s s') {vs : List Happening}
    (hvitals : s'.vitals = s.vitals ++ vs) :
    vitalMarks (marks s.plan (s.since s')) = marks s.plan (vs.map fun v => (s.clock, v)) := by
  rw [vitalMarks_marks, h.since_vital hvitals]

/-- The attempt that begins is the next one. -/
theorem marks_nextAttempt (s : Simulation) (t : Nat) (later : List (Nat × Happening)) :
    marks s.plan ((t, .attempt) :: later)
      = (t, .attempt s.nextAttempt.1) :: marks s.nextAttempt.2 later := by
  unfold nextAttempt
  cases s.plan <;> rfl

/-- After the last mark these keep to the schedule, and the supervisor waits for
what follows them. -/
structure OnTime (config : SupervisorConfig) (last : Option (Nat × Mark)) (xs : List (Nat × Mark))
    (s : Simulation) : Prop where
  timely : Timely config last xs
  reached : Reached config s (lastMark last xs)

theorem OnTime.cons {x : Nat × Mark} {xs : List (Nat × Mark)} (follows : Mark.Follows config last x)
    (h : OnTime config (some x) xs s) : OnTime config last (x :: xs) s :=
  ⟨.cons follows h.timely, h.reached⟩

/-- An attempt to reconnect is over when it is due: the link is up, and its
interval begins, or the watchdog pauses. -/
theorem concluded_onTime {t : Nat} {a : Attempt} (number : Nat)
    (hlost : s.lifecycle = .reconnecting) (due : t + a.delay = s.clock)
    (spaced : s.config.Spaced) :
    ∃ vs, (s.concluded number a.outcome).vitals = s.vitals ++ vs
      ∧ ∀ plan, OnTime s.config (some (t, .attempt a)) (marks plan (vs.map fun v => (s.clock, v)))
        (s.concluded number a.outcome) := by
  have hdone : ∀ {m : Mark}, (Mark.attempt a).Leads m →
      Mark.Follows s.config (some (t, .attempt a)) (s.clock, m) := by
    intro m hleads
    rw [← due]
    exact .next hleads rfl
  cases houtcome : a.outcome with
  | ok link =>
    refine ⟨[.reconnected s.endpoint.text, .stateChanged .reconnecting .active],
      vitals_note_linkUp _ link hlost (by decide), ?_⟩
    intro plan
    have hup : Awaits s.config (s.reconnected link)
        (some (s.clock, .told (.stateChanged .reconnecting .active))) :=
      .up (reconnected_lifecycle s link) (linkUp_looking (s := s.note _) spaced.interval link)
    have hnow : (s.reconnected link).clock = s.clock := ((Instant.refl s).reconnected link).clock
    exact .cons (hdone (.reconnected houtcome))
      (.cons (.next .back rfl)
        ⟨.nil, .now hup (linkUp_ahead (s := s.note _) spaced.interval link) hnow⟩)
  | error kind =>
    refine ⟨[.reconnectFailed number (s.refusal kind)], s.vitals_note _, ?_⟩
    intro plan
    have hpausing : Awaits s.config (s.reconnectFailed number kind s.config.reconnect)
        (some (s.clock, .told (.reconnectFailed number (s.refusal kind)))) :=
      .pausing hlost rfl
    have hahead : (s.reconnectFailed number kind s.config.reconnect).Ahead :=
      .of_deadline rfl (Nat.lt_add_of_pos_right spaced.pause)
    exact .cons (hdone (.failed houtcome)) ⟨.nil, .now hpausing hahead rfl⟩

/-- **The watchdog tries to reconnect**: the attempt is over at once, or its end
is waited for. -/
theorem reconnect_onTime (number : Nat) (hlost : s.lifecycle = .reconnecting)
    (spaced : s.config.Spaced) :
    ∃ vs, (s.reconnect number s.plan).vitals = s.vitals ++ .attempt :: vs
      ∧ OnTime s.config (some (s.clock, .attempt s.nextAttempt.1))
        (marks s.nextAttempt.2 (vs.map fun v => (s.clock, v))) (s.reconnect number s.plan) := by
  have hbegun : (s.attempted number).vitals = s.vitals ++ [.attempt] :=
    vitals_note { s with plan := s.nextAttempt.2 } .attempt
  rw [reconnect_eq spaced]
  by_cases hdelay : 0 < s.nextAttempt.1.delay
  · rw [if_pos hdelay]
    have htrying : Awaits s.config (s.attempted number)
        (some (s.clock, .attempt s.nextAttempt.1)) := .trying hlost rfl
    have hahead : (s.attempted number).Ahead :=
      .of_deadline rfl (Nat.lt_add_of_pos_right hdelay)
    exact ⟨[], hbegun, .nil, .now htrying hahead rfl⟩
  · -- the attempt takes no time
    rw [if_neg hdelay]
    have hatOnce : s.clock + s.nextAttempt.1.delay = (s.attempted number).clock := by
      show _ = s.clock
      omega
    obtain ⟨vs, hvitals, hontime⟩ :=
      concluded_onTime (s := s.attempted number) number hlost hatOnce spaced
    refine ⟨vs, ?_, hontime _⟩
    rw [hvitals, hbegun, List.append_assoc]
    rfl

/-- A look that finds the link up leaves the life alone, and the next one comes
after an interval. -/
theorem look_beside (sound : s.linkHasFailed = false) (up : s.linkIsOver = false) :
    Beside { s with watch := .looking (s.clock + s.config.watchdog) } s.look := by
  cases hasked : s.keepsAlive with
  | false =>
    rw [look_of_unasked sound up hasked]
    exact .refl _
  | true =>
    rw [look_of_asked sound up hasked]
    exact (((Beside.refl _).enqueue .keepalive).note rfl).trans (.settle _)

theorem lost_same (s : Simulation) :
    s.lost.config = s.config ∧ s.lost.clock = s.clock ∧ s.lost.nextAttempt = s.nextAttempt := by
  have hplan : s.lost.plan = s.plan := publish_plan _ _
  refine ⟨((Apart.refl _).publish .reconnecting).config, ?_, ?_⟩
  · exact ((Instant.refl _).publish .reconnecting).clock
  · unfold nextAttempt
    rw [hplan]

/-- **The watchdog looks at the link** and finds it up, or tries to reconnect. -/
theorem look_onTime (sound : s.linkHasFailed = false) (hup : s.lifecycle = .active)
    (live : s.replays = false)
    (spaced : s.config.Spaced)
    (follows : Mark.Follows s.config last (s.clock, .look s.linkIsOver)) :
    ∃ vs, s.look.vitals = s.vitals ++ vs
      ∧ OnTime s.config last
        ((s.clock, .look s.linkIsOver) :: marks s.plan (vs.map fun v => (s.clock, v))) s.look := by
  cases hover : s.linkIsOver with
  | false =>
    rw [hover] at follows
    have hbeside := look_beside sound hover
    have hlooked : Awaits s.config s.look (some (s.clock, .look false)) :=
      .looked (hbeside.lifecycle.trans hup) hbeside.watch
    have hnow : s.look.clock = s.clock := (Instant.refl s).look.clock
    have hahead : s.look.Ahead := .of_looking spaced.interval hbeside.watch hnow
    refine ⟨[], ?_, .cons follows ⟨.nil, .now hlooked hahead hnow⟩⟩
    rw [hbeside.vitals, List.append_nil]
    rfl
  | true =>
    rw [hover] at follows
    have hlost : s.lost.vitals = s.vitals ++ [.stateChanged .active .reconnecting] :=
      vitals_note_publish (s := { s with transfer := none }) _ hup (by decide)
    obtain ⟨hconfig, hclock, hnext⟩ := s.lost_same
    have hspaced : s.lost.config.Spaced := by
      rw [hconfig]
      exact spaced
    obtain ⟨vs, hvitals, hontime⟩ := reconnect_onTime 1 s.lost_lifecycle hspaced
    rw [hconfig, hclock, hnext] at hontime
    rw [look_eq_reconnect sound hover live]
    -- the look, the loss and the first attempt are of the same moment
    refine ⟨.stateChanged .active .reconnecting :: .attempt :: vs, ?_, ?_⟩
    · rw [hvitals, hlost, List.append_assoc]
      rfl
    · rw [List.map_cons, marks_cons_of_ne _ _ Happening.noConfusion, List.map_cons,
        marks_nextAttempt]
      exact .cons follows (.cons (.next .lost rfl) (.cons (.next .try rfl) hontime))

theorem vitalMarks_wakeMarks {vs : List Happening} (hvitals : s.wake.vitals = s.vitals ++ vs) :
    vitalMarks s.wakeMarks = s.looks ++ marks s.plan (vs.map fun v => (s.clock, v)) := by
  have hlooks : vitalMarks s.looks = s.looks := by
    unfold looks
    split
    next => rfl
    next => rfl
  unfold wakeMarks
  rw [vitalMarks_append, hlooks, (wake_instant s).vitalMarks hvitals]

/-- The watchdog's moment to look has come. -/
theorem wake_looking (sound : s.linkHasFailed = false) (hwatch : s.watch = .looking s.clock)
    (hup : s.lifecycle = .active) (live : s.replays = false) (spaced : s.config.Spaced)
    (follows : Mark.Follows s.config last (s.clock, .look s.linkIsOver)) :
    OnTime s.config last (vitalMarks s.wakeMarks) s.wake := by
  obtain ⟨vs, hvitals, hontime⟩ := look_onTime sound hup live spaced follows
  rw [← wake_of_looking hwatch] at hvitals hontime
  rw [vitalMarks_wakeMarks hvitals, looks_of_looking hwatch]
  exact hontime

/-- An attempt of the watchdog is over. -/
theorem wake_attempting {t number : Nat} {a : Attempt}
    (hwatch : s.watch = .attempting number a.outcome s.clock) (hlost : s.lifecycle = .reconnecting)
    (due : t + a.delay = s.clock) (spaced : s.config.Spaced) :
    OnTime s.config (some (t, .attempt a)) (vitalMarks s.wakeMarks) s.wake := by
  obtain ⟨vs, hvitals, hontime⟩ := concluded_onTime number hlost due spaced
  have hwake : s.wake = s.concluded number a.outcome := by
    generalize a.outcome = outcome at hwatch
    cases outcome with
    | ok link => exact wake_of_brought hwatch
    | error kind => exact wake_of_refused hwatch (Nat.ne_of_gt spaced.pause)
  rw [← hwake] at hvitals hontime
  rw [vitalMarks_wakeMarks hvitals, looks_of_trying (by rw [hwatch]; rfl)]
  exact hontime s.plan

/-- A pause of the watchdog is over. -/
theorem wake_pausing {number : Nat} (hwatch : s.watch = .pausing number s.clock)
    (hlost : s.lifecycle = .reconnecting) (spaced : s.config.Spaced)
    (follows : ∀ a, Mark.Follows s.config last (s.clock, .attempt a)) :
    OnTime s.config last (vitalMarks s.wakeMarks) s.wake := by
  obtain ⟨vs, hvitals, hontime⟩ := reconnect_onTime (number + 1) hlost spaced
  rw [← wake_of_pausing hwatch] at hvitals hontime
  rw [vitalMarks_wakeMarks hvitals, looks_of_trying (by rw [hwatch]; rfl), List.map_cons,
    marks_nextAttempt]
  exact .cons (follows _) hontime

/-- **The watchdog acts when it has to, and as it has to.** -/
theorem wake_onTime (sound : s.linkHasFailed = false) (live : s.replays = false)
    (spaced : s.config.Spaced) (awaits : Awaits s.config s last)
    (due : s.deadline? = some s.clock) :
    OnTime s.config last (vitalMarks s.wakeMarks) s.wake := by
  unfold deadline? at due
  cases awaits with
  | fresh _ watch | refused _ watch | gone _ watch =>
    rw [watch] at due
    cases due
  | up lifecycle watch =>
    rw [watch] at due
    rw [Option.some.inj due] at watch
    refine wake_looking sound watch lifecycle live spaced ?_
    rw [← Option.some.inj due]
    exact .next .first rfl
  | looked lifecycle watch =>
    rw [watch] at due
    rw [Option.some.inj due] at watch
    refine wake_looking sound watch lifecycle live spaced ?_
    rw [← Option.some.inj due]
    exact .next .again rfl
  | trying lifecycle watch =>
    rw [watch] at due
    have hdue := Option.some.inj due
    rw [hdue] at watch
    exact wake_attempting watch lifecycle hdue spaced
  | pausing lifecycle watch =>
    rw [watch] at due
    rw [Option.some.inj due] at watch
    refine wake_pausing watch lifecycle spaced ?_
    intro a
    rw [← Option.some.inj due]
    exact .next .retry rfl

/-! ## §3. Steps and runs. -/

theorem OnTime.append {xs ys : List (Nat × Mark)} (h : OnTime config last xs s)
    (h' : OnTime config (lastMark last xs) ys s') : OnTime config last (xs ++ ys) s' := by
  refine ⟨Timely.append_iff.mpr ⟨h.timely, h'.timely⟩, ?_⟩
  rw [lastMark_append]
  exact h'.reached

/-- Nothing comes, and nothing is due. -/
theorem Reached.wait (h : Reached config s last) {moment : Nat} (later : s.clock ≤ moment)
    (before : ∀ t, s.deadline? = some t → moment < t) :
    Reached config { s with clock := moment } last := by
  refine ⟨h.awaits.congr rfl rfl rfl, before, ?_⟩
  intro x hx
  exact Nat.le_trans (h.past x hx) later

/-- While time passes the watchdog acts whenever something is due. -/
theorem runUntil_onTime {moment : Nat} (n : Nat) (h : Living false s) (same : s.config = config)
    (spaced : config.Spaced) (hreached : Reached config s last) (later : s.clock ≤ moment)
    (enough : moment ≤ s.clock + n) :
    OnTime config last (vitalMarks (marksUntil moment n s)) (runUntil moment n s) := by
  -- each waking takes the clock on by one at least, since nothing is overdue;
  -- so as many wakings as there are milliseconds are enough
  induction n generalizing s last with
  | zero =>
    obtain rfl : s.clock = moment := Nat.le_antisymm later enough
    exact ⟨.nil, hreached⟩
  | succ n ih =>
    unfold marksUntil runUntil
    cases hdeadline : s.deadline? with
    | none =>
      refine ⟨.nil, hreached.wait later ?_⟩
      intro t ht
      rw [hdeadline] at ht
      cases ht
    | some t =>
      -- the clock has not come to `t` yet, so the watchdog wakes at `t` itself
      have hahead := hreached.ahead t hdeadline
      have hmax : max s.clock t = t := Nat.max_eq_right (Nat.le_of_lt hahead)
      dsimp only
      rw [hmax]
      split
      next hcomes =>
        let due : Simulation := { s with clock := t }
        have hdue : Living false due :=
          Acts.living h (.single (s.clock_act (p := (.advance 0, .done)) t))
        have hacts : Acts (.advance 0, .done) due due.wake := wake_acts hdue.steady.tidy
        obtain ⟨_, hmoves⟩ : ∃ es, Moves due es due.wake :=
          ⟨[], wake_moves hdue.steady.tidy (hdue.steady.tidy.going hdeadline)⟩
        have hconfig : due.wake.config = config := hmoves.config.trans same
        have hnow : due.wake.clock = t := (wake_instant due).clock
        subst same
        have hwake : OnTime s.config last (vitalMarks due.wakeMarks) due.wake :=
          wake_onTime hdue.steady.tidy.sound hdue.mode spaced (hreached.awaits.congr rfl rfl rfl)
            hdeadline
        have hrest := ih (Acts.living hdue hacts) hconfig hwake.reached (by omega) (by omega)
        rw [vitalMarks_append]
        exact hwake.append hrest
      next hcomes =>
        refine ⟨.nil, hreached.wait later ?_⟩
        intro t' ht'
        obtain rfl := Option.some.inj (hdeadline.symm.trans ht')
        omega

/-- A step that leaves the life alone, and takes no time. -/
theorem Reached.beside (h : Reached config s last) (instant : Instant s s') (beside : Beside s s') :
    OnTime config last (vitalMarks (marks s.plan (s.since s'))) s' := by
  have hnone : s'.vitals = s.vitals ++ [] := by rw [beside.vitals, List.append_nil]
  rw [instant.vitalMarks hnone]
  refine ⟨.nil, h.awaits.congr beside.lifecycle beside.watch beside.released, ?_, ?_⟩
  · intro t ht
    rw [deadline?_congr beside.watch] at ht
    rw [instant.clock]
    exact h.ahead t ht
  · rw [instant.clock]
    exact h.past

/-- A caller who may connect is not early. -/
theorem Reached.calls (h : Reached config s last) (fresh : s.lifecycle = .disconnected)
    (kept : s.released = false) (a : Attempt) :
    Mark.Follows config last (s.clock, .attempt a) := by
  cases h.awaits with
  | fresh => exact .call
  | refused => exact .callAgain (h.past _ rfl)
  | gone ended =>
    have hgoing : s.lifecycle ≠ .stopped := by
      rw [fresh]
      exact Lifecycle.noConfusion
    exact absurd ended (not_ended hgoing kept)
  | up hlifecycle | looked hlifecycle | trying hlifecycle | pausing hlifecycle =>
    rw [fresh] at hlifecycle
    cases hlifecycle

/-- What a call to connect adds to the timeline, if what comes of its attempt
adds this to the life of the supervisor. -/
theorem connect_vitalMarks (fresh : s.lifecycle = .disconnected) {vs : List Happening}
    (hvitals : s.connect.1.vitals = s.tried.vitals ++ vs) :
    vitalMarks (marks s.plan (s.since s.connect.1))
      = (s.clock, .attempt s.nextAttempt.1)
        :: marks s.nextAttempt.2 (vs.map fun v => (s.tried.clock, v)) := by
  have hafter := (connect_instant fresh).vitalMarks hvitals
  rw [connect_since fresh, marks_nextAttempt]
  exact congrArg (_ :: ·) hafter

/-- **The caller connects.** -/
theorem connect_onTime (h : Living false s) (hreached : Reached config s last)
    (same : s.config = config) (spaced : config.Spaced) (kept : s.released = false)
    (fresh : s.lifecycle = .disconnected) :
    OnTime config last (vitalMarks (marks s.plan (s.since s.connect.1))) s.connect.1 := by
  subst same
  have hfollows := hreached.calls fresh kept s.nextAttempt.1
  have hclock : s.connect.1.clock = s.tried.clock := (connect_instant fresh).clock
  cases houtcome : s.nextAttempt.1.outcome with
  | error kind =>
    have hconnect := congrArg Prod.fst (connect_of_error fresh houtcome)
    have hvitals : s.connect.1.vitals
        = s.tried.vitals ++ [.connectFailed s.endpoint.text (s.refusal kind)] := by
      rw [hconnect]
      exact vitals_note s.tried _
    have hoff : s.connect.1.watch = .off := by
      rw [hconnect]
      exact (h.phase.of_fresh fresh).1
    have hfresh : s.connect.1.lifecycle = .disconnected := by
      rw [hconnect]
      exact fresh
    rw [connect_vitalMarks fresh hvitals]
    exact .cons hfollows (.cons (.next (.refused houtcome) rfl)
      ⟨.nil, .now (.refused hfresh hoff) (.of_off hoff) hclock⟩)
  | ok link =>
    have hconnect : s.connect.1 = (s.note .attempt).connected link :=
      congrArg Prod.fst (connect_of_ok fresh houtcome)
    have hvitals : s.connect.1.vitals = s.tried.vitals
        ++ [.connected s.endpoint.text s.endpoint.kind, .stateChanged .disconnected .active] := by
      rw [hconnect]
      exact vitals_note_linkUp (s := { s.tried with handedOver := true }) _ link fresh (by decide)
    have hup : Awaits s.config s.connect.1
        (some (s.tried.clock, .told (.stateChanged .disconnected .active))) := by
      rw [hconnect]
      exact .up (connected_lifecycle _ link)
        (linkUp_looking (s := { s.tried.note _ with handedOver := true }) spaced.interval link)
    have hahead : s.connect.1.Ahead := by
      rw [hconnect]
      exact linkUp_ahead (s := { s.tried.note _ with handedOver := true }) spaced.interval link
    rw [connect_vitalMarks fresh hvitals]
    exact .cons hfollows (.cons (.next (.connected houtcome) rfl)
      (.cons (.next .up rfl) ⟨.nil, .now hup hahead hclock⟩))

/-- Who waits for something has not been shut down. -/
theorem Reached.not_isStop (h : Reached config s last) (hgoing : s.lifecycle ≠ .stopped)
    (kept : s.released = false) : ∀ x, last = some x → x.2.isStop = false := by
  intro x hx
  cases h.awaits with
  | gone ended => exact absurd ended (not_ended hgoing kept)
  | fresh => cases hx
  | refused | up | looked | trying | pausing =>
    cases hx
    rfl

/-- **The caller shuts the supervisor down**, before anything that is due. -/
theorem shutdown_onTime (hreached : Reached config s last) (kept : s.released = false) :
    OnTime config last (vitalMarks (marks s.plan (s.since s.shutdown))) s.shutdown := by
  have hinstant := shutdown_instant s
  have hoff := s.shutdown_watch
  have hgone : ∀ {last}, Awaits config s.shutdown last := .gone (.inl s.shutdown_lifecycle) hoff
  -- who has been shut down already publishes nothing
  by_cases hstopped : s.lifecycle = .stopped
  · have hvitals : s.shutdown.vitals = s.vitals ++ [] := by
      rw [vitals_shutdown, if_pos hstopped]
    rw [hinstant.vitalMarks hvitals]
    refine ⟨.nil, hgone, .of_off hoff, ?_⟩
    rw [hinstant.clock]
    exact hreached.past
  · have hvitals : s.shutdown.vitals = s.vitals ++ [.stateChanged s.lifecycle .stopped] := by
      rw [vitals_shutdown, if_neg hstopped]
    have hbefore : ∀ x delay, last = some x → x.2.delay? config = some delay →
        s.clock < x.1 + delay := by
      intro x delay hx hdelay
      exact hreached.ahead _ (hreached.awaits.deadline hstopped kept hx hdelay)
    rw [hinstant.vitalMarks hvitals]
    exact .cons (.stop (hreached.not_isStop hstopped kept) hreached.past hbefore)
      ⟨.nil, .now hgone (.of_off hoff) hinstant.clock⟩

/-- Whoever lets go of the supervisor ends its timeline. -/
theorem release_onTime (hreached : Reached config s last) :
    OnTime config last (vitalMarks (marks s.plan (s.since s.release))) s.release := by
  have hinstant : Instant s s.release := (cancel_instant s).trans (.silent rfl rfl)
  have hvitals : s.release.vitals = s.vitals ++ [] := by
    rw [List.append_nil]
    exact (endLink_beside s).vitals
  rw [hinstant.vitalMarks hvitals]
  refine ⟨.nil, .gone (.inr rfl) rfl, .of_off rfl, ?_⟩
  rw [hinstant.clock]
  exact hreached.past

/-- A call to which there is no answer adds nothing. -/
theorem call_onTime {f : Simulation → Simulation × Except SupervisorError Unit}
    (hreached : Reached config s last)
    (h : s.released = false →
      OnTime config last (vitalMarks (marks s.plan (s.since (f s).1))) (f s).1) :
    OnTime config last (vitalMarks (marks s.plan (s.since (s.call f).1))) (s.call f).1 := by
  unfold call
  split
  next => exact hreached.beside (.refl s) (.refl s)
  next hkept => exact h (eq_false_of_ne_true hkept)

/-- **Every step keeps to the schedule.** -/
theorem step_onTime (h : Living false s) (same : s.config = config) (spaced : config.Spaced)
    (hreached : Reached config s last) (a : Action) :
    OnTime config last (vitalMarks (s.stepMarks a)) (s.step a).1 := by
  cases a with
  | advance ms =>
    exact runUntil_onTime ms h same spaced hreached (Nat.le_add_right _ _) (Nat.le_refl _)
  | connect =>
    refine call_onTime hreached ?_
    intro kept
    by_cases fresh : s.lifecycle = .disconnected
    · exact connect_onTime h hreached same spaced kept fresh
    · rw [connect_of_begun fresh]
      exact hreached.beside (.refl s) (.refl s)
  | shutdown => exact call_onTime hreached (shutdown_onTime hreached)
  | drop => exact call_onTime hreached fun _ => release_onTime hreached
  | _ => exact hreached.beside (step_instant s rfl) (step_beside s rfl)

/-- **So does every run.** -/
theorem run_onTime (h : Waiting false s) (same : s.config = config) (spaced : config.Spaced)
    (hreached : Reached config s last) (actions : List Action) :
    OnTime config last (vitalMarks (s.timeline actions)) (s.run actions) := by
  induction actions generalizing s last with
  | nil => exact ⟨.nil, hreached⟩
  | cons a later ih =>
    have hstep := step_onTime h.living same spaced hreached a
    obtain ⟨_, hmoves, -⟩ := step_moves h.living.steady.tidy a
    have hrest := ih (h.step a) (hmoves.config.trans same) hstep.reached
    unfold timeline
    rw [vitalMarks_append]
    exact hstep.append hrest

theorem start_reached (pace : Pace) (config : SupervisorConfig) (endpoint : Endpoint) :
    Reached config (start pace config endpoint) none :=
  ⟨.fresh rfl rfl, .of_off rfl, fun _ hx => by cases hx⟩

/-- **The schedule of a live supervisor**, whatever is done to it and to its
links.  Its timeline, which is its record with the looks of the watchdog and the
attempts put in, keeps to the schedule from mark to mark, and as long as it is
neither shut down nor let go of, nothing is overdue.  So the watchdog looks at a
link one interval after it came up, and then once per interval, and only at its
last look the link can be over. -/
theorem reconnect_schedule (pace : Pace) (config : SupervisorConfig) (endpoint : Endpoint)
    (live : (start pace config endpoint).replays = false) (interval : 0 < config.watchdog)
    (pause : 0 < config.reconnect) (actions : List Action) :
    let s := (start pace config endpoint).run actions
    let line := (start pace config endpoint).timeline actions
    told line = s.record.toList
      ∧ Timely config none (vitalMarks line)
      ∧ (s.lifecycle ≠ .stopped → s.released = false → ∀ t m delay,
          (vitalMarks line).getLast? = some (t, m) → m.delay? config = some delay →
          s.clock < t + delay)
      ∧ ∀ before looks after up old,
          vitalMarks line = before ++ (up, .told (.stateChanged old .active)) :: (looks ++ after) →
          (∀ x ∈ looks, x.2.isLook = true) →
          looks.map Prod.fst = ticks up config.watchdog looks.length
            ∧ ∀ x ∈ looks.dropLast, x.2 = .look false := by
  have hwaiting : Waiting false (start pace config endpoint) := by
    rw [← live]
    exact start_waiting pace config endpoint
  have hontime :=
    run_onTime hwaiting rfl ⟨interval, pause⟩ (start_reached pace config endpoint) actions
  refine ⟨told_timeline_start pace config endpoint actions, hontime.timely, ?_, ?_⟩
  · intro hgoing hkept t m delay hlast hdelay
    rw [← lastMark_none] at hlast
    exact hontime.reached.ahead _
      (hontime.reached.awaits.deadline hgoing hkept hlast hdelay)
  · -- the looks are a piece of the timeline, which keeps to the schedule piece by piece
    intro before looks after up old hsplit hlooks
    have htimely := hontime.timely
    rw [hsplit] at htimely
    obtain ⟨-, hrest⟩ := Timely.append_iff.mp htimely
    cases hrest with
    | cons _ hlater => exact (Timely.append_iff.mp hlater).1.looks rfl hlooks

/-- A call that fails and one that succeeds; the receiver hangs up between two
looks, and of two attempts to reconnect, which take their time, the second one
succeeds. -/
theorem reconnect_schedule_retry :
    let config : SupervisorConfig := { watchdog := 10, reconnect := 4 }
    let first := start .cooperative config (.serial {})
    let actions : List Action := [.refuse .notFound 1, .accept 64 3, .connect, .connect,
      .refuse .timedOut 7, .accept 64 2, .advance 25, .receiverClose 0, .advance 60]
    let refused : TransportError := first.refusal .notFound
    let failed : TransportError := first.refusal .timedOut
    let before : List (Nat × Mark) := [(0, .attempt ⟨.error .notFound, 1⟩),
      (1, .told (.connectFailed first.endpoint.text refused)), (1, .attempt ⟨.ok 0, 3⟩),
      (4, .told (.connected first.endpoint.text .serial)),
      (4, .told (.stateChanged .disconnected .active)), (14, .look false), (24, .look false),
      (34, .look true), (34, .told (.stateChanged .active .reconnecting)),
      (34, .attempt ⟨.error .timedOut, 7⟩), (41, .told (.reconnectFailed 1 failed)),
      (45, .attempt ⟨.ok 1, 2⟩), (47, .told (.reconnected first.endpoint.text))]
    let looks : List (Nat × Mark) := [(57, .look false), (67, .look false), (77, .look false),
      (87, .look false)]
    first.replays = false ∧ 0 < config.watchdog ∧ 0 < config.reconnect
      ∧ vitalMarks (first.timeline actions)
        = before ++ (47, .told (.stateChanged .reconnecting .active)) :: (looks ++ [])
      ∧ Timely config none (vitalMarks (first.timeline actions))
      ∧ looks.map Prod.fst = ticks 47 10 4
      ∧ (first.run actions).clock < 87 + 10 := by
  intro config first actions refused failed before looks
  have live : first.replays = false := rfl
  have interval : 0 < config.watchdog := by decide
  have pause : 0 < config.reconnect := by decide
  have hmarks : vitalMarks (first.timeline actions)
      = before ++ (47, .told (.stateChanged .reconnecting .active)) :: (looks ++ []) := by
    decide +kernel
  obtain ⟨-, htimely, hahead, hlooks⟩ :=
    reconnect_schedule .cooperative config (.serial {}) live interval pause actions
  have hgoing : (first.run actions).lifecycle ≠ .stopped := by decide +kernel
  have hkept : (first.run actions).released = false := by decide +kernel
  have hlast : (vitalMarks (first.timeline actions)).getLast? = some (87, .look false) := by
    rw [hmarks]
    rfl
  have hall : ∀ x ∈ looks, x.2.isLook = true := by
    intro x hx
    simp only [looks, List.mem_cons, List.not_mem_nil, or_false] at hx
    rcases hx with rfl | rfl | rfl | rfl <;> rfl
  exact ⟨live, interval, pause, hmarks, htimely, (hlooks _ _ _ _ _ hmarks hall).1,
    hahead hgoing hkept _ _ _ hlast rfl⟩

end Simulation

end ReceiverLink
