/-
  ReceiverLink.Proofs.Supervisor.Keepalive
  ────────────────────────────────
  **Keepalives keep to the pulse.**

  A run is followed from beat to beat: the pulse tells what the watchdog waits
  for (`Watches`).  This holds of recordings as of receivers, and of any pause
  between attempts, none included.  Keepalives share the queue with the
  commands, but the writing half finishes with one item before it takes the
  next, so on no link they fall into the bytes of a command.

  Main statements:
    * `wake_paced` — the watchdog keeps the pulse;
    * `step_paced`, `run_paced` — so does every step, and every run;
    * `keepalive_discipline` — when keepalives are queued, and what is written.
-/
import ReceiverLink.Proofs.Supervisor.Account
import ReceiverLink.Proofs.Supervisor.Pulse
import ReceiverLink.Proofs.Supervisor.Punctual

namespace ReceiverLink

namespace Simulation

variable {s s' : Simulation} {interval : Nat} {alive : Bool} {p : Pulse} {replay : Bool}

/-! ## §1. What is recorded of the pulse. -/

/-- What is recorded of the pulse, in order. -/
def pulses (s : Simulation) : List Happening :=
  s.happenings.filter Happening.isBeat

theorem pulses_note (s : Simulation) (x : Happening) :
    (s.note x).pulses = s.pulses ++ [x].filter Happening.isBeat := by
  unfold pulses
  rw [happenings_note, List.filter_append]

/-- What does not belong to the pulse leaves it alone. -/
theorem pulses_note_aside {x : Happening} (haside : x.isBeat = false) :
    (s.note x).pulses = s.pulses := by
  rw [pulses_note, List.filter_cons_of_neg (by rw [haside]; exact Bool.false_ne_true)]
  exact List.append_nil _

theorem pulses_publish {new : Lifecycle} (hnew : s.lifecycle ≠ new) :
    (s.publish new).pulses = s.pulses ++ [.stateChanged s.lifecycle new] := by
  unfold publish
  rw [if_neg hnew]
  exact pulses_note { s with lifecycle := new } _

/-- A change of state is published after something else. -/
theorem pulses_note_publish {x : Happening} {old new : Lifecycle} (haside : x.isBeat = false)
    (hold : s.lifecycle = old) (hnew : old ≠ new) :
    ((s.note x).publish new).pulses = s.pulses ++ [.stateChanged old new] := by
  subst hold
  have hpublish : ((s.note x).publish new).pulses
      = (s.note x).pulses ++ [.stateChanged s.lifecycle new] := pulses_publish hnew
  rw [hpublish, pulses_note_aside haside]

/-- No transfer queues anything. -/
@[simp] theorem pulses_settle (s : Simulation) : s.settle.pulses = s.pulses := by
  refine settle_rule (P := fun a => a.pulses = s.pulses) rfl ?_
  intro t link w _ _ hworks
  have hnone : w.happenings.filter Happening.isBeat = [] := by
    rw [List.filter_eq_nil_iff]
    intro x hx
    rw [Happening.isBeat_of_transfer (recorded_of_works hworks x hx).2]
    exact Bool.false_ne_true
  unfold pulses
  rw [happenings_absorb, List.filter_append, hnone, List.append_nil]

theorem pulses_onLink (s : Simulation) (number : Nat) (f : Link → Link) :
    (s.onLink number f).pulses = s.pulses :=
  pulses_settle _

theorem pulses_receiverWrite (number n count : Nat) (bytes : List UInt8) (s : Simulation) :
    (receiverWrite number n count bytes s).1.pulses = s.pulses := by
  induction n generalizing s count bytes with
  | zero => rfl
  | succ n ih =>
    unfold receiverWrite
    split
    next => rfl
    next =>
      repeat' split
      all_goals first | rfl | exact (ih _ _ _).trans (pulses_onLink s number _)

theorem pulses_receiverRead (number n : Nat) (before : List UInt8) (s : Simulation) :
    (receiverRead number n before s).1.pulses = s.pulses := by
  induction n generalizing s before with
  | zero => rfl
  | succ n ih =>
    unfold receiverRead
    split
    next => rfl
    next =>
      repeat' split
      all_goals first | rfl | exact (ih _ _).trans (pulses_onLink s number _)

theorem pulses_receiverDoes (s : Simulation) (number : Nat) (f : Link → Link) :
    (s.receiverDoes number f).1.pulses = s.pulses := by
  unfold receiverDoes
  repeat' split
  · exact pulses_onLink s number f
  · rfl
  · rfl

/-- The caller queues commands only. -/
theorem pulses_send (s : Simulation) (command : List UInt8) :
    (s.send command).1.pulses = s.pulses := by
  unfold send
  repeat' split
  · exact pulses_note_aside rfl
  · rfl
  · rfl
  · rfl
  · rw [pulses_settle]
    exact pulses_note_aside (s := { s with queue := s.queue ++ [.command command] }) rfl

theorem pulses_setPort (s : Simulation) (text : String) :
    (s.setPort text).1.pulses = s.pulses := by
  unfold setPort
  repeat' split
  · rfl
  · exact pulses_note_aside (s := { s with endpoint := _ }) rfl
  · rfl

theorem pulses_call {f : Simulation → Simulation × Except SupervisorError Unit}
    (h : (f s).1.pulses = s.pulses) : (s.call f).1.pulses = s.pulses := by
  unfold call
  split
  next => rfl
  next => exact h

/-- Steps that leave the life of a supervisor alone add nothing to its pulse. -/
theorem pulses_aside (s : Simulation) {a : Action} (h : a.isAside = true) :
    (s.step a).1.pulses = s.pulses := by
  cases a with
  | connect | shutdown | drop | advance => cases h
  | accept | refuse | dropConsumer => rfl
  | send command => exact pulses_call (pulses_send s command)
  | setPort text => exact pulses_call (pulses_setPort s text)
  | fail number operation kind => exact pulses_onLink s number _
  | receiverWrite number bytes => exact pulses_receiverWrite _ _ _ _ s
  | receiverRead number => exact pulses_receiverRead _ _ _ s
  | receiverShutdown number => exact pulses_receiverDoes s number _
  | receiverClose number => exact pulses_receiverDoes s number _

/-- What a moment adds to the pulse. -/
theorem Instant.beats_since (h : Instant s s') {bs : List Happening}
    (hpulses : s'.pulses = s.pulses ++ bs) (plan : List Attempt) :
    beats (marks plan (s.since s')) = bs.map fun b => (s.clock, .told b) := by
  rw [beats_marks, h.since_filter hpulses, List.map_map]
  rfl

/-- An instant in which nothing is recorded of the pulse. -/
theorem Instant.beats_quiet (h : Instant s s') (hquiet : s'.pulses = s.pulses)
    (plan : List Attempt) : beats (marks plan (s.since s')) = [] :=
  h.beats_since (hquiet.trans (List.append_nil _).symm) plan

/-! ## §2. The watchdog. -/

/-- The pulse tells what the watchdog waits for. -/
inductive Watches (s : Simulation) : Pulse → Prop
  /-- A link is up, and its next tick is waited for. -/
  | watching {t : Nat} (up : s.lifecycle = .active) (watch : s.watch = .looking t) :
      Watches s (.due t)
  /-- No link is up. -/
  | idle (down : s.lifecycle ≠ .active) : Watches s .off
  /-- The caller has let go of the supervisor while a link was up. -/
  | gone {t : Nat} (released : s.released = true) (watch : s.watch = .off) : Watches s (.due t)

theorem Watches.congr (h : Watches s p) (lifecycle : s'.lifecycle = s.lifecycle)
    (watch : s'.watch = s.watch) (released : s'.released = s.released) : Watches s' p := by
  cases h with
  | watching hup hwatch => exact .watching (lifecycle.trans hup) (watch.trans hwatch)
  | idle hdown => exact .idle (lifecycle ▸ hdown)
  | gone hreleased hwatch => exact .gone (released.trans hreleased) (watch.trans hwatch)

/-- These beats come next, and what they lead to is waited for. -/
structure Keeps (interval : Nat) (alive : Bool) (p : Pulse) (xs : List (Nat × Mark))
    (s : Simulation) : Prop where
  paced : ∃ q, Paced interval alive p xs q ∧ Watches s q
  ahead : s.Ahead

theorem Keeps.nil (watches : Watches s p) (ahead : s.Ahead) : Keeps interval alive p [] s :=
  ⟨⟨p, .nil, watches⟩, ahead⟩

theorem Keeps.cons {q : Pulse} {x : Nat × Mark} {xs : List (Nat × Mark)}
    (beat : Beat interval alive p x q) (h : Keeps interval alive q xs s) :
    Keeps interval alive p (x :: xs) s := by
  obtain ⟨r, hpaced, hwatches⟩ := h.paced
  exact ⟨⟨r, .cons beat hpaced, hwatches⟩, h.ahead⟩

/-- What a moment adds to the pulse comes next, and what it leads to is waited
for. -/
def Moment (interval : Nat) (alive : Bool) (p : Pulse) (s s' : Simulation) : Prop :=
  ∃ bs, s'.pulses = s.pulses ++ bs
    ∧ Keeps interval alive p (bs.map fun b => (s.clock, .told b)) s'

namespace Moment

/-- Nothing is added. -/
theorem quiet (pulses : s'.pulses = s.pulses) (watches : Watches s' p) (ahead : s'.Ahead) :
    Moment interval alive p s s' :=
  ⟨[], by rw [pulses, List.append_nil], .nil watches ahead⟩

/-- Nothing was added before. -/
theorem of_same {a : Simulation} (h : Moment interval alive p a s') (pulses : a.pulses = s.pulses)
    (clock : a.clock = s.clock) : Moment interval alive p s s' := by
  obtain ⟨bs, hpulses, hkeeps⟩ := h
  rw [pulses] at hpulses
  rw [clock] at hkeeps
  exact ⟨bs, hpulses, hkeeps⟩

/-- A state was published before. -/
theorem publish {a : Simulation} {q : Pulse} {change : Happening}
    (beat : Beat interval alive p (s.clock, .told change) q) (h : Moment interval alive q a s')
    (pulses : a.pulses = s.pulses ++ [change]) (clock : a.clock = s.clock) :
    Moment interval alive p s s' := by
  obtain ⟨bs, hpulses, hkeeps⟩ := h
  rw [clock] at hkeeps
  refine ⟨change :: bs, ?_, .cons beat hkeeps⟩
  rw [hpulses, pulses, List.append_assoc]
  rfl

end Moment

/-- A link comes up, and its first tick is an interval away. -/
theorem linkUp_moment (ticks : 0 < s.config.watchdog) (hdown : s.lifecycle ≠ .active)
    (link : Nat) : Moment s.config.watchdog alive .off s (s.linkUp link) := by
  refine ⟨[.stateChanged s.lifecycle .active], ?_, .cons .up (.nil ?_ (linkUp_ahead ticks link))⟩
  · exact (pulses_settle (s.opening link)).trans (pulses_publish hdown)
  · exact .watching (linkUp_lifecycle s link) (linkUp_looking ticks link)

/-- An attempt to reconnect succeeds. -/
theorem reconnected_moment (ticks : 0 < s.config.watchdog) (hdown : s.lifecycle ≠ .active)
    (link : Nat) : Moment s.config.watchdog alive .off s (s.reconnected link) :=
  (linkUp_moment (s := s.note (.reconnected s.endpoint.text)) ticks hdown link).of_same
    (pulses_note_aside rfl) rfl

/-- **The watchdog tries to reconnect**: a link comes up at once, or what it
waits for lies ahead. -/
theorem reconnect_moment (ticks : 0 < s.config.watchdog) (hlost : s.lifecycle = .reconnecting)
    (number : Nat) (plan : List Attempt) :
    Moment s.config.watchdog alive .off s (s.reconnect number plan) := by
  have hdown : ∀ {a : Simulation}, a.lifecycle = .reconnecting → a.lifecycle ≠ .active := by
    intro a ha
    rw [ha]
    exact Lifecycle.noConfusion
  -- an attempt that fails at once, and no pause, is followed by the next one
  induction plan generalizing s number with
  | nil =>
    refine .quiet ?_ (.idle (hdown hlost)) (.of_deadline rfl ?_)
    · exact (pulses_note_aside (s := note { s with plan := [] } .attempt) rfl).trans
        (pulses_note_aside (s := { s with plan := [] }) rfl)
    · show s.clock < s.clock + max 1 s.config.reconnect
      omega
  | cons a plan ih =>
    let begun : Simulation := { s with plan := plan }.note .attempt
    have hbegun : begun.pulses = s.pulses := pulses_note_aside (s := { s with plan := plan }) rfl
    unfold reconnect
    dsimp only
    split
    next hdelay =>
      exact .quiet hbegun (.idle (hdown hlost))
        (.of_deadline rfl (Nat.lt_add_of_pos_right hdelay))
    next =>
      split
      next link _ =>
        exact (reconnected_moment (s := begun) ticks (hdown hlost) link).of_same hbegun rfl
      next kind _ =>
        let failed : Simulation := begun.reconnectFailed number kind s.config.reconnect
        have hfailed : failed.pulses = s.pulses := (pulses_note_aside (s := begun) rfl).trans hbegun
        split
        next => exact (ih (s := failed) ticks hlost (number + 1)).of_same hfailed rfl
        next hpause =>
          exact .quiet hfailed (.idle (hdown hlost))
            (.of_deadline rfl (Nat.lt_add_of_pos_right (Nat.pos_of_ne_zero hpause)))

/-- A link that is up is kept alive, if it is to be. -/
theorem look_found (sound : s.linkHasFailed = false) (ticks : 0 < s.config.watchdog)
    (hup : s.lifecycle = .active) (up : s.linkIsOver = false) :
    ∃ bs, s.look.pulses = s.pulses ++ bs
      ∧ Keeps s.config.watchdog s.keepsAlive (.due s.clock)
        ((s.clock, .look false) :: bs.map fun b => (s.clock, .told b)) s.look := by
  have hbeside := look_beside sound up
  have hwatches : Watches s.look (.due (s.clock + s.config.watchdog)) :=
    .watching (hbeside.lifecycle.trans hup) hbeside.watch
  have hahead : s.look.Ahead :=
    .of_looking ticks hbeside.watch (Instant.refl s).look.clock
  let looking : Simulation := { s with watch := .looking (s.clock + s.config.watchdog) }
  cases halive : s.keepsAlive with
  | false =>
    refine ⟨[], ?_, .cons (.found rfl) (.nil hwatches hahead)⟩
    rw [look_of_unasked sound up halive, List.append_nil]
    rfl
  | true =>
    -- the keepalive is queued in the moment of the look
    refine ⟨[.queued .keepalive], ?_, .cons (.asked rfl) (.cons .probed (.nil hwatches hahead))⟩
    rw [look_of_asked sound up halive, pulses_settle, pulses_note_aside rfl]
    exact pulses_note { looking with queue := s.queue ++ [.keepalive] } (.queued .keepalive)

/-- A link that is over is lost, and the watchdog tries to reconnect; or the
recording has ended. -/
theorem look_over (sound : s.linkHasFailed = false) (ticks : 0 < s.config.watchdog)
    (hup : s.lifecycle = .active) (hover : s.linkIsOver = true) :
    Moment s.config.watchdog alive (.lost s.clock) s s.look := by
  cases hmode : s.replays with
  | true =>
    have hpulses : s.drained.pulses = s.pulses ++ [.stateChanged .active .drained] :=
      pulses_note_publish (s := { s with transfer := none }) rfl hup (by decide)
    rw [look_eq_drained sound hover hmode]
    refine ⟨_, hpulses, .cons (.down (.inr rfl)) (.nil (.idle ?_) (.of_off rfl))⟩
    rw [drained_lifecycle]
    exact Lifecycle.noConfusion
  | false =>
    obtain ⟨hconfig, hclock, -⟩ := s.lost_same
    have hpulses : s.lost.pulses = s.pulses ++ [.stateChanged .active .reconnecting] :=
      pulses_note_publish (s := { s with transfer := none }) rfl hup (by decide)
    -- the first attempt begins in the moment of the loss
    rw [look_eq_reconnect sound hover hmode]
    have hretry : Moment s.lost.config.watchdog alive .off s.lost
        (s.lost.reconnect 1 s.lost.plan) :=
      reconnect_moment (by rw [hconfig]; exact ticks) s.lost_lifecycle 1 s.lost.plan
    rw [hconfig] at hretry
    exact .publish (.down (.inl rfl)) hretry hpulses hclock

/-- What is seen of the pulse when the watchdog acts. -/
theorem beats_wakeMarks {bs : List Happening} (hpulses : s.wake.pulses = s.pulses ++ bs) :
    beats s.wakeMarks = s.looks ++ bs.map fun b => (s.clock, .told b) := by
  have hlooks : beats s.looks = s.looks := by
    unfold looks
    split
    next => rfl
    next => rfl
  unfold wakeMarks
  rw [beats_append, hlooks, (wake_instant s).beats_since hpulses]

/-- The watchdog waits for something else than a look. -/
theorem wake_idle {s' : Simulation} (hwake : s.wake = s') (hlooks : s.looks = [])
    (h : Moment interval alive p s s') : Keeps interval alive p (beats s.wakeMarks) s.wake := by
  subst hwake
  obtain ⟨bs, hpulses, hkeeps⟩ := h
  rw [beats_wakeMarks hpulses, hlooks]
  exact hkeeps

/-- **The watchdog keeps the pulse** when it acts in time. -/
theorem wake_paced (h : Living replay s) (ticks : 0 < s.config.watchdog) (watches : Watches s p)
    (due : s.deadline? = some s.clock) :
    Keeps s.config.watchdog s.keepsAlive p (beats s.wakeMarks) s.wake := by
  cases watches with
  | @watching t hup hwatch =>
    -- it looks, and the look is part of the pulse
    obtain rfl : t = s.clock := Option.some.inj ((deadline?_of_looking hwatch).symm.trans due)
    have hwake : s.wake = s.look := wake_of_looking hwatch
    have hlooks := looks_of_looking hwatch
    cases hover : s.linkIsOver with
    | false =>
      obtain ⟨bs, hpulses, hkeeps⟩ := look_found h.steady.tidy.sound ticks hup hover
      rw [← hwake] at hpulses hkeeps
      rw [beats_wakeMarks hpulses, hlooks, hover]
      exact hkeeps
    | true =>
      obtain ⟨bs, hpulses, hkeeps⟩ :
          Moment s.config.watchdog s.keepsAlive (.lost s.clock) s s.look :=
        look_over h.steady.tidy.sound ticks hup hover
      rw [← hwake] at hpulses hkeeps
      rw [beats_wakeMarks hpulses, hlooks, hover]
      exact .cons .finished hkeeps
  | gone _ hoff =>
    rw [deadline?_of_off hoff] at due
    cases due
  | idle hdown =>
    -- it tries to reconnect, and there is no link that could be looked at
    cases hwatch : s.watch with
    | off =>
      rw [deadline?_of_off hwatch] at due
      cases due
    | failed =>
      rw [deadline?_of_failed hwatch] at due
      cases due
    | looking t => exact absurd (h.phase.of_looking hwatch).1 hdown
    | attempting number outcome t =>
      have htrying : s.watch.isTrying = true := by rw [hwatch]; rfl
      have hlost := (h.phase.of_trying htrying).1
      have hlooks := looks_of_trying htrying
      cases outcome with
      | ok link =>
        exact wake_idle (wake_of_brought hwatch) hlooks (reconnected_moment ticks hdown link)
      | error kind =>
        let failed : Simulation := s.reconnectFailed number kind s.config.reconnect
        have hfailed : failed.pulses = s.pulses := pulses_note_aside rfl
        by_cases hpause : s.config.reconnect = 0
        · have hmoment : Moment s.config.watchdog s.keepsAlive .off failed
              (failed.reconnect (number + 1) failed.plan) :=
            reconnect_moment (s := failed) ticks hlost (number + 1) failed.plan
          exact wake_idle (wake_of_refused_unspaced hwatch hpause) hlooks
            (hmoment.of_same hfailed rfl)
        · have hahead : failed.Ahead :=
            .of_deadline rfl (Nat.lt_add_of_pos_right (Nat.pos_of_ne_zero hpause))
          exact wake_idle (wake_of_refused hwatch hpause) hlooks
            (.quiet hfailed (.idle hdown) hahead)
    | pausing number t =>
      have htrying : s.watch.isTrying = true := by rw [hwatch]; rfl
      have hlost := (h.phase.of_trying htrying).1
      exact wake_idle (wake_of_pausing hwatch) (looks_of_trying htrying)
        (reconnect_moment ticks hlost (number + 1) s.plan)

/-! ## §3. Steps and runs. -/

theorem Keeps.append {xs ys : List (Nat × Mark)} (h : Keeps interval alive p xs s)
    (h' : ∀ q, Watches s q → Keeps interval alive q ys s') :
    Keeps interval alive p (xs ++ ys) s' := by
  obtain ⟨q, hpaced, hwatches⟩ := h.paced
  obtain ⟨⟨r, hlater, hlast⟩, hahead⟩ := h' q hwatches
  exact ⟨⟨r, Paced.append_iff.mpr ⟨q, hpaced, hlater⟩, hlast⟩, hahead⟩

/-- The supervisor is as it was set up: how far its ticks are apart, and whether
it keeps its links alive. -/
structure Configured (interval : Nat) (alive : Bool) (s : Simulation) : Prop where
  watchdog : s.config.watchdog = interval
  ticks : 0 < interval
  keepsAlive : s.keepsAlive = alive

/-- It stays so. -/
theorem Configured.acts {q : Action × Answer} (h : Configured interval alive s) (tidy : s.Tidy)
    (acts : Acts q s s') : Configured interval alive s' := by
  have hconfig : s'.config = s.config := by
    clear h
    induction acts with
    | refl => rfl
    | tail acts act ih =>
      obtain ⟨_, hmoves⟩ := act.moves (Acts.tidy tidy acts)
      exact hmoves.config.trans ih
  refine ⟨by rw [hconfig]; exact h.watchdog, h.ticks, ?_⟩
  rw [← h.keepsAlive]
  unfold Simulation.keepsAlive
  rw [hconfig, Acts.kind_eq acts]

/-- Time passes, and nothing is due. -/
theorem Ahead.wait {moment : Nat} (before : ∀ t, s.deadline? = some t → moment < t) :
    Ahead { s with clock := moment } :=
  before

/-- While time passes the watchdog keeps the pulse. -/
theorem runUntil_paced {moment : Nat} (n : Nat) (h : Living replay s)
    (set : Configured interval alive s) (watches : Watches s p) (ahead : s.Ahead)
    (later : s.clock ≤ moment) (enough : moment ≤ s.clock + n) :
    Keeps interval alive p (beats (marksUntil moment n s)) (runUntil moment n s) := by
  -- as each waking takes the clock on, the wakings are enough
  induction n generalizing s p with
  | zero =>
    obtain rfl : s.clock = moment := Nat.le_antisymm later enough
    exact .nil watches ahead
  | succ n ih =>
    unfold marksUntil runUntil
    cases hdeadline : s.deadline? with
    | none =>
      refine .nil (watches.congr rfl rfl rfl) (.wait ?_)
      intro t ht
      rw [hdeadline] at ht
      cases ht
    | some t =>
      -- the clock has not come to `t` yet, so the watchdog wakes at `t` itself
      have hahead := ahead t hdeadline
      have hmax : max s.clock t = t := Nat.max_eq_right (Nat.le_of_lt hahead)
      dsimp only
      rw [hmax]
      split
      next hcomes =>
        let due : Simulation := { s with clock := t }
        have hclock : Acts (.advance 0, .done) s due := .single (s.clock_act t)
        have hdue : Living replay due := Acts.living h hclock
        have hset : Configured interval alive due := set.acts h.steady.tidy hclock
        have hacts : Acts (.advance 0, .done) due due.wake := wake_acts hdue.steady.tidy
        have hnow : due.wake.clock = t := (wake_instant due).clock
        have hwatches : Watches due p := watches.congr rfl rfl rfl
        have hwake := wake_paced hdue (hset.watchdog ▸ hset.ticks) hwatches hdeadline
        rw [hset.watchdog, hset.keepsAlive] at hwake
        rw [beats_append]
        have hrest : ∀ q, Watches due.wake q → Keeps interval alive q
            (beats (marksUntil moment n due.wake)) (runUntil moment n due.wake) := fun q hq =>
          ih (Acts.living hdue hacts) (hset.acts hdue.steady.tidy hacts) hq hwake.ahead
            (by omega) (by omega)
        exact hwake.append hrest
      next hcomes =>
        refine .nil (watches.congr rfl rfl rfl) (.wait ?_)
        intro t' ht'
        obtain rfl := Option.some.inj (hdeadline.symm.trans ht')
        omega

/-- A step that takes no time, leaves the life alone and adds nothing to the
pulse. -/
theorem Keeps.beside (watches : Watches s p) (ahead : s.Ahead) (instant : Instant s s')
    (beside : Beside s s') (pulses : s'.pulses = s.pulses) :
    Keeps interval alive p (beats (marks s.plan (s.since s'))) s' := by
  rw [instant.beats_quiet pulses]
  refine .nil (watches.congr beside.lifecycle beside.watch beside.released) ?_
  intro t ht
  rw [deadline?_congr beside.watch] at ht
  rw [instant.clock]
  exact ahead t ht

/-- **The caller connects**, and the pulse starts if that succeeds. -/
theorem connect_paced (h : Living replay s) (set : Configured interval alive s)
    (watches : Watches s p) (kept : s.released = false) (fresh : s.lifecycle = .disconnected) :
    Keeps interval alive p (beats (marks s.plan (s.since s.connect.1))) s.connect.1 := by
  have hoff : s.watch = .off := (h.phase.of_fresh fresh).1
  have hdown : s.lifecycle ≠ .active := by
    rw [fresh]
    exact Lifecycle.noConfusion
  -- the attempt itself, which may take time, adds nothing
  have htried : beats (marks s.plan (s.since s.connect.1))
      = beats (marks s.tried.plan (s.tried.since s.connect.1)) := by
    rw [beats_marks, beats_marks, connect_since fresh]
    rfl
  rw [htried]
  cases houtcome : s.nextAttempt.1.outcome with
  | error kind =>
    have hconnect := congrArg Prod.fst (connect_of_error fresh houtcome)
    have hquiet : s.connect.1.pulses = s.tried.pulses := by
      rw [hconnect]
      exact pulses_note_aside rfl
    rw [(connect_instant fresh).beats_quiet hquiet, hconnect]
    exact .nil (watches.congr rfl rfl rfl) (.of_off hoff)
  | ok link =>
    have hconnect : s.connect.1 = (s.note .attempt).connected link :=
      congrArg Prod.fst (connect_of_ok fresh houtcome)
    let brought : Simulation := { s.tried.note (.connected s.endpoint.text s.endpoint.kind) with
      handedOver := true }
    obtain ⟨bs, hpulses, hkeeps⟩ : Moment interval alive .off s.tried s.connect.1 := by
      rw [hconnect, ← set.watchdog]
      exact (linkUp_moment (s := brought) (set.watchdog ▸ set.ticks) hdown link).of_same
        (pulses_note_aside (s := s.tried) rfl) rfl
    rw [(connect_instant fresh).beats_since hpulses]
    cases watches with
    | idle => exact hkeeps
    | watching hup => exact absurd hup hdown
    | gone hreleased =>
      rw [kept] at hreleased
      cases hreleased

theorem pulses_stop (s : Simulation) :
    s.stop.pulses
      = s.pulses
        ++ if s.lifecycle = .stopped then [] else [.stateChanged s.lifecycle .stopped] := by
  unfold stop
  rw [pulses_note_aside rfl]
  split
  next hstopped =>
    unfold publish
    rw [if_pos hstopped, List.append_nil]
  next hrunning => exact pulses_publish hrunning

theorem pulses_shutdown (s : Simulation) :
    s.shutdown.pulses
      = s.pulses
        ++ if s.lifecycle = .stopped then [] else [.stateChanged s.lifecycle .stopped] := by
  have hend : ∀ a : Simulation, a.endLink.pulses = a.pulses := fun a => pulses_settle _
  unfold shutdown
  split
  next =>
    have hgone : (s.dismiss.note .watchdogFailed).pulses = s.pulses :=
      pulses_note_aside (s := s.dismiss) rfl
    rw [hend, pulses_stop, hgone]
    rfl
  next =>
    have hcancelled : s.cancel.pulses = s.pulses := hend s
    rw [pulses_stop, hcancelled, s.cancel_lifecycle]

/-- **The caller shuts the supervisor down** before the next tick. -/
theorem shutdown_paced (watches : Watches s p) (ahead : s.Ahead) (kept : s.released = false) :
    Keeps interval alive p (beats (marks s.plan (s.since s.shutdown))) s.shutdown := by
  have hinstant := shutdown_instant s
  have hoff := s.shutdown_watch
  have hdown : s.shutdown.lifecycle ≠ .active := by
    rw [s.shutdown_lifecycle]
    exact Lifecycle.noConfusion
  by_cases hstopped : s.lifecycle = .stopped
  · -- who has been shut down already publishes nothing
    have hquiet : s.shutdown.pulses = s.pulses := by
      rw [pulses_shutdown, if_pos hstopped, List.append_nil]
    rw [hinstant.beats_quiet hquiet]
    cases watches with
    | idle => exact .nil (.idle hdown) (.of_off hoff)
    | watching hup =>
      rw [hstopped] at hup
      cases hup
    | gone hreleased =>
      rw [kept] at hreleased
      cases hreleased
  · have hpulses : s.shutdown.pulses = s.pulses ++ [.stateChanged s.lifecycle .stopped] := by
      rw [pulses_shutdown, if_neg hstopped]
    have hstop : Beat interval alive p
        (s.clock, .told (.stateChanged s.lifecycle .stopped)) .off := by
      cases watches with
      | idle => exact .rest
      | watching _ hwatch => exact .stop (ahead _ (deadline?_of_looking hwatch))
      | gone hreleased =>
        rw [kept] at hreleased
        cases hreleased
    rw [hinstant.beats_since hpulses]
    exact .cons hstop (.nil (.idle hdown) (.of_off hoff))

/-- Whoever lets go of the supervisor ends its pulse. -/
theorem release_paced (watches : Watches s p) :
    Keeps interval alive p (beats (marks s.plan (s.since s.release))) s.release := by
  have hinstant : Instant s s.release := (cancel_instant s).trans (.silent rfl rfl)
  have hquiet : s.release.pulses = s.pulses := pulses_settle _
  rw [hinstant.beats_quiet hquiet]
  refine .nil ?_ (.of_off rfl)
  cases watches with
  | watching => exact .gone rfl rfl
  | gone => exact .gone rfl rfl
  | idle hdown =>
    refine .idle ?_
    show s.cancel.lifecycle ≠ _
    rw [s.cancel_lifecycle]
    exact hdown

/-- A call to which there is no answer adds nothing. -/
theorem call_paced {f : Simulation → Simulation × Except SupervisorError Unit}
    (watches : Watches s p) (ahead : s.Ahead)
    (h : s.released = false →
      Keeps interval alive p (beats (marks s.plan (s.since (f s).1))) (f s).1) :
    Keeps interval alive p (beats (marks s.plan (s.since (s.call f).1))) (s.call f).1 := by
  unfold call
  split
  next => exact .beside watches ahead (.refl s) (.refl s) rfl
  next hkept => exact h (eq_false_of_ne_true hkept)

/-- **Every step keeps the pulse.** -/
theorem step_paced (h : Living replay s) (set : Configured interval alive s) (watches : Watches s p)
    (ahead : s.Ahead) (a : Action) :
    Keeps interval alive p (beats (s.stepMarks a)) (s.step a).1 := by
  cases a with
  | advance ms =>
    exact runUntil_paced ms h set watches ahead (Nat.le_add_right _ _) (Nat.le_refl _)
  | connect =>
    refine call_paced watches ahead ?_
    intro kept
    by_cases fresh : s.lifecycle = .disconnected
    · exact connect_paced h set watches kept fresh
    · rw [connect_of_begun fresh]
      exact .beside watches ahead (.refl s) (.refl s) rfl
  | shutdown => exact call_paced watches ahead (shutdown_paced watches ahead)
  | drop => exact call_paced watches ahead fun _ => release_paced watches
  | _ => exact .beside watches ahead (step_instant s rfl) (step_beside s rfl) (pulses_aside s rfl)

/-- **So does every run.** -/
theorem run_paced (h : Waiting replay s) (set : Configured interval alive s) (watches : Watches s p)
    (ahead : s.Ahead) (actions : List Action) :
    Keeps interval alive p (beats (s.timeline actions)) (s.run actions) := by
  induction actions generalizing s p with
  | nil => exact .nil watches ahead
  | cons a later ih =>
    have hstep := step_paced h.living set watches ahead a
    have hset := set.acts h.living.steady.tidy (step_acts h.living.steady.tidy h.quiet a)
    unfold timeline
    rw [beats_append]
    exact hstep.append fun q hq => ih (h.step a) hset hq hstep.ahead

theorem start_paced (pace : Pace) (config : SupervisorConfig) (endpoint : Endpoint)
    (interval : 0 < config.watchdog) (actions : List Action) :
    Keeps config.watchdog (start pace config endpoint).keepsAlive .off
      (beats ((start pace config endpoint).timeline actions))
      ((start pace config endpoint).run actions) :=
  run_paced (start_waiting pace config endpoint) ⟨rfl, interval, rfl⟩
    (.idle Lifecycle.noConfusion) (.of_off rfl) actions

/-! ## §4. The discipline. -/

theorem start_keepsAlive_iff (pace : Pace) (config : SupervisorConfig) (endpoint : Endpoint) :
    (start pace config endpoint).keepsAlive = true
      ↔ config.keepalive = true ∧ endpoint.kind = .tcp := by
  show (config.keepalive && endpoint.kind.needsKeepalive) = true ↔ _
  rw [Bool.and_eq_true]
  cases endpoint.kind <;> simp [LinkKind.needsKeepalive]

/-- After a beat that leaves the supervisor active, the watchdog waits for the
next tick, unless the caller has let go of the supervisor. -/
theorem Watches.due_of_kept (h : Watches s p) (on : p ≠ .off) (kept : s.released = false) :
    ∃ t, p = .due t ∧ s.watch = .looking t := by
  cases h with
  | @watching t _ hwatch => exact ⟨t, rfl, hwatch⟩
  | idle => exact absurd rfl on
  | gone hreleased =>
    rw [kept] at hreleased
    cases hreleased

/-- **What a receiver gets**, or is on its way there, are parts of the items
queued, one after the other. -/
theorem run_delivered (pace : Pace) (config : SupervisorConfig) (endpoint : Endpoint)
    (actions : List Action) :
    ∃ ds : List Delivery,
      (∀ n, ((start pace config endpoint).answers actions).flatMap (gotBy n)
          ++ ((start pace config endpoint).run actions).onTheWay n
        = (ds.filter (·.link = n)).flatMap Delivery.bytes)
      ∧ (∀ d ∈ ds, d.bytes <+: d.item.payload)
      ∧ ds.map Delivery.item
        <+: queuedItems ((start pace config endpoint).run actions).happenings := by
  obtain ⟨es, ds, lost, htold, hbooks, hconserved⟩ := run_outgoing pace config endpoint actions
  refine ⟨ds, ?_, fun d hd => (hbooks.deliveries.sound d hd).part, _, hbooks.entries.symm⟩
  intro n
  rw [← htold.got, ← hbooks.deliveries.sentOn_eq]
  exact hconserved n

/-- **The discipline of keepalives**, in every run: of a receiver or of a
recording, whatever is done to the supervisor and to its links.  The timeline is
the record with the looks of the watchdog put in, each with what it finds.

A keepalive is queued at each look that finds the link up, if the link is a
network link and is to be kept alive, and at no other time.  From when a link
comes up the looks are made at its ticks, with none missed before the next
change of state; and only at the last of them the link can be over.  Outside
the active state there are neither looks nor keepalives.

And what a receiver gets on a link, or is on its way there, are parts of items
of the queue, one item after the other: no keepalive falls into a command. -/
theorem keepalive_discipline (pace : Pace) (config : SupervisorConfig) (endpoint : Endpoint)
    (interval : 0 < config.watchdog) (actions : List Action) :
    let s := (start pace config endpoint).run actions
    let line := (start pace config endpoint).timeline actions
    told line = s.record.toList
      ∧ timesOf (.told (.queued .keepalive)) line
        = (if config.keepalive = true ∧ endpoint.kind = .tcp then timesOf (.look false) line
          else [])
      ∧ (∀ before up old after,
          beats line = before ++ (up, .told (.stateChanged old .active)) :: after →
          let looks := looksAt after
          let next := up + (looks.length + 1) * config.watchdog
          looks.map Prod.fst = ticks up config.watchdog looks.length
            ∧ (∀ x ∈ looks.dropLast, x.2 = .look false)
            ∧ (∀ x, after.find? (·.2.change?.isSome) = some x → x.1 < next)
            ∧ (after.find? (·.2.change?.isSome) = none → s.released = false → s.clock < next))
      ∧ (∀ before x after, line = before ++ x :: after →
          x.2.isLook = true ∨ x.2 = .told (.queued .keepalive) →
          stateAfter (stateChanges before) = .active)
      ∧ ∃ ds : List Delivery,
          (∀ n, ((start pace config endpoint).answers actions).flatMap (gotBy n) ++ s.onTheWay n
            = (ds.filter (·.link = n)).flatMap Delivery.bytes)
          ∧ (∀ d ∈ ds, d.bytes <+: d.item.payload)
          ∧ ds.map Delivery.item <+: queuedItems s.happenings := by
  intro s line
  obtain ⟨⟨q, hpaced, hwatches⟩, hahead⟩ := start_paced pace config endpoint interval actions
  refine ⟨told_timeline_start pace config endpoint actions, ?_, ?_, ?_, ?_⟩
  · -- no keepalive is still to come
    have howed : Paced.owed q = [] := by
      cases hwatches <;> rfl
    have hall := hpaced.keepalives
    rw [howed, List.append_nil, timesOf_beats rfl, timesOf_beats rfl] at hall
    simp only [← start_keepsAlive_iff pace]
    exact hall.symm
  · -- after the link has come up the pulse is that of its ticks
    intro before up old after hsplit looks next
    rw [hsplit] at hpaced
    have hticks := hpaced.looks_of_up interval
    refine ⟨hticks.times, hticks.found, hticks.change, fun hnone kept => ?_⟩
    obtain ⟨hon, hnext⟩ := hticks.next hnone
    obtain ⟨t, rfl, hwatch⟩ := hwatches.due_of_kept hon kept
    rw [hnext t rfl] at hwatch
    exact hahead _ (deadline?_of_looking hwatch)
  · intro before x after hsplit hbeat
    rw [show (start pace config endpoint).timeline actions = _ from hsplit] at hpaced
    exact hpaced.active_of_beat hbeat
  · exact run_delivered pace config endpoint actions

/-- The receiver takes in two bytes at a time, and a tick comes in the middle of a
command. -/
def interrupting : List Action :=
  [.accept 2 0, .connect, .send [0x61, 0x62, 0x63], .advance 10, .receiverRead 0]

/-- The keepalive of that tick waits for the end of the command. -/
theorem keepalive_discipline_interrupting :
    let config : SupervisorConfig := { watchdog := 10 }
    let s := (start .cooperative config (.tcp {})).run interrupting
    let line := (start .cooperative config (.tcp {})).timeline interrupting
    0 < config.watchdog
      ∧ timesOf (.look false) line = [10] ∧ timesOf (.told (.queued .keepalive)) line = [10]
      ∧ queuedItems s.happenings = [.command [0x61, 0x62, 0x63], .keepalive]
      ∧ ∃ ds : List Delivery,
        (ds.filter (·.link = 0)).flatMap Delivery.bytes = [0x61, 0x62, 0x63, 0x20]
          ∧ (∀ d ∈ ds, d.bytes <+: d.item.payload)
          ∧ ds.map Delivery.item <+: queuedItems s.happenings := by
  intro config s line
  have interval : 0 < config.watchdog := by decide
  obtain ⟨-, htimes, -, -, ds, hsent, hparts, hitems⟩ :=
    keepalive_discipline .cooperative config (.tcp {}) interval interrupting
  have hlooks : timesOf (.look false) line = [10] := by decide +kernel
  have hgot : ((start .cooperative config (.tcp {})).answers interrupting).flatMap (gotBy 0)
      ++ s.onTheWay 0 = [0x61, 0x62, 0x63, 0x20] := by decide +kernel
  refine ⟨interval, hlooks, ?_, by decide +kernel, ds, (hsent 0).symm.trans hgot, hparts, hitems⟩
  rw [← hlooks]
  exact htimes.trans (if_pos (by decide))

end Simulation

end ReceiverLink
