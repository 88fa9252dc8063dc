/-
  ReceiverLink.Proofs.Supervisor.Lifecycle
  ────────────────────────────────
  **The law of a supervisor's states.**

  Of all that is recorded, a few things tell the life of a supervisor: the
  states published, the attempts, and how they end.  `Deed` lists what one act
  can add to them, and why.  So each change of state has its cause: only a
  call that succeeds connects, only the end of a link loses it or drains the
  supervisor, only an attempt that succeeds reconnects, and only a shutdown
  stops.

  Main statements:
    * `Act.deed` — what an act adds to the life of a supervisor;
    * `Acts.change` — every change published on the way is lawful;
    * `lifecycle_lawful` — the law for every run.
-/
import Mathlib.Data.List.Induction
import ReceiverLink.Proofs.Supervisor.Phases

namespace ReceiverLink

namespace Simulation

variable {s s' : Simulation} {p : Action × Answer} {replay : Bool}

/-! ## §1. The life that is recorded. -/

/-- What tells the life of a supervisor, in order. -/
def vitals (s : Simulation) : List Happening :=
  s.happenings.filter Happening.isVital

/-- The changes of state that have been published, in order. -/
def published (s : Simulation) : List (Lifecycle × Lifecycle) :=
  s.happenings.filterMap Happening.published?

/-- The state that these changes lead to. -/
def stateAfter (changes : List (Lifecycle × Lifecycle)) : Lifecycle :=
  (changes.getLast?.map Prod.snd).getD .disconnected

theorem vitals_note (s : Simulation) (x : Happening) :
    (s.note x).vitals = s.vitals ++ [x].filter Happening.isVital := by
  unfold vitals
  rw [happenings_note, List.filter_append]

/-- What is published tells the life. -/
theorem published_eq (s : Simulation) : s.published = s.vitals.filterMap Happening.published? := by
  have hvital : ∀ x : Happening,
      (if x.isVital = true then x.published? else none) = x.published? := by
    intro x
    cases x <;> rfl
  unfold published vitals
  rw [List.filterMap_filter]
  simp only [hvital]

/-- Nothing is recorded that tells of the life. -/
theorem vitals_of_plain
    (h : ∃ hs, s'.happenings = s.happenings ++ hs ∧ ∀ h ∈ hs, h.isVital = false) :
    s'.vitals = s.vitals := by
  obtain ⟨hs, hrecord, hplain⟩ := h
  have hnone : hs.filter Happening.isVital = [] := by
    rw [List.filter_eq_nil_iff]
    intro x hx
    rw [hplain x hx]
    exact Bool.false_ne_true
  unfold Simulation.vitals
  rw [hrecord, List.filter_append, hnone, List.append_nil]

theorem Beside.vitals (h : Beside s s') : s'.vitals = s.vitals :=
  vitals_of_plain h.record

/-- What does not tell the life leaves what tells it alone. -/
theorem vitals_note_plain {x : Happening} (hplain : x.isVital = false) :
    (s.note x).vitals = s.vitals := by
  rw [vitals_note, List.filter_cons_of_neg (by rw [hplain]; exact Bool.false_ne_true)]
  exact List.append_nil _

/-- A new state is published. -/
theorem vitals_publish {old new : Lifecycle} (hold : s.lifecycle = old) (hnew : old ≠ new) :
    (s.publish new).vitals = s.vitals ++ [.stateChanged old new] := by
  subst hold
  unfold publish
  rw [if_neg hnew]
  exact vitals_note { s with lifecycle := new } _

/-- Something is recorded, and then a new state is published. -/
theorem vitals_note_publish (x : Happening) {old new : Lifecycle} (hold : s.lifecycle = old)
    (hnew : old ≠ new) :
    ((s.note x).publish new).vitals
      = s.vitals ++ ([x].filter Happening.isVital ++ [.stateChanged old new]) := by
  have hpublish : ((s.note x).publish new).vitals = (s.note x).vitals ++ [.stateChanged old new] :=
    vitals_publish hold hnew
  rw [hpublish, vitals_note, List.append_assoc]

/-- Who is shut down publishes that, unless it has been published already. -/
theorem vitals_shutdown (s : Simulation) :
    s.shutdown.vitals = s.vitals ++ if s.lifecycle = .stopped then [] else
      [.stateChanged s.lifecycle .stopped] := by
  obtain ⟨a, hgone, hbeside⟩ := s.shutdown_stops
  have hstop : s.shutdown.vitals = (a.publish .stopped).vitals :=
    hbeside.vitals.trans (vitals_note_plain rfl)
  rw [hstop, ← hgone.lifecycle, ← vitals_of_plain hgone.record]
  split
  next hstopped =>
    unfold publish
    rw [if_pos hstopped, List.append_nil]
  next hrunning => exact vitals_publish rfl hrunning

theorem vitals_note_linkUp (x : Happening) (link : Nat) {old : Lifecycle}
    (hold : s.lifecycle = old) (hnew : old ≠ .active) :
    ((s.note x).linkUp link).vitals
      = s.vitals ++ ([x].filter Happening.isVital ++ [.stateChanged old .active]) := by
  rw [(linkUp_beside _ link).vitals]
  exact vitals_note_publish x hold hnew

/-! ## §2. Deeds. -/

/-- Why a change of state comes about in a step of a run: what is so just before
it. -/
inductive Lawful (replay : Bool) (p : Action × Answer) (s : Simulation) :
    Lifecycle → Lifecycle → Prop
  /-- A call to connect succeeds. -/
  | connect {link : Nat} (step : p = (.connect, .done)) (calling : s.Calling)
      (outcome : s.nextAttempt.1.outcome = .ok link) : Lawful replay p s .disconnected .active
  /-- A link that is not a recording has ended. -/
  | lose {t : Transfer} (live : replay = false) (transfer : s.transfer = some t)
      (ended : s.Ended t) : Lawful replay p s .active .reconnecting
  /-- An attempt to reconnect succeeds. -/
  | reconnect {number link moment : Nat}
      (attempt : s.watch = .attempting number (.ok link) moment) :
      Lawful replay p s .reconnecting .active
  /-- A recording has ended. -/
  | drain {t : Transfer} (played : replay = true) (transfer : s.transfer = some t)
      (ended : s.Ended t) : Lawful replay p s .active .drained
  /-- The supervisor is shut down. -/
  | stop {old : Lifecycle} (step : p = (.shutdown, .done)) (running : old ≠ .stopped) :
      Lawful replay p s old .stopped

/-- What one act adds to the life of a supervisor, why, and the state that it
leads to. -/
inductive Deed (replay : Bool) (p : Action × Answer) (s : Simulation) :
    List Happening → Lifecycle → Prop
  | nothing {new : Lifecycle} (same : new = s.lifecycle) : Deed replay p s [] new
  /-- The caller tries to connect. -/
  | call (fresh : s.lifecycle = .disconnected) : Deed replay p s [.attempt] .disconnected
  /-- A call to connect fails. -/
  | refuse {endpoint : String} {error : TransportError} (fresh : s.lifecycle = .disconnected) :
      Deed replay p s [.connectFailed endpoint error] .disconnected
  /-- A call to connect succeeds. -/
  | connect {endpoint : String} {kind : LinkKind} {link : Nat} (step : p = (.connect, .done))
      (calling : s.Calling) (outcome : s.nextAttempt.1.outcome = .ok link) :
      Deed replay p s [.connected endpoint kind, .stateChanged .disconnected .active] .active
  /-- The watchdog tries to reconnect. -/
  | retry (lost : s.lifecycle = .reconnecting) (live : replay = false) :
      Deed replay p s [.attempt] .reconnecting
  /-- Its attempt fails. -/
  | fail {number : Nat} {error : TransportError} (lost : s.lifecycle = .reconnecting) :
      Deed replay p s [.reconnectFailed number error] .reconnecting
  /-- Its attempt succeeds. -/
  | reconnect {endpoint : String} {number link moment : Nat} (lost : s.lifecycle = .reconnecting)
      (attempt : s.watch = .attempting number (.ok link) moment) :
      Deed replay p s [.reconnected endpoint, .stateChanged .reconnecting .active] .active
  /-- A state is published, and nothing else. -/
  | change {old new : Lifecycle} (lifecycle : s.lifecycle = old)
      (lawful : Lawful replay p s old new) : Deed replay p s [.stateChanged old new] new

/-- **What an act adds to the life of a supervisor.** -/
theorem Act.deed (h : Living replay s) (act : Act p s s') :
    ∃ deeds, s'.vitals = s.vitals ++ deeds ∧ Deed replay p s deeds s'.lifecycle := by
  cases act with
  | aside _ beside =>
    refine ⟨[], ?_, .nothing beside.lifecycle⟩
    rw [beside.vitals, List.append_nil]
  | call _ fresh =>
    refine ⟨[.attempt], s.vitals_note .attempt, ?_⟩
    show Deed replay p s [.attempt] s.lifecycle
    rw [fresh]
    exact .call fresh
  | @refuse kind _ _ calling =>
    let tried : Simulation := { s with
      plan := s.nextAttempt.2, clock := s.clock + s.nextAttempt.1.delay }
    refine ⟨[.connectFailed s.endpoint.text (s.refusal kind)], tried.vitals_note _, ?_⟩
    show Deed replay p s [_] s.lifecycle
    rw [calling.fresh]
    exact .refuse calling.fresh
  | @bring link step calling outcome =>
    let brought : Simulation := { s with
      plan := s.nextAttempt.2, clock := s.clock + s.nextAttempt.1.delay, handedOver := true }
    have hvitals : (s.connected link).vitals
        = s.vitals ++ [.connected s.endpoint.text s.endpoint.kind,
          .stateChanged .disconnected .active] := by
      show ((brought.note _).linkUp link).vitals = _
      exact vitals_note_linkUp _ link calling.fresh (by decide)
    refine ⟨_, hvitals, ?_⟩
    rw [connected_lifecycle]
    exact .connect step calling outcome
  | keep => exact ⟨[], (List.append_nil _).symm, .nothing rfl⟩
  | lose watch finished live =>
    obtain ⟨hup, -⟩ := h.phase.of_looking watch
    obtain ⟨t, ht, hended⟩ := h.ended_of_looking watch finished
    refine ⟨[.stateChanged .active .reconnecting],
      vitals_note_publish (s := { s with transfer := none }) _ hup (by decide), ?_⟩
    rw [lost_lifecycle]
    exact .change hup (.lose (h.mode.symm.trans live) ht hended)
  | finish watch finished played =>
    obtain ⟨hup, -⟩ := h.phase.of_looking watch
    obtain ⟨t, ht, hended⟩ := h.ended_of_looking watch finished
    refine ⟨[.stateChanged .active .drained],
      vitals_note_publish (s := { s with transfer := none }) _ hup (by decide), ?_⟩
    rw [drained_lifecycle]
    exact .change hup (.drain (h.mode.symm.trans played) ht hended)
  | attempt watch =>
    obtain ⟨hlost, -, hlive⟩ := h.phase.of_trying (by rw [watch]; rfl)
    refine ⟨[.attempt], vitals_note { s with plan := s.nextAttempt.2 } .attempt, ?_⟩
    show Deed replay p s [.attempt] s.lifecycle
    rw [hlost]
    exact .retry hlost hlive
  | @fail number _ _ kind watch =>
    obtain ⟨hlost, -⟩ := h.phase.of_trying (by rw [watch]; rfl)
    refine ⟨[.reconnectFailed number (s.refusal kind)], s.vitals_note _, ?_⟩
    show Deed replay p s [_] s.lifecycle
    rw [hlost]
    exact .fail hlost
  | @succeed number link moment watch =>
    obtain ⟨hlost, -⟩ := h.phase.of_trying (by rw [watch]; rfl)
    refine ⟨[.reconnected s.endpoint.text, .stateChanged .reconnecting .active],
      vitals_note_linkUp _ link hlost (by decide), ?_⟩
    rw [reconnected_lifecycle]
    exact .reconnect hlost watch
  | shut step =>
    rw [shutdown_lifecycle, vitals_shutdown]
    split
    -- a second shutdown publishes nothing
    next hstopped => exact ⟨[], rfl, .nothing hstopped.symm⟩
    next hrunning => exact ⟨_, rfl, .change rfl (.stop step hrunning)⟩
  | release =>
    refine ⟨[], ?_, .nothing s.release_unwatched.lifecycle⟩
    rw [List.append_nil]
    exact vitals_of_plain s.release_unwatched.record

namespace Deed

variable {deeds : List Happening} {new : Lifecycle}

/-- A deed publishes nothing, or one lawful change of state. -/
theorem lawful (h : Deed replay p s deeds new) :
    (deeds.filterMap Happening.published? = [] ∧ new = s.lifecycle)
      ∨ (deeds.filterMap Happening.published? = [(s.lifecycle, new)]
        ∧ Lawful replay p s s.lifecycle new) := by
  cases h with
  | nothing same => exact .inl ⟨rfl, same⟩
  | call fresh => exact .inl ⟨rfl, fresh.symm⟩
  | refuse fresh => exact .inl ⟨rfl, fresh.symm⟩
  | connect step calling outcome =>
    rw [calling.fresh]
    exact .inr ⟨rfl, .connect step calling outcome⟩
  | retry lost => exact .inl ⟨rfl, lost.symm⟩
  | fail lost => exact .inl ⟨rfl, lost.symm⟩
  | reconnect lost attempt =>
    rw [lost]
    exact .inr ⟨rfl, .reconnect attempt⟩
  | change lifecycle lawful =>
    rw [lifecycle]
    exact .inr ⟨rfl, lawful⟩

/-- Before the first success attempts are all that is made. -/
theorem fresh (h : Deed replay p s deeds new) (hnew : new = .disconnected) :
    s.lifecycle = .disconnected ∧ ∀ e k, .connected e k ∉ deeds := by
  cases h with
  | nothing same => exact ⟨same.symm.trans hnew, fun _ _ => List.not_mem_nil⟩
  | call fresh => exact ⟨fresh, fun _ _ => by simp⟩
  | refuse fresh => exact ⟨fresh, fun _ _ => by simp⟩
  | connect => cases hnew
  | retry => cases hnew
  | fail => cases hnew
  | reconnect => cases hnew
  | change _ lawful => cases lawful <;> cases hnew

/-- While a recording is played attempts are made before the first success
only. -/
theorem attempts (h : Deed replay p s deeds new) (played : replay = true)
    (hattempt : .attempt ∈ deeds) : s.lifecycle = .disconnected := by
  cases h with
  | call fresh => exact fresh
  | retry _ live => rw [played] at live; cases live
  | nothing => cases hattempt
  | refuse => simp at hattempt
  | connect => simp at hattempt
  | fail => simp at hattempt
  | reconnect => simp at hattempt
  | change => simp at hattempt

/-- The act of a success makes no attempt after it. -/
theorem after_success (h : Deed replay p s deeds new) {earlier later : List Happening}
    {e : String} {k : LinkKind} (hsplit : deeds = earlier ++ .connected e k :: later) :
    .attempt ∉ later := by
  have hmem : .connected e k ∈ deeds := by
    rw [hsplit]
    exact List.mem_append_right _ (List.mem_cons_self ..)
  cases h with
  | connect =>
    cases earlier with
    | nil =>
      obtain ⟨-, rfl⟩ := List.cons.inj hsplit
      simp
    | cons x earlier => simp [List.cons_eq_append_iff] at hsplit
  | nothing => cases hmem
  | call => simp at hmem
  | refuse => simp at hmem
  | retry => simp at hmem
  | fail => simp at hmem
  | reconnect => simp at hmem
  | change => simp at hmem

end Deed

/-! ## §3. Changes of state. -/

/-- An act publishes nothing, or one lawful change of state. -/
theorem Act.published (h : Living replay s) (act : Act p s s') :
    (s'.published = s.published ∧ s'.lifecycle = s.lifecycle)
      ∨ (s'.published = s.published ++ [(s.lifecycle, s'.lifecycle)]
        ∧ Lawful replay p s s.lifecycle s'.lifecycle) := by
  obtain ⟨deeds, hvitals, hdeed⟩ := act.deed h
  have hpublished : s'.published = s.published ++ deeds.filterMap Happening.published? := by
    rw [published_eq, published_eq, hvitals, List.filterMap_append]
  rcases hdeed.lawful with ⟨hnone, hsame⟩ | ⟨hone, hlawful⟩
  · rw [hnone, List.append_nil] at hpublished
    exact .inl ⟨hpublished, hsame⟩
  · rw [hone] at hpublished
    exact .inr ⟨hpublished, hlawful⟩

/-- A change of state in the middle of a step: some acts of the step lead to a
supervisor in the old state, the next act brings about the new state lawfully,
and the rest of the step follows. -/
structure Change (replay : Bool) (p : Action × Answer) (s s' : Simulation)
    (earlier : List (Lifecycle × Lifecycle)) (old new : Lifecycle) (a b : Simulation) : Prop where
  before : Acts p s a
  act : Act p a b
  after : Acts p b s'
  /-- These changes were published before. -/
  published : a.published = earlier
  starts : a.lifecycle = old
  ends : b.lifecycle = new
  lawful : Lawful replay p a old new

/-- **Every change published on the way is lawful.** -/
theorem Acts.change (h : Living replay s) (acts : Acts p s s')
    {earlier later : List (Lifecycle × Lifecycle)} {old new : Lifecycle}
    (hchange : s'.published = earlier ++ (old, new) :: later) :
    (∃ later', s.published = earlier ++ (old, new) :: later')
      ∨ ∃ a b, Change replay p s s' earlier old new a b := by
  induction acts generalizing later with
  | refl => exact .inl ⟨later, hchange⟩
  | @tail m s' acts act ih =>
    -- a change before the last act is one of the acts before
    have hbefore : ∀ {later' : List (Lifecycle × Lifecycle)},
        m.published = earlier ++ (old, new) :: later' →
        (∃ later', s.published = earlier ++ (old, new) :: later')
          ∨ ∃ a b, Change replay p s s' earlier old new a b := by
      intro later' hmiddle
      rcases ih hmiddle with hstart | ⟨a, b, hfound⟩
      · exact .inl hstart
      · exact .inr ⟨a, b, { hfound with after := hfound.after.tail act }⟩
    rcases act.published (Acts.living h acts) with ⟨hsame, -⟩ | ⟨hmore, hlawful⟩
    · exact hbefore (hsame.symm.trans hchange)
    · rw [hmore] at hchange
      rcases List.eq_nil_or_concat later with rfl | ⟨between, last, rfl⟩
      · -- it is the change of the last act
        obtain ⟨hpublished, hlast⟩ := List.append_inj' hchange rfl
        obtain ⟨rfl, rfl⟩ := Prod.mk.inj (List.singleton_inj.mp hlast)
        exact .inr ⟨m, s', acts, act, .refl, hpublished, rfl, rfl, hlawful⟩
      · have hmiddle : m.published ++ [(m.lifecycle, s'.lifecycle)]
            = (earlier ++ (old, new) :: between) ++ [last] := by
          rw [hchange, List.concat_eq_append, List.append_assoc, List.cons_append]
        exact hbefore (List.append_inj' hmiddle rfl).1

/-! ## §4. The whole life. -/

/-- The state is the one that was published last; and nobody connects again to
a recording. -/
structure Lived (replay : Bool) (s : Simulation) : Prop where
  living : Living replay s
  last : s.lifecycle = stateAfter s.published
  unconnected : s.lifecycle = .disconnected → ∀ e k, .connected e k ∉ s.vitals
  once : replay = true → ∀ earlier later e k, s.vitals = earlier ++ .connected e k :: later →
    .attempt ∉ later

theorem stateAfter_append (changes : List (Lifecycle × Lifecycle)) (old new : Lifecycle) :
    stateAfter (changes ++ [(old, new)]) = new := by
  unfold stateAfter
  rw [List.getLast?_concat]
  rfl

/-- Where something stands in a list that was made longer. -/
theorem split_of_append {α : Type} {xs ys earlier later : List α} {x : α}
    (h : xs ++ ys = earlier ++ x :: later) :
    (∃ between, xs = earlier ++ x :: between ∧ later = between ++ ys)
      ∨ ∃ between, ys = between ++ x :: later := by
  rcases List.append_eq_append_iff.mp h with ⟨between, -, hys⟩ | ⟨between, hxs, hlater⟩
  · exact .inr ⟨between, hys⟩
  · cases between with
    | nil => exact .inr ⟨[], hlater.symm⟩
    | cons y between =>
      obtain ⟨rfl, rfl⟩ := List.cons.inj hlater
      exact .inl ⟨between, hxs, rfl⟩

theorem Act.lived (h : Lived replay s) (act : Act p s s') : Lived replay s' := by
  obtain ⟨deeds, hvitals, hdeed⟩ := act.deed h.living
  refine ⟨act.living h.living, ?_, ?_, ?_⟩
  · rcases act.published h.living with ⟨hsame, hlifecycle⟩ | ⟨hmore, -⟩
    · rw [hsame, hlifecycle]
      exact h.last
    · rw [hmore, stateAfter_append]
  · intro hnew e k hmem
    obtain ⟨hfresh, hnone⟩ := hdeed.fresh hnew
    rw [hvitals, List.mem_append] at hmem
    rcases hmem with hold | hdone
    · exact h.unconnected hfresh e k hold
    · exact hnone e k hdone
  · intro played earlier later e k hsplit
    rw [hvitals] at hsplit
    rcases split_of_append hsplit with ⟨between, hold, rfl⟩ | ⟨between, hdone⟩
    · -- connected before: an attempt now would be one before the first success
      rw [List.mem_append, not_or]
      refine ⟨h.once played _ _ e k hold, ?_⟩
      intro hattempt
      apply h.unconnected (hdeed.attempts played hattempt) e k
      rw [hold]
      exact List.mem_append_right _ (List.mem_cons_self ..)
    · exact hdeed.after_success hdone

theorem Acts.lived (h : Lived replay s) (acts : Acts p s s') : Lived replay s' := by
  induction acts with
  | refl => exact h
  | tail _ act ih => exact act.lived ih

theorem start_lived (pace : Pace) (config : SupervisorConfig) (endpoint : Endpoint) :
    Lived (start pace config endpoint).replays (start pace config endpoint) := by
  refine ⟨start_living _ _ _, rfl, ?_, ?_⟩
  · intro _ e k hmem
    cases hmem
  · intro _ earlier later e k hsplit
    cases earlier <;> cases hsplit

theorem run_lived (h : Lived replay s) (quiet : s.Quiet) (actions : List Action) :
    Lived replay (s.run actions) := by
  induction actions generalizing s with
  | nil => exact h
  | cons a rest ih =>
    have hacts := step_acts h.living.steady.tidy quiet a
    exact ih (Acts.lived h hacts) (step_quiet ⟨h.living, quiet⟩ a)

/-! ## §5. The law. -/

/-- A change published in a run comes about in one of its steps. -/
theorem run_change (pace : Pace) (config : SupervisorConfig) (endpoint : Endpoint)
    (actions : List Action)
    {earlier later : List (Lifecycle × Lifecycle)} {old new : Lifecycle}
    (hchange :
      ((start pace config endpoint).run actions).published = earlier ++ (old, new) :: later) :
    ∃ before a after, actions = before ++ a :: after
      ∧ ∃ b b', Change (start pace config endpoint).replays
        (a, (((start pace config endpoint).run before).step a).2)
        ((start pace config endpoint).run before)
        (((start pace config endpoint).run before).step a).1 earlier old new b b' := by
  induction actions using List.reverseRecOn generalizing later with
  | nil =>
    have hnone : [] = earlier ++ (old, new) :: later := hchange
    cases earlier <;> cases hnone
  | append_singleton before a ih =>
    have hwaiting := run_waiting (start_waiting pace config endpoint) before
    have hacts := step_acts hwaiting.living.steady.tidy hwaiting.quiet a
    rw [run_append] at hchange
    rcases Acts.change hwaiting.living hacts hchange with ⟨later', hearlier⟩ | hfound
    · obtain ⟨front, b, after, hfront, hfound⟩ := ih hearlier
      refine ⟨front, b, after ++ [a], ?_, hfound⟩
      rw [hfront, List.append_assoc, List.cons_append]
    · exact ⟨before, a, [], rfl, hfound⟩

/-- What a lawful change cannot be. -/
theorem Lawful.excludes {old new : Lifecycle} (h : Lawful replay p s old new) :
    old ≠ .stopped ∧ (old = .drained → new = .stopped)
      ∧ (replay = true → new ≠ .reconnecting) ∧ (replay = false → new ≠ .drained) := by
  cases h with
  | connect => simp
  | lose live => simp [live]
  | reconnect => simp
  | drain played => simp [played]
  | stop _ running => simp [running]

/-- **The law of a supervisor's states.**  In every run each change of state
that is published starts from the state before it, and comes about lawfully in
one of the steps; so nothing follows a stop, only a stop follows the end of a
recording, what is played is never lost and what is not is never drained.  And
once a recording is connected to, nobody connects again. -/
theorem lifecycle_lawful (pace : Pace) (config : SupervisorConfig) (endpoint : Endpoint)
    (actions : List Action) :
    let replay := config.settings.isReplay || endpoint.kind == .replay
    let s := (start pace config endpoint).run actions
    s.lifecycle = stateAfter s.published
      ∧ (∀ earlier old new later, s.published = earlier ++ (old, new) :: later →
        old = stateAfter earlier
          ∧ ∃ before a after, actions = before ++ a :: after
            ∧ ∃ b b', Change replay (a, (((start pace config endpoint).run before).step a).2)
              ((start pace config endpoint).run before)
              (((start pace config endpoint).run before).step a).1 earlier old new b b')
      ∧ (∀ change ∈ s.published, change.1 ≠ .stopped ∧ (change.1 = .drained → change.2 = .stopped)
        ∧ (replay = true → change.2 ≠ .reconnecting) ∧ (replay = false → change.2 ≠ .drained))
      ∧ (replay = true → ∀ earlier later endpoint kind,
        s.happenings = earlier ++ .connected endpoint kind :: later → .attempt ∉ later) := by
  intro replay s
  have hstart := start_lived pace config endpoint
  have hlived := run_lived hstart (start_waiting pace config endpoint).quiet actions
  refine ⟨hlived.last, ?_, ?_, ?_⟩
  · intro earlier old new later hchange
    obtain ⟨before, a, after, hactions, b, b', hfound⟩ :=
      run_change pace config endpoint actions hchange
    -- the supervisor before the change has lived so far, too
    have hbefore := Acts.lived
      (run_lived hstart (start_waiting pace config endpoint).quiet before) hfound.before
    refine ⟨?_, before, a, after, hactions, b, b', hfound⟩
    rw [← hfound.starts, hbefore.last, hfound.published]
  · rintro ⟨old, new⟩ hmem
    obtain ⟨earlier, later, hchange⟩ := List.append_of_mem hmem
    obtain ⟨before, a, after, -, b, b', hfound⟩ := run_change pace config endpoint actions hchange
    exact hfound.lawful.excludes
  · intro played earlier later e k hsplit hattempt
    have hvitals : s.vitals = earlier.filter Happening.isVital
        ++ .connected e k :: later.filter Happening.isVital := by
      unfold vitals
      rw [hsplit, List.filter_append, List.filter_cons_of_pos rfl]
    exact hlived.once played _ _ e k hvitals (List.mem_filter.mpr ⟨hattempt, rfl⟩)

/-- A receiver hangs up; the first attempt to reconnect fails, the second one
succeeds. -/
example : ((start .cooperative {} (.serial {})).run
    [.accept 64 0, .refuse .timedOut 0, .accept 64 0, .connect,
      .receiverClose 0, .advance 2000, .shutdown]).published
    = [(.disconnected, .active), (.active, .reconnecting), (.reconnecting, .active),
      (.active, .stopped)] := by
  decide +kernel

end Simulation

end ReceiverLink
