/-
  ReceiverLink.Proofs.Supervisor.Exclusive
  ────────────────────────────────
  **One link at a time.**

  A supervisor may be looked at between any two acts, also in the middle of a
  step.  Attempts are counted in the record: those that have begun against
  those that are over.  At most one of them is in progress, and then there is
  no transfer; the link of the transfer is the only one that is open.  A
  transfer goes only when both its halves have ended and its link has been let
  go, so an attempt to reconnect finds nothing left of the link before.

  Main statements:
    * `Act.counted` — each act keeps the attempts apart from the links;
    * `Act.attempt_free` — an attempt begins when nothing is left of a link;
    * `Evolves.ended` — a link that is not there any more has ended;
    * `one_link_at_a_time` — all this at every moment of every run.
-/
import ReceiverLink.Proofs.Supervisor.Phases

namespace ReceiverLink

namespace Simulation

variable {s s' s'' : Simulation} {p : Action × Answer} {replay : Bool}

/-! ## §1. Every moment. -/

/-- Acts of any steps lead from one supervisor to another. -/
abbrev Evolves : Simulation → Simulation → Prop :=
  Relation.ReflTransGen fun s s' => ∃ p, Act p s s'

theorem Acts.evolves (acts : Acts p s s') : Evolves s s' := by
  induction acts with
  | refl => exact .refl
  | tail _ act ih => exact ih.tail ⟨p, act⟩

theorem Evolves.living (h : Living replay s) (evolves : Evolves s s') : Living replay s' := by
  induction evolves with
  | refl => exact h
  | tail _ act ih =>
    obtain ⟨_, act⟩ := act
    exact act.living ih

/-- Supervisors evolve while a scenario runs. -/
theorem run_evolves (h : Waiting replay s) (actions : List Action) : Evolves s (s.run actions) := by
  induction actions generalizing s with
  | nil => exact .refl
  | cons a rest ih =>
    have hacts := step_acts h.living.steady.tidy h.quiet a
    exact (Acts.evolves hacts).trans (ih (h.step a))

/-! ## §2. Attempts. -/

/-- The attempts that have begun are over but for one at most, and none is in
progress beside a transfer. -/
structure Counted (s : Simulation) : Prop where
  single : s.Idle ∨ (s.Busy ∧ s.transfer = none)
  /-- What the watchdog waits for the end of is in progress. -/
  attempting : ∀ {number outcome moment}, s.watch = .attempting number outcome moment → s.Busy
  /-- Between two attempts the first is over. -/
  pausing : ∀ {number moment}, s.watch = .pausing number moment → s.Idle

namespace Counted

/-- A supervisor whose attempts are all over, and none of whose is awaited. -/
theorem of_idle (idle : s.Idle)
    (watch : ∀ {number outcome moment}, s.watch ≠ .attempting number outcome moment) :
    Counted s :=
  ⟨.inl idle, fun hwatch => absurd hwatch watch, fun _ => idle⟩

/-- While the watchdog looks at a link every attempt is over. -/
theorem idle_of_looking (h : Counted s) (hliving : Living replay s) {moment : Nat}
    (hwatch : s.watch = .looking moment) : s.Idle := by
  rcases h.single with hidle | ⟨-, hnone⟩
  · exact hidle
  · obtain ⟨-, t, ht⟩ := hliving.phase.of_looking hwatch
    cases ht.symm.trans hnone

/-- The same attempts beside the same transfer. -/
theorem single_congr (h : Counted s) (tally : s'.tally = s.tally)
    (current : s'.current? = s.current?) :
    s'.Idle ∨ (s'.Busy ∧ s'.transfer = none) := by
  rw [← current_eq_none_iff, current, current_eq_none_iff]
  exact h.single.imp (·.congr tally) (And.imp_left (·.congr tally))

/-- Nobody waits for an attempt any more. -/
theorem dismissed (h : Counted s) (tally : s'.tally = s.tally)
    (current : s'.current? = s.current?) (watch : s'.watch = .off) : Counted s' := by
  refine ⟨h.single_congr tally current, ?_, ?_⟩
  · intro _ _ _ hattempting
    rw [watch] at hattempting
    cases hattempting
  · intro _ _ hpausing
    rw [watch] at hpausing
    cases hpausing

end Counted

theorem linkUp_tally (s : Simulation) (link : Nat) : (s.linkUp link).tally = s.tally := by
  rw [(linkUp_beside s link).tally]
  exact publish_tally s .active

/-- A link that has just been brought up is looked at, if it is watched. -/
theorem linkUp_not_attempting (s : Simulation) (link : Nat) {number : Nat}
    {outcome : Except IoKind Nat} {moment : Nat} :
    (s.linkUp link).watch ≠ .attempting number outcome moment := by
  intro hwatch
  have htrying : s.firstLook.isTrying = true := by
    rw [← s.linkUp_watch link, hwatch]
    rfl
  cases s.firstLook_isTrying.symm.trans htrying

theorem connected_tally (s : Simulation) (link : Nat) :
    (s.connected link).tally = ⟨s.tally.begun, s.tally.ended + 1⟩ :=
  (linkUp_tally _ link).trans
    (tally_note { s with plan := s.nextAttempt.2, clock := s.clock + s.nextAttempt.1.delay } _)

theorem reconnected_tally (s : Simulation) (link : Nat) :
    (s.reconnected link).tally = ⟨s.tally.begun, s.tally.ended + 1⟩ :=
  (linkUp_tally _ link).trans (tally_note s _)

theorem attempted_tally (s : Simulation) (number : Nat) :
    (s.attempted number).tally = ⟨s.tally.begun + 1, s.tally.ended⟩ :=
  tally_note { s with plan := s.nextAttempt.2 } _

theorem lost_tally (s : Simulation) : s.lost.tally = s.tally :=
  (publish_tally _ .reconnecting).trans (tally_note { s with transfer := none } _)

theorem drained_tally (s : Simulation) : s.drained.tally = s.tally :=
  (publish_tally _ .drained).trans (tally_note { s with transfer := none } _)

theorem shutdown_tally (s : Simulation) : s.shutdown.tally = s.tally := by
  obtain ⟨a, hgone, hbeside⟩ := s.shutdown_stops
  have hstop : a.stop.tally = a.tally := (tally_note _ _).trans (publish_tally a .stopped)
  rw [hbeside.tally, hstop, tally_of_plain hgone.record]

theorem release_tally (s : Simulation) : s.release.tally = s.tally :=
  tally_of_plain s.release_unwatched.record

/-- **An act keeps the attempts apart from the links.** -/
theorem Act.counted (h : Living replay s) (hcounted : Counted s) (act : Act p s s') :
    Counted s' := by
  cases act with
  | aside _ beside =>
    refine ⟨hcounted.single_congr beside.tally beside.current, ?_, ?_⟩
    · intro _ _ _ hwatch
      exact (hcounted.attempting (beside.watch.symm.trans hwatch)).congr beside.tally
    · intro _ _ hwatch
      exact (hcounted.pausing (beside.watch.symm.trans hwatch)).congr beside.tally
  | call _ fresh _ idle =>
    -- before the first success there is neither a watchdog nor a transfer
    obtain ⟨hoff, hnone⟩ := h.phase.of_fresh fresh
    refine ⟨.inr ⟨idle.busy (tally_note s _), hnone⟩, ?_, ?_⟩
    · intro _ _ _ hwatch
      cases hoff.symm.trans hwatch
    · intro _ _ hwatch
      cases hoff.symm.trans hwatch
  | refuse _ _ calling =>
    refine .of_idle (calling.busy.idle (tally_note _ _)) ?_
    intro _ _ _ hwatch
    cases (h.phase.of_fresh calling.fresh).1.symm.trans hwatch
  | bring _ calling =>
    refine .of_idle (calling.busy.idle (s.connected_tally _)) ?_
    exact linkUp_not_attempting _ _
  | keep watch => exact .of_idle (hcounted.idle_of_looking h watch) Watch.noConfusion
  | lose watch =>
    have hidle := hcounted.idle_of_looking h watch
    exact .of_idle (hidle.congr s.lost_tally) Watch.noConfusion
  | finish watch =>
    have hidle := hcounted.idle_of_looking h watch
    exact .of_idle (hidle.congr s.drained_tally) Watch.noConfusion
  | @attempt number _ watch =>
    -- the watchdog was pausing, so the attempt before is over
    obtain ⟨-, hnone, -⟩ := h.phase.of_trying (by rw [watch]; rfl)
    have hbusy : (s.attempted (number + 1)).Busy :=
      (hcounted.pausing watch).busy (s.attempted_tally _)
    exact ⟨.inr ⟨hbusy, hnone⟩, fun _ => hbusy, fun hwatch => nomatch hwatch⟩
  | fail watch =>
    have hbusy := hcounted.attempting watch
    exact .of_idle (hbusy.idle (tally_note s _)) Watch.noConfusion
  | succeed watch =>
    have hbusy := hcounted.attempting watch
    refine .of_idle (hbusy.idle (s.reconnected_tally _)) ?_
    exact linkUp_not_attempting _ _
  | shut => exact hcounted.dismissed s.shutdown_tally s.shutdown_current s.shutdown_watch
  | release => exact hcounted.dismissed s.release_tally s.release_unwatched.current rfl

theorem Evolves.counted (h : Living replay s) (hcounted : Counted s) (evolves : Evolves s s') :
    Counted s' := by
  induction evolves with
  | refl => exact hcounted
  | tail evolves act ih =>
    obtain ⟨_, act⟩ := act
    exact act.counted (Evolves.living h evolves) ih

/-- **An attempt begins when every attempt before it is over and there is no
transfer.** -/
theorem Act.attempt_free (h : Living replay s) (hcounted : Counted s) (act : Act p s s')
    (begins : s.tally.begun < s'.tally.begun) : s.Idle ∧ s.transfer = none := by
  -- no other act makes the number of attempts greater
  have hsame : ∀ {n : Nat}, s'.tally = ⟨s.tally.begun, n⟩ → s.Idle ∧ s.transfer = none := by
    intro n htally
    rw [htally] at begins
    exact absurd begins (Nat.lt_irrefl _)
  cases act with
  | call _ fresh _ idle => exact ⟨idle, (h.phase.of_fresh fresh).2⟩
  | attempt watch =>
    exact ⟨hcounted.pausing watch, (h.phase.of_trying (by rw [watch]; rfl)).2.1⟩
  | aside _ beside => exact hsame beside.tally
  | refuse => exact hsame (tally_note _ _)
  | bring => exact hsame (s.connected_tally _)
  | keep => exact hsame rfl
  | lose => exact hsame s.lost_tally
  | finish => exact hsame s.drained_tally
  | fail => exact hsame (tally_note s _)
  | succeed => exact hsame (s.reconnected_tally _)
  | shut => exact hsame s.shutdown_tally
  | release => exact hsame s.release_tally

/-- An attempt that has been made on the way began in one of the acts. -/
theorem Evolves.begins {k : Nat} (evolves : Evolves s s') (before : s.tally.begun ≤ k)
    (after : k < s'.tally.begun) :
    ∃ a b q, Evolves s a ∧ Act q a b ∧ Evolves b s'
      ∧ a.tally.begun ≤ k ∧ k < b.tally.begun := by
  induction evolves with
  | refl => exact absurd after (Nat.not_lt.mpr before)
  | @tail m s' evolves act ih =>
    by_cases hearlier : k < m.tally.begun
    · obtain ⟨a, b, q, ha, hact, hb, hbefore, hafter⟩ := ih hearlier
      exact ⟨a, b, q, ha, hact, hb.tail act, hbefore, hafter⟩
    · obtain ⟨q, act⟩ := act
      exact ⟨m, s', q, evolves, act, .refl, Nat.not_lt.mp hearlier, after⟩

/-! ## §3. The link before. -/

/-- An act keeps the transfer, unless the link has ended. -/
theorem Act.current_or_ended (h : Living replay s) (act : Act p s s') {t : Transfer}
    (ht : s.transfer = some t) : s'.current? = some t.number ∨ s.Ended t := by
  have hcurrent : s.current? = some t.number := congrArg (Option.map Transfer.number) ht
  have hheld : s.transfer ≠ none := by
    rw [ht]
    exact Option.some_ne_none t
  have hended : s.linkIsOver = true → s.Ended t := h.ended ht
  -- an attempt is made without a transfer
  have htrying : s.watch.isTrying = true → s'.current? = some t.number ∨ s.Ended t :=
    fun hwatch => absurd (h.phase.of_trying hwatch).2.1 hheld
  cases act with
  | aside _ beside => exact .inl (beside.current.trans hcurrent)
  | call => exact .inl hcurrent
  | refuse => exact .inl hcurrent
  | bring _ calling => exact absurd (h.phase.of_fresh calling.fresh).2 hheld
  | keep => exact .inl hcurrent
  | lose _ finished => exact .inr (hended finished)
  | finish _ finished => exact .inr (hended finished)
  | attempt watch => exact htrying (by rw [watch]; rfl)
  | fail watch => exact htrying (by rw [watch]; rfl)
  | succeed watch => exact htrying (by rw [watch]; rfl)
  | shut => exact .inl (s.shutdown_current.trans hcurrent)
  | release => exact .inl ((endLink_beside s).current.trans hcurrent)

/-- **A link that is not there any more has ended**: on the way its transfer was
there with both halves ended and the link let go. -/
theorem Evolves.ended (h : Living replay s) (evolves : Evolves s s') {t : Transfer}
    (ht : s.transfer = some t) (gone : s'.current? ≠ some t.number) :
    ∃ m u, Evolves s m ∧ Evolves m s' ∧ m.transfer = some u ∧ u.number = t.number
      ∧ m.Ended u := by
  -- from the front: the transfer changes with each act, its number does not
  induction evolves using Relation.ReflTransGen.head_induction_on generalizing t with
  | refl => exact absurd (congrArg (Option.map Transfer.number) ht) gone
  | @head s m act evolves ih =>
    obtain ⟨p, act⟩ := act
    rcases act.current_or_ended h ht with hkept | hended
    · obtain ⟨u, hu, hnumber⟩ := Option.map_eq_some_iff.mp hkept
      rw [← hnumber] at gone
      obtain ⟨m', u', hbefore, hafter, hu', hsame, hended⟩ := ih (act.living h) hu gone
      exact ⟨m', u', .head ⟨p, act⟩ hbefore, hafter, hu', hsame.trans hnumber, hended⟩
    · exact ⟨s, t, .refl, .head ⟨p, act⟩ evolves, ht, rfl, hended⟩

/-! ## §4. One link at a time. -/

/-- Links and attempts keep out of each other's way. -/
structure Exclusive (s : Simulation) : Prop where
  /-- At most one link is open. -/
  link : ∀ m n, s.Open m → s.Open n → m = n
  /-- At most one attempt is in progress. -/
  attempt : s.Idle ∨ s.Busy
  /-- No link is open beside it. -/
  either : ¬ s.Idle → ∀ n, ¬ s.Open n
  /-- No link is open while the supervisor reconnects. -/
  lost : s.lifecycle = .reconnecting → ∀ n, ¬ s.Open n
  /-- The link of the transfer is open until both halves have ended. -/
  held : ∀ t, s.transfer = some t → (s.Open t.number ↔ t.isDone = false)

theorem Living.exclusive (h : Living replay s) (hcounted : Counted s) : s.Exclusive := by
  refine ⟨?_, ?_, ?_, ?_, ?_⟩
  · intro m n hm hn
    exact Option.some.inj ((h.sole m hm).symm.trans (h.sole n hn))
  · exact hcounted.single.imp_right And.left
  · intro hbusy
    apply h.none_open_of_free
    rcases hcounted.single with hidle | ⟨-, hnone⟩
    · exact absurd hidle hbusy
    · exact hnone
  · intro hlost
    exact h.none_open_of_free (h.phase.of_reconnecting hlost).1
  · intro t ht
    obtain ⟨-, link, hthere, hholds⟩ := h.steady.attached t ht
    have hheld : link.inbound.readerOpen = !t.isDone := hholds
    constructor
    · rintro ⟨-, l, hl, hopen⟩
      cases hthere.symm.trans hl
      simpa using hheld.symm.trans hopen
    · intro hdone
      refine ⟨?_, link, hthere, hheld.trans (by rw [hdone]; rfl)⟩
      intro hmem
      exact Nat.lt_irrefl _ ((h.steady.ordered.past t.number (.inl ⟨t, ht, rfl⟩)).2 _ hmem)

theorem start_counted (pace : Pace) (config : SupervisorConfig) (endpoint : Endpoint) :
    Counted (start pace config endpoint) :=
  .of_idle rfl Watch.noConfusion

/-- **One link at a time.**  A run is made of acts, and each attempt that it
makes begins in one of them.  At every moment between two acts at most one link
is open and at most one attempt is in progress, never both, and no link is open
while the supervisor reconnects.  And when an attempt begins, every attempt
before it is over and no link is open; each link whose transfer was there before
has ended since then, with both halves of its transfer, and both its ends have
been let go. -/
theorem one_link_at_a_time (pace : Pace) (config : SupervisorConfig) (endpoint : Endpoint) :
    let first := start pace config endpoint
    (∀ actions, Evolves first (first.run actions)
      ∧ ∀ k < (first.run actions).tally.begun, ∃ s s' p, Evolves first s ∧ Act p s s'
        ∧ Evolves s' (first.run actions) ∧ s.tally.begun ≤ k ∧ k < s'.tally.begun)
    ∧ ∀ s, Evolves first s → s.Exclusive
      ∧ ∀ p s', Act p s s' → s.tally.begun < s'.tally.begun →
        s.Idle ∧ (∀ n, ¬ s.Open n)
          ∧ ∀ earlier t, Evolves first earlier → Evolves earlier s → earlier.transfer = some t →
            ∃ m u, Evolves earlier m ∧ Evolves m s ∧ m.transfer = some u ∧ u.number = t.number
              ∧ m.Ended u := by
  intro first
  have hstart : Living first.replays first := start_living pace config endpoint
  refine ⟨?_, ?_⟩
  · intro actions
    have hrun : Evolves first (first.run actions) :=
      run_evolves (start_waiting pace config endpoint) actions
    exact ⟨hrun, fun k hk => hrun.begins (Nat.zero_le k) hk⟩
  · intro s hs
    have hliving := Evolves.living hstart hs
    have hcounted := Evolves.counted hstart (start_counted pace config endpoint) hs
    refine ⟨hliving.exclusive hcounted, ?_⟩
    intro p s' act begins
    obtain ⟨hidle, hfree⟩ := act.attempt_free hliving hcounted begins
    refine ⟨hidle, hliving.none_open_of_free hfree, ?_⟩
    intro earlier t hearlier hlater ht
    apply Evolves.ended (Evolves.living hstart hearlier) hlater ht
    rw [current_eq_none_iff.mpr hfree]
    exact (Option.some_ne_none _).symm

end Simulation

end ReceiverLink
