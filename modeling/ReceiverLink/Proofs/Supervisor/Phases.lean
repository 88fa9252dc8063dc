/-
  ReceiverLink.Proofs.Supervisor.Phases
  ────────────────────────────────
  **The phases of a supervisor's life.**

  What the watchdog waits for, whether there is a transfer, and the state that
  was published last belong together: a supervisor has not been connected yet,
  or its link is up and watched, or its link is up and the watchdog has failed,
  or it is trying to reconnect without any link, or nobody watches any more.
  `Phase` says so, and `Living` adds that no link is open but that of the
  transfer.  Every act leads from a living supervisor to a living one.

  Main statements:
    * `Act.living`, `Acts.living` — acts keep it;
    * `run_waiting` — so does a whole run.
-/
import ReceiverLink.Proofs.Supervisor.Acts

namespace ReceiverLink

namespace Simulation

variable {s s' : Simulation} {p : Action × Answer} {replay : Bool}

/-! ## §1. Phases. -/

/-- How far a supervisor has come in its life. -/
inductive Phase (replay : Bool) (s : Simulation) : Prop
  /-- No call to connect has succeeded. -/
  | fresh (lifecycle : s.lifecycle = .disconnected) (watch : s.watch = .off)
      (transfer : s.transfer = none)
  /-- The watchdog looks at a link. -/
  | up {moment : Nat} (lifecycle : s.lifecycle = .active) (watch : s.watch = .looking moment)
      (transfer : s.transfer ≠ none)
  /-- The link has been up, and the watchdog has failed. -/
  | alone (lifecycle : s.lifecycle = .active) (watch : s.watch = .failed)
      (transfer : s.transfer ≠ none)
  /-- The watchdog tries to reconnect. -/
  | trying (lifecycle : s.lifecycle = .reconnecting) (watch : s.watch.isTrying = true)
      (transfer : s.transfer = none) (live : replay = false)
  /-- The watchdog has gone. -/
  | unwatched (begun : s.lifecycle ≠ .disconnected) (watch : s.watch = .off)
      (lost : s.lifecycle = .reconnecting → s.transfer = none ∧ replay = false)
      (drained : s.lifecycle = .drained → replay = true)

/-- A supervisor in one of its phases, with no link open but that of its
transfer. -/
structure Living (replay : Bool) (s : Simulation) : Prop where
  steady : s.Steady
  whole : s.Whole
  mode : s.replays = replay
  phase : Phase replay s
  sole : ∀ n, s.Open n → s.current? = some n

theorem current_eq_none_iff : s.current? = none ↔ s.transfer = none :=
  Option.map_eq_none_iff

/-- The phase is read off a few things. -/
theorem Phase.congr (h : Phase replay s) (lifecycle : s'.lifecycle = s.lifecycle)
    (watch : s'.watch = s.watch) (current : s'.current? = s.current?) : Phase replay s' := by
  have htransfer : s'.transfer = none ↔ s.transfer = none := by
    rw [← current_eq_none_iff, ← current_eq_none_iff, current]
  cases h with
  | fresh hlifecycle hwatch hnone =>
    exact .fresh (lifecycle.trans hlifecycle) (watch.trans hwatch) (htransfer.mpr hnone)
  | up hlifecycle hwatch hsome =>
    exact .up (lifecycle.trans hlifecycle) (watch.trans hwatch) (mt htransfer.mp hsome)
  | alone hlifecycle hwatch hsome =>
    exact .alone (lifecycle.trans hlifecycle) (watch.trans hwatch) (mt htransfer.mp hsome)
  | trying hlifecycle hwatch hnone hlive =>
    exact .trying (lifecycle.trans hlifecycle) (watch ▸ hwatch) (htransfer.mpr hnone) hlive
  | unwatched hbegun hwatch hlost hdrained =>
    refine .unwatched (lifecycle ▸ hbegun) (watch.trans hwatch) ?_ (lifecycle ▸ hdrained)
    rw [lifecycle, htransfer]
    exact hlost

namespace Phase

/-- The watchdog looks at links only. -/
theorem of_looking (h : Phase replay s) {moment : Nat} (hwatch : s.watch = .looking moment) :
    s.lifecycle = .active ∧ ∃ t, s.transfer = some t := by
  cases h with
  | up hlifecycle _ hsome => exact ⟨hlifecycle, Option.ne_none_iff_exists'.mp hsome⟩
  | fresh _ hoff => rw [hwatch] at hoff; cases hoff
  | alone _ hfailed => rw [hwatch] at hfailed; cases hfailed
  | trying _ htrying => rw [hwatch] at htrying; cases htrying
  | unwatched _ hoff => rw [hwatch] at hoff; cases hoff

/-- The watchdog tries to reconnect when a receiver's link is lost. -/
theorem of_trying (h : Phase replay s) (htrying : s.watch.isTrying = true) :
    s.lifecycle = .reconnecting ∧ s.transfer = none ∧ replay = false := by
  cases h with
  | trying hlifecycle _ hnone hlive => exact ⟨hlifecycle, hnone, hlive⟩
  | fresh _ hoff => rw [hoff] at htrying; cases htrying
  | up _ hlooking => rw [hlooking] at htrying; cases htrying
  | alone _ hfailed => rw [hfailed] at htrying; cases htrying
  | unwatched _ hoff => rw [hoff] at htrying; cases htrying

/-- Before the first success there is neither watchdog nor transfer. -/
theorem of_fresh (h : Phase replay s) (hfresh : s.lifecycle = .disconnected) :
    s.watch = .off ∧ s.transfer = none := by
  cases h with
  | fresh _ hoff hnone => exact ⟨hoff, hnone⟩
  | up hlifecycle => rw [hfresh] at hlifecycle; cases hlifecycle
  | alone hlifecycle => rw [hfresh] at hlifecycle; cases hlifecycle
  | trying hlifecycle => rw [hfresh] at hlifecycle; cases hlifecycle
  | unwatched hbegun => exact absurd hfresh hbegun

/-- While it is published that the link is lost, there is no transfer. -/
theorem of_reconnecting (h : Phase replay s) (hlost : s.lifecycle = .reconnecting) :
    s.transfer = none ∧ replay = false := by
  cases h with
  | trying _ _ hnone hlive => exact ⟨hnone, hlive⟩
  | unwatched _ _ lost => exact lost hlost
  | fresh hlifecycle => rw [hlost] at hlifecycle; cases hlifecycle
  | up hlifecycle => rw [hlost] at hlifecycle; cases hlifecycle
  | alone hlifecycle => rw [hlost] at hlifecycle; cases hlifecycle

/-- Only what is played comes to an end. -/
theorem of_drained (h : Phase replay s) (hdrained : s.lifecycle = .drained) : replay = true := by
  cases h with
  | unwatched _ _ _ drained => exact drained hdrained
  | fresh hlifecycle => rw [hdrained] at hlifecycle; cases hlifecycle
  | up hlifecycle => rw [hdrained] at hlifecycle; cases hlifecycle
  | alone hlifecycle => rw [hdrained] at hlifecycle; cases hlifecycle
  | trying hlifecycle => rw [hdrained] at hlifecycle; cases hlifecycle

/-- Whatever the phase was, nobody watches any more. -/
theorem dismissed (h : Phase replay s) (lifecycle : s'.lifecycle = s.lifecycle)
    (watch : s'.watch = .off) (current : s'.current? = s.current?) : Phase replay s' := by
  have htransfer : s'.transfer = none ↔ s.transfer = none := by
    rw [← current_eq_none_iff, ← current_eq_none_iff, current]
  by_cases hfresh : s.lifecycle = .disconnected
  · exact .fresh (lifecycle.trans hfresh) watch (htransfer.mpr (h.of_fresh hfresh).2)
  · rw [← lifecycle] at hfresh
    refine .unwatched hfresh watch ?_ ?_
    · rw [lifecycle, htransfer]
      exact h.of_reconnecting
    · rw [lifecycle]
      exact h.of_drained

end Phase

/-! ## §2. What is open. -/

/-- The reading half and the writing half of the transfer have ended, and the
supervisor has let go of both ends of its link. -/
structure Ended (s : Simulation) (t : Transfer) : Prop where
  reading : t.reading = false
  writer : ∃ clean, t.writer = .closed clean
  dropped : ∃ link, s.links[t.number]? = some link ∧ link.inbound.readerOpen = false
    ∧ link.outbound.writerOpen = false

/-- What has ended is not open. -/
theorem Ended.not_open {t : Transfer} (h : s.Ended t) : ¬ s.Open t.number := by
  rintro ⟨-, link, hlink, hopen⟩
  obtain ⟨l, hl, hgone, -⟩ := h.dropped
  cases hlink.symm.trans hl
  cases hopen.symm.trans hgone

namespace Living

/-- A link that is over has ended in all its parts. -/
theorem ended (h : Living replay s) {t : Transfer} (ht : s.transfer = some t)
    (finished : s.linkIsOver = true) : s.Ended t := by
  have hdone : t.isDone = true := by
    unfold linkIsOver at finished
    rw [ht] at finished
    exact finished
  obtain ⟨hreading, hwriter⟩ := Bool.and_eq_true_iff.mp hdone
  obtain ⟨link, hthere, hgone⟩ := h.steady.attached.letGo_of_over ht finished
  refine ⟨by simpa using hreading, ?_, link, hthere, hgone, h.whole _ link hthere hgone⟩
  cases hclosed : t.writer with
  | closed clean => exact ⟨clean, rfl⟩
  | idle => rw [hclosed] at hwriter; cases hwriter
  | writing item rest => rw [hclosed] at hwriter; cases hwriter

/-- The watchdog finds a link over when all of it has ended. -/
theorem ended_of_looking (h : Living replay s) {moment : Nat} (hwatch : s.watch = .looking moment)
    (finished : s.linkIsOver = true) : ∃ t, s.transfer = some t ∧ s.Ended t := by
  obtain ⟨-, t, ht⟩ := h.phase.of_looking hwatch
  exact ⟨t, ht, h.ended ht finished⟩

/-- Once the transfer is done, no link is open. -/
theorem none_open (h : Living replay s) (finished : s.linkIsOver = true) (n : Nat) :
    ¬ s.Open n := by
  intro hopen
  obtain ⟨t, ht, rfl⟩ := Option.map_eq_some_iff.mp (h.sole n hopen)
  exact (h.ended ht finished).not_open hopen

/-- Without a transfer no link is open. -/
theorem none_open_of_free (h : Living replay s) (free : s.transfer = none) (n : Nat) :
    ¬ s.Open n := by
  apply h.none_open
  unfold linkIsOver
  rw [free]

end Living

/-- Who gives up an attempt does not open its link. -/
theorem Open.of_dismiss {n : Nat} (h : s.dismiss.Open n) : s.Open n := by
  obtain ⟨hpast, link, hlink, hopen⟩ := h
  rcases s.dismiss_links with ⟨hwatch, hlinks⟩ | ⟨m, hwatch, hlinks⟩
  · have hupcoming : s.upcoming = s.dismiss.upcoming := by
      unfold upcoming
      rw [hwatch]
      rfl
    rw [hlinks] at hlink
    exact ⟨hupcoming ▸ hpast, link, hlink, hopen⟩
  · rw [hlinks, Array.getElem?_modify] at hlink
    split at hlink
    next =>
      -- the link of the attempt has been let go
      obtain ⟨l, -, rfl⟩ := Option.map_eq_some_iff.mp hlink
      cases hopen
    next hother =>
      refine ⟨?_, link, hlink, hopen⟩
      have hupcoming : s.upcoming = m :: s.dismiss.upcoming := by
        show s.watch.link?.toList ++ _ = _
        rw [hwatch]
        rfl
      rw [hupcoming, List.mem_cons]
      rintro (rfl | hmem)
      · exact hother rfl
      · exact hpast hmem

/-- A supervisor whose link is up, before its transfer has done anything. -/
def opening (s : Simulation) (link : Nat) : Simulation :=
  { s.publish .active with
    watch := s.firstLook
    transfer := some { number := link, framer := .new (s.publish .active).config.maxBlock } }

/-- The link is up, and the transfer does what it can. -/
theorem linkUp_beside (s : Simulation) (link : Nat) : Beside (s.opening link) (s.linkUp link) :=
  .settle (s.opening link)

/-- One link is opened by bringing up a link. -/
theorem Open.of_linkUp {link n : Nat} (h : (s'.linkUp link).Open n) (links : s'.links = s.links)
    (upcoming : s.upcoming = link :: s'.plan.flatMap (·.link?.toList)) :
    s.Open n ∨ n = link := by
  rcases (linkUp_beside s' link).opened n h with ⟨hpast, l, hl, hopen⟩ | hcurrent
  · have hlinks : (s'.opening link).links = s.links :=
      ((Apart.refl s').publish .active).links.trans links
    have hplan : (s'.opening link).upcoming = s'.plan.flatMap (·.link?.toList) := by
      show s'.firstLook.link?.toList ++ (s'.publish .active).plan.flatMap _ = _
      rw [firstLook_link?, publish_plan]
      rfl
    by_cases hn : n = link
    · exact .inr hn
    · refine .inl ⟨?_, l, hlinks ▸ hl, hopen⟩
      rw [upcoming, List.mem_cons, ← hplan]
      rintro (heq | hmem)
      · exact hn heq
      · exact hpast hmem
  · exact .inr (Option.some.inj hcurrent).symm

/-! ## §3. Acts. -/

@[simp] theorem linkUp_lifecycle (s : Simulation) (link : Nat) :
    (s.linkUp link).lifecycle = .active :=
  (linkUp_beside s link).lifecycle.trans (publish_lifecycle s .active)

@[simp] theorem connected_lifecycle (s : Simulation) (link : Nat) :
    (s.connected link).lifecycle = .active :=
  linkUp_lifecycle _ link

@[simp] theorem reconnected_lifecycle (s : Simulation) (link : Nat) :
    (s.reconnected link).lifecycle = .active :=
  linkUp_lifecycle _ link

theorem linkUp_current (s : Simulation) (link : Nat) : (s.linkUp link).current? = some link :=
  (linkUp_beside s link).current

theorem linkUp_watch (s : Simulation) (link : Nat) : (s.linkUp link).watch = s.firstLook :=
  (linkUp_beside s link).watch

theorem linkUp_phase (s : Simulation) (link : Nat) : Phase replay (s.linkUp link) := by
  have hsome : (s.linkUp link).transfer ≠ none := by
    intro hnone
    have hcurrent := s.linkUp_current link
    rw [current_eq_none_iff.mpr hnone] at hcurrent
    cases hcurrent
  have hwatch := s.linkUp_watch link
  unfold firstLook at hwatch
  split at hwatch
  next => exact .alone (s.linkUp_lifecycle link) hwatch hsome
  next => exact .up (s.linkUp_lifecycle link) hwatch hsome

/-- What runs is ended. -/
theorem endLink_beside (s : Simulation) : Beside s s.endLink := by
  have hending : Beside s s.ending := by
    refine ⟨rfl, rfl, rfl, rfl, rfl, s.ending_current, ?_, [], (List.append_nil _).symm, ?_⟩
    · intro n hopen
      exact .inl hopen
    · intro x hx
      cases hx
  exact hending.trans (.settle _)

/-- The life of the supervisor goes on as it was, but nobody watches any more. -/
structure Unwatched (s s' : Simulation) : Prop where
  kind : s'.endpoint.kind = s.endpoint.kind
  lifecycle : s'.lifecycle = s.lifecycle
  watch : s'.watch = .off
  current : s'.current? = s.current?
  /-- No link is opened. -/
  opened : ∀ n, s'.Open n → s.Open n ∨ s.current? = some n
  record : ∃ hs, s'.happenings = s.happenings ++ hs ∧ ∀ h ∈ hs, h.isVital = false

theorem Beside.dismiss (h : Beside s s') : Unwatched s s'.dismiss :=
  ⟨h.kind, h.lifecycle, rfl, h.current, fun n hopen => h.opened n hopen.of_dismiss, h.record⟩

theorem cancel_unwatched (s : Simulation) : Unwatched s s.cancel :=
  (endLink_beside s).dismiss

theorem release_unwatched (s : Simulation) : Unwatched s s.release :=
  have h := s.cancel_unwatched
  ⟨h.kind, h.lifecycle, h.watch, h.current, h.opened, h.record⟩

theorem stop_current (s : Simulation) : s.stop.current? = s.current? :=
  congrArg (Option.map Transfer.number) (publish_transfer s .stopped)

/-- Stopping opens no link. -/
theorem Open.of_stop {n : Nat} (h : s.stop.Open n) : s.Open n := by
  refine h.of_links s.stop_apart.links ?_
  show (publish s .stopped).watch.link?.toList ++ (publish s .stopped).plan.flatMap _ = s.upcoming
  rw [publish_watch, publish_plan]
  rfl

/-- **To shut down is to stop**: the watchdog goes before it, and it goes together
with the link unless it has failed. -/
theorem shutdown_stops (s : Simulation) : ∃ a, Unwatched s a ∧ Beside a.stop s.shutdown := by
  unfold shutdown
  split
  next =>
    have hgone : Beside s.dismiss (s.dismiss.note .watchdogFailed) := (Beside.refl _).note rfl
    have h := (Beside.refl s).dismiss
    refine ⟨s.dismiss.note .watchdogFailed, ⟨h.kind, h.lifecycle, h.watch, h.current, h.opened, ?_⟩,
      endLink_beside _⟩
    exact hgone.record
  next => exact ⟨s.cancel, s.cancel_unwatched, .refl _⟩

/-- Nobody watches once the supervisor is shut down. -/
theorem shutdown_watch (s : Simulation) : s.shutdown.watch = .off := by
  obtain ⟨a, hgone, hbeside⟩ := s.shutdown_stops
  exact hbeside.watch.trans ((publish_watch a .stopped).trans hgone.watch)

theorem shutdown_released (s : Simulation) : s.shutdown.released = s.released := by
  unfold shutdown
  split
  next => exact (endLink_beside _).released.trans (publish_released _ .stopped)
  next => exact (publish_released _ .stopped).trans (endLink_beside s).released

theorem shutdown_current (s : Simulation) : s.shutdown.current? = s.current? := by
  obtain ⟨a, hgone, hbeside⟩ := s.shutdown_stops
  exact hbeside.current.trans (a.stop_current.trans hgone.current)

theorem replays_of_same (config : s'.config = s.config)
    (kind : s'.endpoint.kind = s.endpoint.kind) : s'.replays = s.replays := by
  unfold replays
  rw [config, kind]

theorem publish_endpoint (s : Simulation) (new : Lifecycle) :
    (s.publish new).endpoint = s.endpoint := by
  unfold publish
  split <;> rfl

/-- The receiver is reached in the same way for the whole life of a
supervisor. -/
theorem Act.kind_eq (act : Act p s s') : s'.endpoint.kind = s.endpoint.kind := by
  have hup : ∀ (a : Simulation) (link : Nat), (a.linkUp link).endpoint.kind = a.endpoint.kind := by
    intro a link
    rw [(linkUp_beside a link).kind]
    exact congrArg Endpoint.kind (publish_endpoint a .active)
  cases act with
  | aside _ beside => exact beside.kind
  | bring => exact hup _ _
  | succeed => exact hup _ _
  | lose => exact congrArg Endpoint.kind (publish_endpoint _ .reconnecting)
  | finish => exact congrArg Endpoint.kind (publish_endpoint _ .drained)
  | shut =>
    obtain ⟨a, hgone, hbeside⟩ := s.shutdown_stops
    have hstopped : a.stop.endpoint.kind = a.endpoint.kind :=
      congrArg Endpoint.kind (publish_endpoint a .stopped)
    exact hbeside.kind.trans (hstopped.trans hgone.kind)
  | release => exact s.release_unwatched.kind
  | _ => rfl

theorem Acts.kind_eq (acts : Acts p s s') : s'.endpoint.kind = s.endpoint.kind := by
  induction acts with
  | refl => rfl
  | tail _ act ih => exact act.kind_eq.trans ih

/-- Recordings are played for the whole life of a supervisor, or receivers are
connected to. -/
theorem Act.replays_eq (h : Tidy s) (act : Act p s s') : s'.replays = s.replays := by
  obtain ⟨es, hmoves⟩ := act.moves h
  exact replays_of_same hmoves.config act.kind_eq

theorem Act.phase (h : Living replay s) (act : Act p s s') : Phase replay s' := by
  cases act with
  | aside _ beside => exact h.phase.congr beside.lifecycle beside.watch beside.current
  | call => exact h.phase.congr rfl rfl rfl
  | refuse => exact h.phase.congr rfl rfl rfl
  | bring => exact linkUp_phase _ _
  | keep watch =>
    obtain ⟨hlifecycle, t, ht⟩ := h.phase.of_looking watch
    exact .up hlifecycle rfl (by rw [ht]; exact Option.some_ne_none t)
  | lose _ _ live =>
    exact .trying (publish_lifecycle _ _) rfl (publish_transfer _ _) (h.mode.symm.trans live)
  | finish _ _ hreplay =>
    exact .unwatched (by simp) rfl (by simp) fun _ => h.mode.symm.trans hreplay
  | attempt watch =>
    obtain ⟨hlifecycle, hnone, hlive⟩ := h.phase.of_trying (by rw [watch]; rfl)
    exact .trying hlifecycle rfl hnone hlive
  | fail watch =>
    obtain ⟨hlifecycle, hnone, hlive⟩ := h.phase.of_trying (by rw [watch]; rfl)
    exact .trying hlifecycle rfl hnone hlive
  | succeed => exact linkUp_phase _ _
  | shut => exact .unwatched (by simp) s.shutdown_watch (by simp) (by simp)
  | release =>
    have hgone := s.release_unwatched
    exact h.phase.dismissed hgone.lifecycle hgone.watch hgone.current

/-- No act opens another link than that of the transfer. -/
theorem Act.sole (h : Living replay s) (act : Act p s s') (n : Nat) (hopen : s'.Open n) :
    s'.current? = some n := by
  -- of the links that were open before, that of the transfer is the only one
  have hkept : ∀ {a : Simulation}, a.current? = s.current? → s.Open n → a.current? = some n :=
    fun hcurrent hbefore => hcurrent.trans (h.sole n hbefore)
  have hunwatched : ∀ {a : Simulation}, Unwatched s a → a.Open n → a.current? = some n := by
    intro a hgone hbefore
    rcases hgone.opened n hbefore with hearlier | hcurrent
    · exact hkept hgone.current hearlier
    · exact hgone.current.trans hcurrent
  cases act with
  | aside _ beside =>
    rcases beside.opened n hopen with hbefore | hcurrent
    · exact hkept beside.current hbefore
    · exact beside.current.trans hcurrent
  | call => exact h.sole n hopen
  | refuse _ _ _ outcome =>
    apply h.sole n
    refine hopen.of_links rfl ?_
    rw [upcoming_nextAttempt s, Attempt.link?, outcome]
    rfl
  | @bring link _ calling outcome =>
    have hupcoming : s.upcoming = link :: s.nextAttempt.2.flatMap (·.link?.toList) := by
      rw [upcoming_nextAttempt s, (h.phase.of_fresh calling.fresh).1,
        Attempt.link?_of_outcome outcome]
      rfl
    rcases hopen.of_linkUp (s := s) rfl hupcoming with hbefore | rfl
    · exact absurd hbefore (h.none_open_of_free (h.phase.of_fresh calling.fresh).2 n)
    · exact linkUp_current _ _
  | keep watch =>
    apply h.sole n
    refine hopen.of_links rfl ?_
    unfold upcoming
    rw [watch]
    rfl
  | lose watch finished =>
    refine absurd (hopen.of_links ?_ ?_) (h.none_open finished n)
    · exact (((Apart.refl { s with transfer := none }).note rfl).publish .reconnecting).links
    · unfold upcoming
      rw [watch]
      exact congrArg (fun plan => [] ++ plan.flatMap (·.link?.toList)) (publish_plan _ _)
  | finish watch finished =>
    refine absurd (hopen.of_dismiss.of_links ?_ ?_) (h.none_open finished n)
    · exact (((Apart.refl { s with transfer := none }).note rfl).publish .drained).links
    · unfold upcoming
      rw [publish_watch, publish_plan]
      rfl
  | attempt watch =>
    apply h.sole n
    refine hopen.of_links rfl ?_
    rw [upcoming_nextAttempt s, watch]
    rfl
  | fail watch =>
    apply h.sole n
    refine hopen.of_links rfl ?_
    unfold upcoming
    rw [watch]
    rfl
  | @succeed _ link _ watch =>
    have hupcoming : s.upcoming = link :: s.plan.flatMap (·.link?.toList) := by
      unfold upcoming
      rw [watch]
      rfl
    rcases hopen.of_linkUp (s := s) rfl hupcoming with hbefore | rfl
    · have hfree := (h.phase.of_trying (by rw [watch]; rfl)).2.1
      exact absurd hbefore (h.none_open_of_free hfree n)
    · exact linkUp_current _ _
  | shut =>
    obtain ⟨a, hgone, hbeside⟩ := s.shutdown_stops
    rcases hbeside.opened n hopen with hstopped | hcurrent
    · exact (hbeside.current.trans a.stop_current).trans (hunwatched hgone hstopped.of_stop)
    · exact hbeside.current.trans hcurrent
  | release => exact hunwatched s.release_unwatched hopen

/-- **Acts lead from a living supervisor to a living one.** -/
theorem Act.living (h : Living replay s) (act : Act p s s') : Living replay s' := by
  obtain ⟨es, hmoves⟩ := act.moves h.steady.tidy
  exact ⟨hmoves.steady h.steady, hmoves.whole h.steady h.whole,
    (act.replays_eq h.steady.tidy).trans h.mode, act.phase h, act.sole h⟩

theorem Acts.living (h : Living replay s) (acts : Acts p s s') : Living replay s' := by
  induction acts with
  | refl => exact h
  | tail _ act ih => exact act.living ih

/-- The caller waits for an attempt only while connecting. -/
theorem Act.quiet (h : Living replay s) (quiet : s.Quiet) (act : Act p s s')
    (hstep : p.1 ≠ .connect) : s'.Quiet := by
  intro hfresh
  cases act with
  | aside _ beside =>
    exact (quiet (beside.lifecycle.symm.trans hfresh)).congr beside.tally
  | call step => exact absurd step hstep
  | refuse step => exact absurd step hstep
  | bring step => exact absurd (congrArg Prod.fst step) hstep
  | keep => exact quiet hfresh
  | lose => cases s.lost_lifecycle.symm.trans hfresh
  | finish => cases s.drained_lifecycle.symm.trans hfresh
  | attempt watch => cases watch.symm.trans (h.phase.of_fresh hfresh).1
  | fail watch => cases watch.symm.trans (h.phase.of_fresh hfresh).1
  | succeed => cases (s.reconnected_lifecycle _).symm.trans hfresh
  | shut => cases s.shutdown_lifecycle.symm.trans hfresh
  | release =>
    have hgone := s.release_unwatched
    exact (quiet (hgone.lifecycle.symm.trans hfresh)).congr (tally_of_plain hgone.record)

theorem Acts.quiet (h : Living replay s) (quiet : s.Quiet) (acts : Acts p s s')
    (hstep : p.1 ≠ .connect) : s'.Quiet := by
  induction acts with
  | refl => exact quiet
  | tail acts act ih => exact act.quiet (Acts.living h acts) ih hstep

/-! ## §4. Runs. -/

/-- A living supervisor between two steps of a scenario. -/
structure Waiting (replay : Bool) (s : Simulation) : Prop where
  living : Living replay s
  quiet : s.Quiet

/-- An attempt of the caller is over when the call returns. -/
theorem connect_quiet (quiet : s.Quiet) : s.connect.1.Quiet := by
  by_cases fresh : s.lifecycle = .disconnected
  · cases houtcome : s.nextAttempt.1.outcome with
    | error kind =>
      -- it has been counted twice: when it began, and when it failed
      let begun : Simulation := s.note .attempt
      let tried : Simulation := { begun with
        plan := s.nextAttempt.2, clock := s.clock + s.nextAttempt.1.delay }
      have hbegun : begun.tally = ⟨s.tally.begun + 1, s.tally.ended⟩ := tally_note _ _
      have hfailed : (tried.connectFailed kind).1.tally
          = ⟨begun.tally.begun, begun.tally.ended + 1⟩ := tally_note _ _
      rw [connect_of_error fresh houtcome]
      exact fun _ => ((quiet fresh).busy hbegun).idle hfailed
    | ok link =>
      rw [connect_of_ok fresh houtcome]
      intro hfresh
      cases (connected_lifecycle _ link).symm.trans hfresh
  · rw [connect_of_begun fresh]
    exact quiet

theorem step_quiet (h : Waiting replay s) (a : Action) : (s.step a).1.Quiet := by
  by_cases hstep : a = .connect
  · subst hstep
    show (s.call connect).1.Quiet
    unfold Simulation.call
    split
    next => exact h.quiet
    next => exact connect_quiet h.quiet
  · exact Acts.quiet h.living h.quiet (step_acts h.living.steady.tidy h.quiet a) hstep

theorem Waiting.step (h : Waiting replay s) (a : Action) : Waiting replay (s.step a).1 :=
  ⟨Acts.living h.living (step_acts h.living.steady.tidy h.quiet a), step_quiet h a⟩

theorem start_living (pace : Pace) (config : SupervisorConfig) (endpoint : Endpoint) :
    Living (start pace config endpoint).replays (start pace config endpoint) := by
  refine ⟨start_steady _ _ _, ?_, rfl, .fresh rfl rfl rfl, ?_⟩
  · intro n link hlink
    cases hlink
  · rintro n ⟨-, link, hlink, -⟩
    cases hlink

theorem start_waiting (pace : Pace) (config : SupervisorConfig) (endpoint : Endpoint) :
    Waiting (start pace config endpoint).replays (start pace config endpoint) :=
  ⟨start_living pace config endpoint, fun _ => rfl⟩

/-- **A run leaves a living supervisor.** -/
theorem run_waiting (h : Waiting replay s) (actions : List Action) :
    Waiting replay (s.run actions) := by
  induction actions generalizing s with
  | nil => exact h
  | cons a rest ih => exact ih (h.step a)

end Simulation

end ReceiverLink
