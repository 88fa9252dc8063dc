/-
  ReceiverLink.Proofs.Supervisor.Shutdown
  ────────────────────────────────
  **A shutdown takes no time, and is final.**

  A shutdown ends whatever runs: both halves of the transfer, and the watchdog
  with its attempt, if it makes one.  The supervisor is then `Halted`: there is
  nothing left that could do anything.  Whatever is done to it afterwards
  leaves it so, and all that happens are calls and what the receiver does at
  its end (`Rests`).

  Main statements:
    * `Living.shutdown_halted` — a shutdown halts the supervisor, wherever it stands;
    * `Living.cancel_links` — what becomes of the links, wherever the watchdog waits;
    * `Halted.step` — nothing sets it going again;
    * `shutdown_final` — both, for every run.
-/
import ReceiverLink.Proofs.Supervisor.Alike
import ReceiverLink.Proofs.Supervisor.Timeline

namespace ReceiverLink

/-- A call that does nothing but change the port. -/
def Happening.isIdle : Happening → Bool
  | .stopped => true
  | .emptyCommand => true
  | .endpointUpdated _ => true
  | _ => false

/-- Only the receiver has done something: what was on the way from it is still
there, and it may have taken of what was on the way to it. -/
structure Link.Untouched (l l' : Link) : Prop where
  unread : l.inbound.buffer <+: l'.inbound.buffer
  unwritten : l'.outbound.buffer <:+ l.outbound.buffer

theorem Link.Untouched.refl (l : Link) : Untouched l l :=
  ⟨List.prefix_rfl, List.suffix_rfl⟩

theorem Link.Untouched.trans {l l' l'' : Link} (h : Untouched l l') (h' : Untouched l' l'') :
    Untouched l l'' :=
  ⟨h.unread.trans h'.unread, h'.unwritten.trans h.unwritten⟩

/-! ## §1. A transfer that is ended. -/

namespace Working

variable {w w' : Working}

/-- A transfer that is to end goes on ending. -/
theorem Operates.ended (h : Operates w w') (hended : w.transfer.ended = true) :
    w'.transfer.ended = true := by
  cases h with
  | arrange => exact hended
  | read reads => exact reads.ended hended
  | write writes => exact writes.keepsInbound.ended.trans hended
  | finish =>
    rw [finish_eq]
    exact hended

theorem Works.ended (h : Works w w') (hended : w.transfer.ended = true) :
    w'.transfer.ended = true := by
  induction h with
  | refl => exact hended
  | tail _ hop ih => exact hop.ended ih

end Working

namespace Simulation

variable {s s' s'' : Simulation} {replay : Bool}

/-! ## §2. A supervisor that has halted. -/

/-- All is over for good: there is no watchdog, and no link that is not over. -/
structure Halted (s : Simulation) : Prop where
  stopped : s.lifecycle = .stopped
  unwatched : s.watch = .off
  unlinked : s.linkIsOver = true

/-- Nothing has been done but calls that are refused, and what the receiver does
at its end: of every link nothing is read and on none is written. -/
structure Rests (s s' : Simulation) : Prop where
  record : ∃ hs, s'.happenings = s.happenings ++ hs ∧ ∀ h ∈ hs, h.isIdle = true
  plan : s.plan <+: s'.plan
  links : ∀ (n : Nat) (l : Link), s.links[n]? = some l →
    ∃ l', s'.links[n]? = some l' ∧ l.Untouched l'

namespace Rests

/-- Nothing is recorded. -/
theorem quiet (record : s'.record = s.record) (plan : s.plan <+: s'.plan)
    (links : ∀ (n : Nat) (l : Link), s.links[n]? = some l →
      ∃ l', s'.links[n]? = some l' ∧ l.Untouched l') : Rests s s' := by
  refine ⟨⟨[], ?_, fun _ hx => absurd hx List.not_mem_nil⟩, plan, links⟩
  unfold happenings
  rw [record, List.append_nil]

/-- Neither the plan nor the links are changed, nor anything recorded. -/
theorem silent (record : s'.record = s.record) (plan : s'.plan = s.plan)
    (links : s'.links = s.links) : Rests s s' := by
  refine .quiet record ⟨[], (List.append_nil _).trans plan.symm⟩ ?_
  intro n l hl
  rw [links]
  exact ⟨l, hl, .refl l⟩

theorem refl (s : Simulation) : Rests s s :=
  .silent rfl rfl rfl

theorem trans (h : Rests s s') (h' : Rests s' s'') : Rests s s'' := by
  obtain ⟨hs, hrecord, hidle⟩ := h.record
  obtain ⟨hs', hrecord', hidle'⟩ := h'.record
  refine ⟨⟨hs ++ hs', ?_, ?_⟩, h.plan.trans h'.plan, ?_⟩
  · rw [hrecord', hrecord, List.append_assoc]
  · intro x hx
    rcases List.mem_append.mp hx with hfirst | hlast
    · exact hidle x hfirst
    · exact hidle' x hlast
  · intro n l hl
    obtain ⟨l', hl', hfirst⟩ := h.links n l hl
    obtain ⟨l'', hl'', hlast⟩ := h'.links n l' hl'
    exact ⟨l'', hl'', hfirst.trans hlast⟩

theorem note (h : Rests s s') {x : Happening} (hidle : x.isIdle = true) :
    Rests s (s'.note x) := by
  refine h.trans ⟨⟨[x], happenings_note _ _, ?_⟩, List.prefix_rfl, fun n l hl => ⟨l, hl, .refl l⟩⟩
  intro y hy
  rw [List.mem_singleton.mp hy]
  exact hidle

end Rests

/-- It has halted, and nothing has been done on the way. -/
structure Idles (s s' : Simulation) : Prop where
  halted : s'.Halted
  rests : Rests s s'

theorem Idles.trans (h : Idles s s') (h' : Idles s' s'') : Idles s s'' :=
  ⟨h'.halted, h.rests.trans h'.rests⟩

theorem Idles.note (h : Idles s s') {x : Happening} (hidle : x.isIdle = true) :
    Idles s (s'.note x) :=
  ⟨⟨h.halted.stopped, h.halted.unwatched, h.halted.unlinked⟩, h.rests.note hidle⟩

/-! ## §3. Nothing sets it going again. -/

namespace Halted

theorem congr (h : s.Halted) (lifecycle : s'.lifecycle = s.lifecycle)
    (watch : s'.watch = s.watch) (transfer : s'.transfer = s.transfer) : s'.Halted := by
  refine ⟨lifecycle.trans h.stopped, watch.trans h.unwatched, ?_⟩
  unfold linkIsOver
  rw [transfer]
  exact h.unlinked

variable (h : s.Halted)

include h

theorem alive : s.watch.hasFailed = false := by
  rw [h.unwatched]
  rfl

theorem idles : Idles s s :=
  ⟨h, .refl s⟩

/-- What is over does nothing any more. -/
theorem settle : s.settle = s := by
  have hkept : s.isForsaken = true → s.queue = [] := by
    rw [isForsaken_of_alive h.alive]
    exact fun hlost => nomatch hlost
  refine settle_of_resting ?_ hkept
  intro t link ht _
  have hdone : t.isDone = true := by
    have hover := h.unlinked
    unfold linkIsOver at hover
    rw [ht] at hover
    exact hover
  rw [Working.isReady_eq]
  show (!t.isDone && _) = false
  rw [hdone]
  rfl

/-- The receiver may write at its end of a link, and take what is on it. -/
theorem onLink (number : Nat) {f : Link → Link} (hf : ∀ l : Link, l.Untouched (f l)) :
    Idles s (s.onLink number f) := by
  have hchanged : Halted { s with links := s.links.modify number f } := h.congr rfl rfl rfl
  -- the transfer is over, so that nothing settles
  unfold Simulation.onLink
  rw [hchanged.settle]
  refine ⟨hchanged, .quiet rfl List.prefix_rfl ?_⟩
  intro n l hl
  show ∃ l', (s.links.modify number f)[n]? = some l' ∧ _
  rw [Array.getElem?_modify]
  split
  next => exact ⟨f l, by rw [hl]; rfl, hf l⟩
  next => exact ⟨l, hl, .refl l⟩

omit h in
theorem receiverWrite (number n count : Nat) (bytes : List UInt8) (h : s.Halted) :
    Idles s (Simulation.receiverWrite number n count bytes s).1 := by
  induction n generalizing s count bytes with
  | zero => exact h.idles
  | succ n ih =>
    unfold Simulation.receiverWrite
    split
    next => exact h.idles
    next link _ =>
      repeat' split
      · exact h.idles
      · exact h.idles
      · exact h.idles
      · exact h.idles
      · have hput := h.onLink number
          (f := fun l => { l with inbound := l.inbound.put (link.inbound.fitting bytes) })
          fun l => ⟨List.prefix_append _ _, List.suffix_rfl⟩
        exact hput.trans (ih _ _ hput.halted)

omit h in
theorem receiverRead (number n : Nat) (before : List UInt8) (h : s.Halted) :
    Idles s (Simulation.receiverRead number n before s).1 := by
  induction n generalizing s before with
  | zero => exact h.idles
  | succ n ih =>
    unfold Simulation.receiverRead
    split
    next => exact h.idles
    next =>
      repeat' split
      · exact h.idles
      · exact h.idles
      · have hgot := h.onLink number
          (f := fun l => { l with outbound := { l.outbound with buffer := [] } })
          fun l => ⟨List.prefix_rfl, List.nil_suffix⟩
        exact hgot.trans (ih _ hgot.halted)

theorem receiverDoes (number : Nat) {f : Link → Link} (hf : ∀ l : Link, l.Untouched (f l)) :
    Idles s (s.receiverDoes number f).1 := by
  unfold Simulation.receiverDoes
  repeat' split
  · exact h.onLink number hf
  · exact h.idles
  · exact h.idles

/-- Time passes, and nothing else. -/
theorem elapse (ms : Nat) : s.elapse ms = { s with clock := s.clock + ms } := by
  unfold Simulation.elapse
  cases ms with
  | zero => rfl
  | succ n =>
    unfold runUntil
    rw [deadline?_of_off h.unwatched]

/-- There is nothing left to end. -/
theorem cancel : Idles s s.cancel := by
  have hending : s.ending.Halted :=
    ⟨h.stopped, h.unwatched, (linkIsOver_ending s).trans h.unlinked⟩
  have hlinks : s.ending.dismiss.links = s.links := by
    rcases s.ending.dismiss_links with ⟨-, hlinks⟩ | ⟨_, hwatch, -⟩
    · exact hlinks
    · cases hwatch.symm.trans (congrArg Watch.link? h.unwatched)
  have hcancel : s.cancel = s.ending.dismiss := congrArg dismiss hending.settle
  rw [hcancel]
  exact ⟨hending.congr rfl h.unwatched.symm rfl, .silent rfl rfl hlinks⟩

theorem shutdown : Idles s s.shutdown := by
  have hcancel := h.cancel
  have hpublish : s.cancel.publish .stopped = s.cancel := if_pos hcancel.halted.stopped
  rw [shutdown_of_alive h.alive]
  unfold stop
  rw [hpublish]
  exact hcancel.note rfl

theorem release : Idles s s.release :=
  h.cancel.trans ⟨h.cancel.halted.congr rfl rfl rfl, .silent rfl rfl rfl⟩

/-- A call to connect is refused. -/
theorem connect : s.connect = (s, .error .stopped) := by
  unfold Simulation.connect
  rw [h.stopped]

/-- So is a command. -/
theorem send {command : List UInt8} (hsome : command ≠ []) :
    s.send command = (s, .error .stopped) := by
  unfold Simulation.send
  rw [if_neg hsome, h.stopped]

theorem setPort (text : String) : Idles s (s.setPort text).1 := by
  unfold Simulation.setPort
  repeat' split
  · exact h.idles
  · have hchanged : ∀ endpoint, Idles s { s with endpoint := endpoint } :=
      fun _ => ⟨h.congr rfl rfl rfl, .silent rfl rfl rfl⟩
    exact (hchanged _).note rfl
  · exact h.idles

theorem call {f : Simulation → Simulation × Except SupervisorError Unit} (hf : Idles s (f s).1) :
    Idles s (s.call f).1 := by
  unfold Simulation.call
  split
  next => exact h.idles
  next => exact hf

/-- **Nothing sets it going again.** -/
theorem step (a : Action) : Idles s (s.step a).1 := by
  cases a with
  | accept capacity delay =>
    refine ⟨h.congr rfl rfl rfl, .quiet rfl (List.prefix_append _ _) ?_⟩
    intro n l hl
    exact ⟨l, getElem?_planned hl _, .refl l⟩
  | refuse kind delay =>
    refine ⟨h.congr rfl rfl rfl, .quiet rfl (List.prefix_append _ _) ?_⟩
    exact fun n l hl => ⟨l, hl, .refl l⟩
  | connect =>
    refine h.call ?_
    rw [h.connect]
    exact h.idles
  | send command =>
    refine h.call ?_
    by_cases hsome : command = []
    · subst hsome
      exact h.idles.note rfl
    · rw [h.send hsome]
      exact h.idles
  | setPort text => exact h.call (h.setPort text)
  | shutdown => exact h.call h.shutdown
  | drop => exact h.call h.release
  | dropConsumer => exact ⟨h.congr rfl rfl rfl, .silent rfl rfl rfl⟩
  | advance ms =>
    show Idles s (s.elapse ms)
    rw [h.elapse]
    exact ⟨h.congr rfl rfl rfl, .silent rfl rfl rfl⟩
  | fail number operation kind =>
    refine h.onLink number ?_
    intro l
    cases operation <;> exact ⟨List.prefix_rfl, List.suffix_rfl⟩
  | receiverWrite number bytes => exact h.receiverWrite _ _ _ _
  | receiverRead number => exact h.receiverRead _ _ _
  | receiverShutdown number =>
    exact h.receiverDoes number fun l => ⟨List.prefix_rfl, List.suffix_rfl⟩
  | receiverClose number =>
    exact h.receiverDoes number fun l => ⟨List.prefix_rfl, List.suffix_rfl⟩

theorem run (actions : List Action) : Idles s (s.run actions) := by
  induction actions generalizing s with
  | nil => exact h.idles
  | cons a later ih => exact (h.step a).trans (ih (h.step a).halted)

/-- Only the caller lets go of the supervisor. -/
theorem step_released {a : Action} (hkept : a ≠ .drop) : (s.step a).1.released = s.released := by
  have hcall : ∀ {f : Simulation → Simulation × Except SupervisorError Unit},
      (f s).1.released = s.released → (s.call f).1.released = s.released := by
    intro f hf
    unfold Simulation.call
    split
    next => rfl
    next => exact hf
  cases a with
  | drop => exact absurd rfl hkept
  | connect =>
    refine hcall ?_
    rw [h.connect]
  | shutdown => exact hcall s.shutdown_released
  | advance ms =>
    show (s.elapse ms).released = s.released
    rw [h.elapse]
  | _ => exact (step_beside s rfl).released

theorem run_released {actions : List Action} (hkept : .drop ∉ actions) :
    (s.run actions).released = s.released := by
  induction actions generalizing s with
  | nil => rfl
  | cons a later ih =>
    obtain ⟨hfirst, hlater⟩ := not_or.mp (mt List.mem_cons.mpr hkept)
    exact (ih (h.step a).halted hlater).trans (h.step_released (Ne.symm hfirst))

end Halted

/-! ## §4. Shutting down. -/

/-- What runs is ended, and stays so. -/
theorem endLink_ended (s : Simulation) :
    s.endLink.transfer.map Transfer.ended = s.transfer.map fun _ => true := by
  -- the mark is set before the transfer settles, and no operation takes it away
  show (Simulation.settle _).transfer.map _ = _
  refine settle_rule (P := fun a => a.transfer.map Transfer.ended = s.transfer.map fun _ => true)
    ?_ ?_
  · show (s.transfer.map _).map _ = _
    rw [Option.map_map]
    rfl
  · intro t link w ht _ hworks
    obtain ⟨u, hu, rfl⟩ := Option.map_eq_some_iff.mp ht
    rw [hu]
    exact congrArg some (hworks.ended rfl)

/-- A shutdown ends the transfer. -/
theorem shutdown_ended (s : Simulation) :
    s.shutdown.transfer.map Transfer.ended = s.transfer.map fun _ => true := by
  unfold shutdown
  split
  next =>
    rw [endLink_ended]
    exact congrArg (Option.map _) (publish_transfer _ .stopped)
  next =>
    have hstopped : s.cancel.stop.transfer = s.endLink.transfer := publish_transfer _ _
    rw [hstopped]
    exact s.endLink_ended

/-- **A shutdown halts the supervisor**, wherever it stands. -/
theorem Living.shutdown_halted (h : Living replay s) :
    s.shutdown.Halted ∧ Living replay s.shutdown := by
  have hliving : Living replay s.shutdown := Act.living (p := (.shutdown, .done)) h (.shut rfl)
  -- a transfer that is to end is over as soon as it has settled
  refine ⟨⟨s.shutdown_lifecycle, s.shutdown_watch, ?_⟩, hliving⟩
  rw [hliving.steady.linkIsOver_eq, s.shutdown_ended]
  cases s.transfer <;> rfl

/-- Without a transfer a cancellation does nothing but dismiss the watchdog. -/
theorem cancel_of_free (hfree : s.transfer = none) : s.cancel = s.dismiss := by
  have hsame : s.ending = s := by
    unfold ending
    rw [hfree, Option.map_none, ← hfree]
  unfold cancel endLink
  rw [hsame, settle_of_none hfree]

/-- A watchdog that tries to reconnect has no transfer to wait for. -/
theorem Living.cancel_trying (h : Living replay s) (htrying : s.watch.isTrying = true) :
    s.cancel.links = s.watch.goes s.links := by
  rw [cancel_of_free (h.phase.of_trying htrying).2.1]
  rfl

/-- **Where the watchdog is told to go.**  When it waits for its next look, it first waits for the
transfer, which has ended by then.  An attempt is given up, and with it the link that it would have
brought; a pause is cut short. -/
theorem Living.cancel_links (h : Living replay s) :
    (∀ moment, s.watch = .looking moment →
        s.endLink.linkIsOver = true ∧ s.cancel.links = s.endLink.links)
      ∧ (∀ number link moment, s.watch = .attempting number (.ok link) moment →
        s.cancel.links = s.links.modify link Link.release)
      ∧ (∀ number kind moment, s.watch = .attempting number (.error kind) moment →
        s.cancel.links = s.links)
      ∧ (∀ number moment, s.watch = .pausing number moment → s.cancel.links = s.links) := by
  refine ⟨?_, ?_, ?_, ?_⟩
  · intro moment hwatch
    have halive : s.watch.hasFailed = false := by rw [hwatch]; rfl
    have hunlinked := h.shutdown_halted.1.unlinked
    have hstopped : s.cancel.stop.transfer = s.endLink.transfer := publish_transfer _ _
    rw [shutdown_of_alive halive, linkIsOver_congr hstopped] at hunlinked
    have hsame : s.endLink.watch = s.watch := (Beside.settle _).watch
    refine ⟨hunlinked, ?_⟩
    show s.endLink.watch.goes s.endLink.links = _
    rw [hsame, hwatch]
    rfl
  · intro number link moment hwatch
    rw [h.cancel_trying (by rw [hwatch]; rfl), hwatch]
    rfl
  · intro number kind moment hwatch
    rw [h.cancel_trying (by rw [hwatch]; rfl), hwatch]
    rfl
  · intro number moment hwatch
    rw [h.cancel_trying (by rw [hwatch]; rfl), hwatch]
    rfl

/-- The supervisor has let go of both ends of every link but those that are still
planned. -/
def HoldsNothing (s : Simulation) : Prop :=
  ∀ (n : Nat) (l : Link), s.links[n]? = some l → (∀ a ∈ s.plan, a.link? ≠ some n) →
    l.inbound.readerOpen = false ∧ l.outbound.writerOpen = false

/-- Who has halted holds on to nothing. -/
theorem Halted.holdsNothing (h : s.Halted) (hliving : Living replay s) : s.HoldsNothing := by
  intro n l hl hother
  have hpast : n ∉ s.upcoming := by
    intro hn
    unfold upcoming at hn
    rw [h.unwatched] at hn
    obtain ⟨a, ha, hlink⟩ := List.mem_flatMap.mp hn
    exact hother a ha (Option.mem_toList.mp hlink)
  -- a link that is over has been let go of, and there is no other one
  have hgone : l.inbound.readerOpen = false := by
    by_contra hopen
    exact hliving.none_open h.unlinked n ⟨hpast, l, hl, by simpa using hopen⟩
  exact ⟨hgone, hliving.whole n l hl hgone⟩

/-- **A shutdown takes no time, and is final.**  In whatever state it finds the
supervisor, it returns at once and leaves it stopped, without a watchdog, with
the link over and an empty queue, and both ends of every link let go.  Whatever
is done afterwards, that stays so; from then on nothing is recorded but calls
that do nothing, no planned attempt is made, nothing is read from any link and
nothing written on it; and calls to connect and commands are refused because the
supervisor has been stopped. -/
theorem shutdown_final (pace : Pace) (config : SupervisorConfig) (endpoint : Endpoint)
    (actions : List Action) :
    let s := (start pace config endpoint).run actions
    s.released = false →
      let down := (s.step .shutdown).1
      (s.step .shutdown).2 = .done ∧ down.clock = s.clock
        ∧ ∀ later, let e := down.run later
          e.Halted ∧ e.queue = [] ∧ e.HoldsNothing ∧ (∀ more, Rests e (e.run more))
            ∧ (.drop ∉ later → (e.step .connect).2 = .refused .stopped
              ∧ ∀ command ≠ [], (e.step (.send command)).2 = .refused .stopped) := by
  intro s kept down
  have hwaiting := run_waiting (start_waiting pace config endpoint) actions
  have hdown : s.step .shutdown = (s.shutdown, .done) :=
    call_of_kept kept fun s => (s.shutdown, .ok ())
  have hsame : down = s.shutdown := congrArg Prod.fst hdown
  refine ⟨congrArg Prod.snd hdown, ?_, ?_⟩
  · rw [hsame]
    exact (shutdown_instant s).clock
  · intro later e
    have hhalted : down.Halted := hsame ▸ hwaiting.living.shutdown_halted.1
    have hidles := hhalted.run later
    have hliving : Waiting (start pace config endpoint).replays e :=
      run_waiting (hwaiting.step .shutdown) later
    have hqueue : e.queue = [] := by
      refine (hliving.living.steady.tidy.isOver ?_).2
      unfold isOver
      rw [hidles.halted.stopped]
      exact Bool.or_true _
    refine ⟨hidles.halted, hqueue, hidles.halted.holdsNothing hliving.living,
      fun more => (hidles.halted.run more).rests, ?_⟩
    intro hkept
    have hreleased : e.released = false := by
      rw [hhalted.run_released hkept, hsame]
      exact s.shutdown_released.trans kept
    refine ⟨?_, ?_⟩
    · show (e.call connect).2 = _
      rw [call_of_kept hreleased, hidles.halted.connect]
      rfl
    · intro command hsome
      show (e.call (send · command)).2 = _
      rw [call_of_kept hreleased, hidles.halted.send hsome]
      rfl

/-- In the middle of an attempt to reconnect that would succeed, with a command
queued. -/
theorem shutdown_final_attempting :
    let actions : List Action := [.accept 64 0, .connect, .receiverClose 0, .accept 64 5000,
      .advance 1500, .send [0x53]]
    let s := (start .cooperative {} (.serial {})).run actions
    let down := (s.step .shutdown).1
    let later : List Action := [.receiverWrite 1 [0x24], .accept 64 0, .advance 9000]
    let e := down.run later
    s.deadline? = some 6000 ∧ s.watch.link? = some 1 ∧ s.queue = [.command [0x53]]
      ∧ s.released = false
      ∧ (s.step .shutdown).2 = .done ∧ down.clock = 1500
      ∧ e.clock = 10500 ∧ e.Halted ∧ e.HoldsNothing ∧ Rests down e
      ∧ (e.step .connect).2 = .refused .stopped := by
  intro actions s down later e
  have kept : s.released = false := by decide +kernel
  obtain ⟨hdone, hclock, hlater⟩ := shutdown_final .cooperative {} (.serial {}) actions kept
  obtain ⟨-, -, -, hrests, -⟩ := hlater []
  obtain ⟨hhalted, -, hnothing, -, hrefused⟩ := hlater later
  have hnow : s.clock = 1500 := by decide +kernel
  exact ⟨by decide +kernel, by decide +kernel, by decide +kernel, kept, hdone,
    hclock.trans hnow, by decide +kernel, hhalted, hnothing, hrests later,
    (hrefused (by decide)).1⟩

end Simulation

end ReceiverLink
