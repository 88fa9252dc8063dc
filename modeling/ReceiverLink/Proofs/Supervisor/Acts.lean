/-
  ReceiverLink.Proofs.Supervisor.Acts
  ────────────────────────────────
  **The life of a supervisor, one act at a time.**

  A single step of a scenario may lead a supervisor through many states: while
  time passes the watchdog can lose a link, begin an attempt, see it fail,
  begin another one and bring up a link.  `Act` lists what can happen to the
  life of a supervisor, each act with its condition and with the step that it
  belongs to; all that leaves the life alone is taken together as `Beside`.
  Acts may come in any order that their conditions allow, so what is shown of
  them holds for every interleaving.

  Main statements:
    * `Act.moves` — an act is a sequence of moves;
    * `look_eq_reconnect`, `look_eq_drained`, `look_of_unasked`,
      `look_of_asked` — the four things that a look can come to;
    * `step_acts` — a step of a scenario is a sequence of acts, if the caller
      waits for no attempt before it.
-/
import ReceiverLink.Proofs.Supervisor.Steady

namespace ReceiverLink

/-- An attempt is over: it has succeeded, or it has failed. -/
def Happening.isOutcome : Happening → Bool
  | .connected _ _ => true
  | .connectFailed _ _ => true
  | .reconnected _ => true
  | .reconnectFailed _ _ => true
  | _ => false

/-- Steps that leave the life of a supervisor alone, whatever it is. -/
def Action.isAside : Action → Bool
  | .connect => false
  | .shutdown => false
  | .drop => false
  | .advance _ => false
  | _ => true

/-- How many attempts have begun, and how many of them are over. -/
structure Tally where
  begun : Nat
  ended : Nat
  deriving Repr, DecidableEq

/-- A telling event in the life of a supervisor: a state is published, an
attempt begins, or an attempt is over. -/
def Happening.isVital : Happening → Bool
  | .stateChanged _ _ => true
  | .attempt => true
  | h => h.isOutcome

/-- The transfer brings about nothing of that kind. -/
theorem Happening.isVital_of_transfer {h : Happening} (hside : h.side.ofTransfer = true) :
    h.isVital = false := by
  cases h <;> first | rfl | cases hside

/-- Another port is reached in the same way. -/
theorem Endpoint.setPort_kind {e e' : Endpoint} {text : String} (h : e.setPort text = .ok e') :
    e'.kind = e.kind := by
  have hmap : ∀ {α : Type} {x : Except TransportError α} {f : α → Endpoint},
      x.map f = .ok e' → ∃ a, f a = e' := by
    intro α x f hx
    cases x with
    | ok a => exact ⟨a, Except.ok.inj hx⟩
    | error e => cases hx
  cases e with
  | tcp t =>
    obtain ⟨t', rfl⟩ := hmap (x := t.setPort text) h
    rfl
  | serial t =>
    obtain ⟨t', rfl⟩ := hmap (x := t.setPort text) h
    rfl
  | replay t =>
    obtain ⟨t', rfl⟩ := hmap (x := t.setPort text) h
    rfl

namespace Simulation

variable {s s' s'' : Simulation}

/-! ## §1. What leaves the life of a supervisor alone. -/

/-- The number of the link of the transfer. -/
def current? (s : Simulation) : Option Nat :=
  s.transfer.map Transfer.number

theorem ending_current (s : Simulation) : s.ending.current? = s.current? := by
  show (s.transfer.map _).map _ = s.transfer.map _
  rw [Option.map_map]
  rfl

/-- The link is open on the supervisor's side: it is not one that is still to
be brought up, and the supervisor has not let go of it. -/
def Open (s : Simulation) (n : Nat) : Prop :=
  n ∉ s.upcoming ∧ ∃ link, s.links[n]? = some link ∧ link.inbound.readerOpen = true

/-- The life of the supervisor goes on as it was. -/
structure Beside (s s' : Simulation) : Prop where
  config : s'.config = s.config
  kind : s'.endpoint.kind = s.endpoint.kind
  lifecycle : s'.lifecycle = s.lifecycle
  released : s'.released = s.released
  watch : s'.watch = s.watch
  current : s'.current? = s.current?
  /-- No link is opened. -/
  opened : ∀ n, s'.Open n → s.Open n ∨ s.current? = some n
  record : ∃ hs, s'.happenings = s.happenings ++ hs ∧ ∀ h ∈ hs, h.isVital = false

theorem Open.of_links {n : Nat} (h : s'.Open n) (hlinks : s'.links = s.links)
    (hupcoming : s'.upcoming = s.upcoming) : s.Open n := by
  unfold Open at h ⊢
  rw [← hlinks, ← hupcoming]
  exact h

namespace Beside

/-- Nothing is recorded, and the links are as they were. -/
theorem silent (config : s'.config = s.config) (kind : s'.endpoint.kind = s.endpoint.kind)
    (lifecycle : s'.lifecycle = s.lifecycle) (released : s'.released = s.released)
    (watch : s'.watch = s.watch) (transfer : s'.transfer = s.transfer)
    (links : s'.links = s.links) (upcoming : s'.upcoming = s.upcoming)
    (record : s'.record = s.record) : Beside s s' := by
  have hcurrent : s'.current? = s.current? := congrArg (Option.map _) transfer
  refine ⟨config, kind, lifecycle, released, watch, hcurrent, ?_, [], ?_, ?_⟩
  · intro n hopen
    exact .inl (hopen.of_links links upcoming)
  · unfold happenings
    rw [record, List.append_nil]
  · intro h hmem
    cases hmem

theorem refl (s : Simulation) : Beside s s :=
  .silent rfl rfl rfl rfl rfl rfl rfl rfl rfl

theorem trans (h : Beside s s') (h' : Beside s' s'') : Beside s s'' := by
  obtain ⟨hs, hrecord, hplain⟩ := h.record
  obtain ⟨hs', hrecord', hplain'⟩ := h'.record
  refine ⟨h'.config.trans h.config, h'.kind.trans h.kind, h'.lifecycle.trans h.lifecycle,
    h'.released.trans h.released, h'.watch.trans h.watch, h'.current.trans h.current, ?_,
    hs ++ hs', ?_, ?_⟩
  · intro n hopen
    rcases h'.opened n hopen with hearlier | hcurrent
    · exact h.opened n hearlier
    · exact .inr (h.current.symm.trans hcurrent)
  · rw [hrecord', hrecord, List.append_assoc]
  · intro x hx
    rcases List.mem_append.mp hx with hfirst | hlast
    · exact hplain x hfirst
    · exact hplain' x hlast

theorem note (h : Beside s s') {x : Happening} (hplain : x.isVital = false) :
    Beside s (s'.note x) := by
  apply h.trans
  refine ⟨rfl, rfl, rfl, rfl, rfl, rfl, fun n hopen => .inl hopen, [x], happenings_note _ _, ?_⟩
  intro y hy
  rw [List.mem_singleton.mp hy]
  exact hplain

/-- The transfer does what it can. -/
theorem settle (s : Simulation) : Beside s s.settle := by
  apply settle_rule (refl s)
  intro t link w htransfer hthere hworks
  have hnumber : w.transfer.number = t.number := hworks.same.number
  have hcurrent : s.current? = some t.number := by
    unfold current?
    rw [htransfer]
    rfl
  refine ⟨rfl, rfl, rfl, rfl, rfl, ?_, ?_, w.happenings, happenings_absorb _ _, ?_⟩
  · rw [hcurrent]
    exact congrArg some hnumber
  · rintro n ⟨hpast, l, hl, hopen⟩
    by_cases hn : t.number = n
    · exact .inr (hcurrent.trans (congrArg some hn))
    · rw [getElem?_absorb hnumber hthere, if_neg hn] at hl
      exact .inl ⟨hpast, l, hl, hopen⟩
  · intro x hx
    exact Happening.isVital_of_transfer (recorded_of_works hworks x hx).2

/-- Something is put in the queue. -/
theorem enqueue (h : Beside s s') (item : Outbound) : Beside s (s'.enqueue item) := by
  have hqueue : Beside s' { s' with queue := s'.queue ++ [item] } :=
    .silent rfl rfl rfl rfl rfl rfl rfl rfl rfl
  exact (h.trans hqueue).note rfl

/-- A change of a link does not open it. -/
theorem onLink (s : Simulation) (number : Nat) {f : Link → Link}
    (hf : ∀ l : Link, (f l).inbound.readerOpen = l.inbound.readerOpen) :
    Beside s (s.onLink number f) := by
  have hchanged : Beside s { s with links := s.links.modify number f } := by
    refine ⟨rfl, rfl, rfl, rfl, rfl, rfl, ?_, [], (List.append_nil _).symm, ?_⟩
    · rintro n ⟨hpast, l, hl, hopen⟩
      rw [show Simulation.links _ = s.links.modify number f from rfl, Array.getElem?_modify] at hl
      refine .inl ⟨hpast, ?_⟩
      split at hl
      next =>
        obtain ⟨l', hl', rfl⟩ := Option.map_eq_some_iff.mp hl
        exact ⟨l', hl', (hf l').symm.trans hopen⟩
      next => exact ⟨l, hl, hopen⟩
    · intro x hx
      cases hx
  exact hchanged.trans (settle _)

theorem receiverWrite (number n count : Nat) (bytes : List UInt8) (s : Simulation) :
    Beside s (Simulation.receiverWrite number n count bytes s).1 := by
  induction n generalizing s count bytes with
  | zero => exact refl s
  | succ n ih =>
    unfold Simulation.receiverWrite
    split
    next => exact refl s
    next link hthere =>
      repeat' split
      · exact refl s
      · exact refl s
      · exact refl s
      · exact refl s
      · have hput := onLink s number
          (f := fun l => { l with inbound := l.inbound.put (link.inbound.fitting bytes) })
          fun _ => rfl
        exact hput.trans (ih _ _ _)

theorem receiverRead (number n : Nat) (before : List UInt8) (s : Simulation) :
    Beside s (Simulation.receiverRead number n before s).1 := by
  induction n generalizing s before with
  | zero => exact refl s
  | succ n ih =>
    unfold Simulation.receiverRead
    split
    next => exact refl s
    next link hthere =>
      repeat' split
      · exact refl s
      · exact refl s
      · have hgot := onLink s number
          (f := fun l => { l with outbound := { l.outbound with buffer := [] } }) fun _ => rfl
        exact hgot.trans (ih _ _)

theorem receiverDoes (s : Simulation) (number : Nat) {f : Link → Link}
    (hf : ∀ l : Link, (f l).inbound.readerOpen = l.inbound.readerOpen) :
    Beside s (s.receiverDoes number f).1 := by
  unfold Simulation.receiverDoes
  repeat' split
  · exact onLink s number hf
  · exact refl s
  · exact refl s

theorem send (s : Simulation) (command : List UInt8) : Beside s (s.send command).1 := by
  unfold Simulation.send
  repeat' split
  · exact (refl s).note rfl
  · exact refl s
  · exact refl s
  · exact refl s
  · exact ((refl s).enqueue _).trans (settle _)

theorem setPort (s : Simulation) (text : String) : Beside s (s.setPort text).1 := by
  unfold Simulation.setPort
  split
  next => exact refl s
  next =>
    split
    next endpoint hendpoint =>
      have hchanged : Beside s { s with endpoint := endpoint } :=
        .silent rfl (Endpoint.setPort_kind hendpoint) rfl rfl rfl rfl rfl rfl rfl
      exact hchanged.note rfl
    next => exact refl s

/-- An attempt is planned that brings a new link. -/
theorem accept (s : Simulation) (capacity delay : Nat) :
    Beside s (s.step (.accept capacity delay)).1 := by
  refine ⟨rfl, rfl, rfl, rfl, rfl, rfl, ?_, [], (List.append_nil _).symm, ?_⟩
  · rintro n ⟨hpast, l, hl, hopen⟩
    have hupcoming : (s.step (.accept capacity delay)).1.upcoming = s.upcoming ++ [s.links.size] :=
      s.upcoming_accept capacity delay
    rw [hupcoming, List.mem_append, List.mem_singleton] at hpast
    have hplace : (s.links.push (.new capacity))[n]? = some l := hl
    rw [Array.getElem?_push] at hplace
    split at hplace
    next hn => exact absurd (.inr hn) hpast
    next => exact .inl ⟨fun hn => hpast (.inl hn), l, hplace, hopen⟩
  · intro x hx
    cases hx

/-- An attempt is planned that brings none. -/
theorem refuse (s : Simulation) (kind : IoKind) (delay : Nat) :
    Beside s (s.step (.refuse kind delay)).1 := by
  refine .silent rfl rfl rfl rfl rfl rfl rfl ?_ rfl
  show s.watch.link?.toList ++ (s.plan ++ [_]).flatMap _ = s.upcoming
  rw [List.flatMap_append]
  simp [Attempt.link?, Except.toOption, upcoming]

/-- A call leaves the life alone if what it does leaves it alone. -/
theorem call {f : Simulation → Simulation × Except SupervisorError Unit} (h : Beside s (f s).1) :
    Beside s (s.call f).1 := by
  unfold Simulation.call
  split
  next => exact refl s
  next => exact h

end Beside

/-! ## §2. Acts. -/

/-- The attempt that would be made now, and the plan after it.  Without a plan
an attempt is refused at once. -/
def nextAttempt (s : Simulation) : Attempt × List Attempt :=
  match s.plan with
  | [] => (⟨.error .connectionRefused, 0⟩, [])
  | a :: plan => (a, plan)

theorem nextAttempt_of_nil (h : s.plan = []) :
    s.nextAttempt = (⟨.error .connectionRefused, 0⟩, []) := by
  unfold nextAttempt
  rw [h]

theorem nextAttempt_of_cons {a : Attempt} {plan : List Attempt} (h : s.plan = a :: plan) :
    s.nextAttempt = (a, plan) := by
  unfold nextAttempt
  rw [h]

/-- The links still to be brought up are that of the attempt and those of the
plan after it. -/
theorem upcoming_nextAttempt (s : Simulation) :
    s.upcoming = s.watch.link?.toList
      ++ (s.nextAttempt.1.link?.toList ++ s.nextAttempt.2.flatMap (·.link?.toList)) := by
  unfold upcoming nextAttempt
  cases s.plan with
  | nil => rfl
  | cons a plan => rfl

/-- The attempts that have been made. -/
def tally (s : Simulation) : Tally :=
  ⟨s.happenings.count .attempt, s.happenings.countP Happening.isOutcome⟩

/-- Every attempt so far is over. -/
def Idle (s : Simulation) : Prop :=
  s.tally.begun = s.tally.ended

/-- One attempt is not over. -/
def Busy (s : Simulation) : Prop :=
  s.tally.begun = s.tally.ended + 1

/-- The caller waits for no attempt. -/
def Quiet (s : Simulation) : Prop :=
  s.lifecycle = .disconnected → s.Idle

/-- The caller's attempt has begun and is not over yet. -/
structure Calling (s : Simulation) : Prop where
  fresh : s.lifecycle = .disconnected
  kept : s.released = false
  busy : s.Busy

theorem tally_note (s : Simulation) (x : Happening) :
    (s.note x).tally
      = ⟨s.tally.begun + [x].count .attempt, s.tally.ended + [x].countP Happening.isOutcome⟩ := by
  unfold tally
  rw [happenings_note, List.count_append, List.countP_append]

theorem Idle.congr (h : s.Idle) (tally : s'.tally = s.tally) : s'.Idle := by
  unfold Idle
  rw [tally]
  exact h

theorem Busy.congr (h : s.Busy) (tally : s'.tally = s.tally) : s'.Busy := by
  unfold Busy
  rw [tally]
  exact h

/-- An attempt begins. -/
theorem Idle.busy (h : s.Idle) (begun : s'.tally = ⟨s.tally.begun + 1, s.tally.ended⟩) :
    s'.Busy := by
  unfold Busy
  rw [begun]
  exact congrArg (· + 1) h

/-- The attempt in progress ends. -/
theorem Busy.idle (h : s.Busy) (ended : s'.tally = ⟨s.tally.begun, s.tally.ended + 1⟩) :
    s'.Idle := by
  unfold Idle
  rw [ended]
  exact h

/-- A new state is no attempt. -/
theorem publish_tally (s : Simulation) (new : Lifecycle) : (s.publish new).tally = s.tally := by
  unfold publish
  split
  next => rfl
  next => exact tally_note { s with lifecycle := new } _

/-- Nothing is recorded that tells of the life, so no attempt either. -/
theorem tally_of_plain
    (h : ∃ hs, s'.happenings = s.happenings ++ hs ∧ ∀ h ∈ hs, h.isVital = false) :
    s'.tally = s.tally := by
  obtain ⟨hs, hrecord, hplain⟩ := h
  have hattempts : hs.count .attempt = 0 := by
    rw [List.count_eq_zero]
    intro hmem
    cases hplain _ hmem
  have houtcomes : hs.countP Happening.isOutcome = 0 := by
    rw [List.countP_eq_zero]
    intro x hx houtcome
    have hvital : x.isVital = true := by
      cases x <;> first | rfl | exact houtcome
    rw [hplain x hx] at hvital
    cases hvital
  unfold Simulation.tally
  rw [hrecord, List.count_append, List.countP_append, hattempts, houtcomes]
  rfl

theorem Beside.tally (h : Beside s s') : s'.tally = s.tally :=
  tally_of_plain h.record

/-- The caller's attempt has succeeded. -/
def connected (s : Simulation) (link : Nat) : Simulation :=
  { { s with plan := s.nextAttempt.2, clock := s.clock + s.nextAttempt.1.delay }.note
      (.connected s.endpoint.text s.endpoint.kind) with handedOver := true }.linkUp link

/-- The link of the transfer is lost, and the watchdog is about to try again. -/
def lost (s : Simulation) : Simulation :=
  { ({ s with transfer := none }.note (.connectionLost s.endpoint.text)).publish .reconnecting with
    watch := .pausing 0 s.clock }

/-- The recording has come to its end, and the watchdog goes. -/
def drained (s : Simulation) : Simulation :=
  (({ s with transfer := none }.note (.replayFinished s.endpoint.text)).publish .drained).dismiss

/-- The attempt of the watchdog with the given number has begun. -/
def attempted (s : Simulation) (number : Nat) : Simulation :=
  { { s with plan := s.nextAttempt.2 }.note .attempt with
    watch := .attempting number s.nextAttempt.1.outcome (s.clock + s.nextAttempt.1.delay) }

@[simp] theorem lost_lifecycle (s : Simulation) : s.lost.lifecycle = .reconnecting :=
  publish_lifecycle _ _

@[simp] theorem drained_lifecycle (s : Simulation) : s.drained.lifecycle = .drained :=
  publish_lifecycle _ _

@[simp] theorem shutdown_lifecycle (s : Simulation) : s.shutdown.lifecycle = .stopped := by
  unfold shutdown
  split
  next => exact (settle_lifecycle _).trans (stop_lifecycle _)
  next => exact stop_lifecycle _

/-- What can happen to the life of a supervisor in a step of a scenario with the
given answer. -/
inductive Act (p : Action × Answer) (s : Simulation) : Simulation → Prop
  /-- Time passes, bytes move, something is queued or planned. -/
  | aside {s' : Simulation} (moves : ∃ es, Moves s es s') (beside : Beside s s') : Act p s s'
  /-- The caller's attempt begins. -/
  | call (step : p.1 = .connect) (fresh : s.lifecycle = .disconnected)
      (kept : s.released = false) (idle : s.Idle) : Act p s (s.note .attempt)
  /-- It has failed. -/
  | refuse {kind : IoKind} (step : p.1 = .connect) (answer : p.2 ≠ .done) (calling : s.Calling)
      (outcome : s.nextAttempt.1.outcome = .error kind) :
      Act p s ({ s with plan := s.nextAttempt.2
                        clock := s.clock + s.nextAttempt.1.delay }.connectFailed kind).1
  /-- It has succeeded. -/
  | bring {link : Nat} (step : p = (.connect, .done)) (calling : s.Calling)
      (outcome : s.nextAttempt.1.outcome = .ok link) : Act p s (s.connected link)
  /-- The watchdog has found the link up, and will look again. -/
  | keep {moment next : Nat} (watch : s.watch = .looking moment) (up : s.linkIsOver = false) :
      Act p s { s with watch := .looking next }
  /-- The watchdog has found the link of a receiver over. -/
  | lose {moment : Nat} (watch : s.watch = .looking moment) (finished : s.linkIsOver = true)
      (live : s.replays = false) : Act p s s.lost
  /-- The watchdog has found the link of a recording over. -/
  | finish {moment : Nat} (watch : s.watch = .looking moment) (finished : s.linkIsOver = true)
      (replay : s.replays = true) : Act p s s.drained
  /-- The watchdog's next attempt begins. -/
  | attempt {number moment : Nat} (watch : s.watch = .pausing number moment) :
      Act p s (s.attempted (number + 1))
  /-- It has failed. -/
  | fail {number moment pause : Nat} {kind : IoKind}
      (watch : s.watch = .attempting number (.error kind) moment) :
      Act p s (s.reconnectFailed number kind pause)
  /-- It has succeeded. -/
  | succeed {number link moment : Nat} (watch : s.watch = .attempting number (.ok link) moment) :
      Act p s (s.reconnected link)
  | shut (step : p = (.shutdown, .done)) : Act p s s.shutdown
  | release (step : p = (.drop, .done)) : Act p s s.release

/-- Acts of one step, one after the other. -/
abbrev Acts (p : Action × Answer) : Simulation → Simulation → Prop :=
  Relation.ReflTransGen (Act p)

variable {p : Action × Answer}

/-! ## §3. Acts are moves. -/

/-- While there is a watchdog not all is over. -/
theorem Tidy.going_of_watch (h : Tidy s) (hwatch : s.watch ≠ .off) : s.isOver = false := by
  cases hover : s.isOver with
  | false => rfl
  | true => exact absurd (h.isOver hover).1 hwatch

/-- **An act is a sequence of moves.** -/
theorem Act.moves (h : Tidy s) (act : Act p s s') : ∃ es, Moves s es s' := by
  cases act with
  | aside moves => exact moves
  | call => exact ⟨[], note_moves s rfl⟩
  | refuse _ _ _ outcome =>
    have happart : Apart s { s with
        plan := s.nextAttempt.2, clock := s.clock + s.nextAttempt.1.delay } :=
      .silent rfl rfl rfl rfl rfl
    refine ⟨[], .calm (.steer (happart.note rfl) rfl ?_ rfl (.inl rfl) .inl)⟩
    rw [upcoming_nextAttempt s]
    exact (List.sublist_append_right _ _).append_left _
  | @bring link _ calling outcome =>
    have happart : Apart s { s with
        plan := s.nextAttempt.2, clock := s.clock + s.nextAttempt.1.delay } :=
      .silent rfl rfl rfl rfl rfl
    have hconnected := happart.note (x := .connected s.endpoint.text s.endpoint.kind) rfl
    -- a caller who may connect has neither stopped the supervisor nor let go of it
    have hstill : s.isOver = false := by
      unfold isOver
      rw [calling.kept, calling.fresh]
      rfl
    refine ⟨[], linkUp_moves ?_ (h.free (.inl calling.fresh)) hstill (h.alive (.inl calling.fresh))
      calling.kept ?_⟩
    · exact hconnected.trans (.silent rfl rfl rfl rfl rfl)
    · rw [upcoming_nextAttempt s, Attempt.link?_of_outcome outcome]
      exact List.sublist_append_right _ _
  | @keep _ next watch =>
    have hgoing := h.going_of_watch (by rw [watch]; exact Watch.noConfusion)
    have hturns : Turns s { s with watch := .looking next } := ⟨hgoing, by rw [watch]; rfl, rfl⟩
    refine ⟨[], .calm (.steer (.silent rfl rfl rfl rfl rfl) rfl ?_ rfl (.inr hturns) ?_)⟩
    · exact List.sublist_append_right _ _
    · rintro (hlifecycle | htrying)
      · exact .inl (.inl hlifecycle)
      · cases htrying
  | lose watch finished =>
    -- the transfer goes first, and then the watchdog turns to the attempts
    have hgoing := h.going_of_watch (by rw [watch]; exact Watch.noConfusion)
    have hreleased : s.released = false := (Bool.or_eq_false_iff.mp hgoing).1
    have hlost : Apart { s with transfer := none } s.lost :=
      (((Apart.refl _).note rfl).publish .reconnecting).trans (.silent rfl rfl rfl rfl rfl)
    have hstill : s.lost.isOver = false := by
      show ((publish _ _).released || (publish _ _).lifecycle.isTerminal) = false
      rw [publish_released, publish_lifecycle]
      exact Bool.or_eq_false_iff.mpr ⟨hreleased, rfl⟩
    have hturns : Turns { s with transfer := none } s.lost :=
      ⟨hgoing, by rw [watch]; rfl, rfl⟩
    refine ⟨[], (Moves.calm (.detach finished)).andThen
      (.calm (.steer hlost (publish_transfer _ _) ?_ ?_ (.inr hturns) fun _ => .inr ⟨rfl, rfl⟩))⟩
    · show ([] ++ (publish _ _).plan.flatMap _).Sublist _
      rw [publish_plan]
      exact List.sublist_append_right _ _
    · exact hstill.trans hgoing.symm
  | finish watch finished =>
    refine ⟨[], (Moves.calm (.detach finished)).andThen ?_⟩
    exact finish_moves (s := { s with transfer := none }) (congrArg Watch.link? watch)
  | @attempt number moment watch =>
    have hgoing := h.going_of_watch (by rw [watch]; exact Watch.noConfusion)
    have htrying : s.watch.isTrying = true := by
      rw [watch]
      rfl
    have happart : Apart s { s with plan := s.nextAttempt.2 } :=
      .silent rfl rfl rfl rfl rfl
    have hturns : Turns s (s.attempted (number + 1)) := ⟨hgoing, by rw [watch]; rfl, rfl⟩
    refine ⟨[], .calm (.steer ((happart.note rfl).trans (.silent rfl rfl rfl rfl rfl)) rfl ?_ rfl
      (.inr hturns) fun _ => .inl (.inr htrying))⟩
    -- what the watchdog waits for is the first of what is to come
    rw [upcoming_nextAttempt s]
    exact List.sublist_append_right _ _
  | fail watch =>
    have hgoing := h.going_of_watch (by rw [watch]; exact Watch.noConfusion)
    have hfree : s.transfer = none := h.free (.inr (by rw [watch]; rfl))
    exact ⟨[], reconnectFailed_moves _ _ _ hgoing (by rw [watch]; rfl) hfree⟩
  | succeed watch =>
    have hgoing := h.going_of_watch (by rw [watch]; exact Watch.noConfusion)
    have hfree : s.transfer = none := h.free (.inr (by rw [watch]; rfl))
    have hreleased : s.released = false := (Bool.or_eq_false_iff.mp hgoing).1
    refine ⟨[], linkUp_moves ((Apart.refl s).note rfl) hfree hgoing ?_ hreleased ?_⟩
    · rw [watch]
      rfl
    unfold upcoming
    rw [watch]
    exact List.Sublist.refl _
  | shut =>
    obtain ⟨es, hmoves, -⟩ := s.shutdown_moves
    exact ⟨es, hmoves⟩
  | release =>
    obtain ⟨es, hmoves, -⟩ := s.release_moves
    exact ⟨es, hmoves⟩

theorem Act.tidy (h : Tidy s) (act : Act p s s') : Tidy s' := by
  obtain ⟨es, hmoves⟩ := act.moves h
  exact hmoves.tidy h

theorem Acts.tidy (h : Tidy s) (acts : Acts p s s') : Tidy s' := by
  induction acts with
  | refl => exact h
  | tail _ act ih => exact act.tidy ih

/-! ## §4. The functions of a supervisor are sequences of acts. -/

/-- Time passes. -/
theorem clock_act (s : Simulation) (moment : Nat) : Act p s { s with clock := moment } :=
  .aside ⟨[], s.clock_moves moment⟩ (.silent rfl rfl rfl rfl rfl rfl rfl rfl rfl)

/-- What the watchdog waits for is not published. -/
theorem publish_of_watch (s : Simulation) (watch : Watch) (new : Lifecycle) :
    publish { s with watch := watch } new = { s.publish new with watch := watch } := by
  unfold publish
  by_cases hsame : s.lifecycle = new
  · rw [if_pos hsame, if_pos hsame]
  · rw [if_neg hsame, if_neg hsame]
    rfl

/-- Whatever the watchdog has waited for, it looks at a link that is up. -/
theorem reconnected_of_watch (s : Simulation) (watch : Watch) (link : Nat) :
    reconnected { s with watch := watch } link = s.reconnected link := by
  unfold reconnected linkUp
  show ({ publish { s.note _ with watch := watch } .active with watch := _ }).startTransfer _ = _
  rw [publish_of_watch]
  rfl

/-- Nor does it matter for trying to reconnect. -/
theorem reconnect_of_watch (s : Simulation) (watch : Watch) (number : Nat) (plan : List Attempt) :
    reconnect { s with watch := watch } number plan = s.reconnect number plan := by
  cases plan with
  | nil => rfl
  | cons a plan =>
    unfold reconnect
    dsimp only
    by_cases hdelay : 0 < a.delay
    · rw [if_pos hdelay, if_pos hdelay]
      rfl
    · rw [if_neg hdelay, if_neg hdelay]
      cases a.outcome with
      | ok link => exact reconnected_of_watch ({ s with plan := plan }.note .attempt) watch link
      | error kind => rfl

/-- **Trying to reconnect** is one attempt after the other. -/
theorem reconnect_acts {plan : List Attempt} {number moment : Nat}
    (hwatch : s.watch = .pausing number moment) (hplan : s.plan = plan) :
    Acts p s (s.reconnect (number + 1) plan) := by
  have hattempt : Act p s (s.attempted (number + 1)) := .attempt hwatch
  induction plan generalizing s number moment with
  | nil =>
    have hnext := nextAttempt_of_nil hplan
    have hbegun : (s.attempted (number + 1)).watch
        = .attempting (number + 1) (.error .connectionRefused) (s.clock + 0) := by
      unfold attempted
      rw [hnext]
    have hend : (s.attempted (number + 1)).reconnectFailed (number + 1) .connectionRefused
        s.restPause = s.reconnect (number + 1) [] := by
      unfold attempted
      rw [hnext]
      rfl
    have hfailed : Act p (s.attempted (number + 1)) (s.reconnect (number + 1) []) :=
      hend ▸ .fail hbegun
    exact (Relation.ReflTransGen.single hattempt).tail hfailed
  | cons a plan ih =>
    let begun : Simulation := { s with plan := plan }.note .attempt
    have hbegun : s.attempted (number + 1)
        = { begun with watch := .attempting (number + 1) a.outcome (s.clock + a.delay) } := by
      unfold attempted
      rw [nextAttempt_of_cons hplan]
    rw [hbegun] at hattempt
    unfold reconnect
    dsimp only
    split
    next => exact .single hattempt
    next =>
      split
      next link hlink =>
        -- the link is up in the moment in which the attempt began
        rw [hlink] at hattempt
        have hup := Act.succeed (p := p) (s := { begun with
          watch := .attempting (number + 1) (.ok link) (s.clock + a.delay) }) rfl
        rw [reconnected_of_watch] at hup
        exact (Relation.ReflTransGen.single hattempt).tail hup
      next kind hkind =>
        rw [hkind] at hattempt
        let failed : Simulation := begun.reconnectFailed (number + 1) kind s.config.reconnect
        have hfailed : Act p { begun with
            watch := .attempting (number + 1) (.error kind) (s.clock + a.delay) } failed :=
          .fail rfl
        have hacts := (Relation.ReflTransGen.single hattempt).tail hfailed
        split
        next => exact hacts.trans (ih (s := failed) rfl rfl (.attempt rfl))
        next => exact hacts

/-- A link that is over is lost, and the watchdog tries to reconnect. -/
theorem look_eq_reconnect (sound : s.linkHasFailed = false) (hover : s.linkIsOver = true)
    (live : s.replays = false) : s.look = s.lost.reconnect 1 s.lost.plan := by
  have hnot : ¬ replays { s with transfer := none } = true := by
    show ¬ s.replays = true
    rw [live]
    exact Bool.false_ne_true
  rw [look_of_sound sound]
  unfold inspect lost
  rw [if_pos hover, reconnect_of_watch]
  dsimp only
  rw [if_neg hnot, publish_plan]

/-- A recording that is over is drained. -/
theorem look_eq_drained (sound : s.linkHasFailed = false) (hover : s.linkIsOver = true)
    (plays : s.replays = true) : s.look = s.drained := by
  rw [look_of_sound sound]
  unfold inspect
  exact (if_pos hover).trans (if_pos plays)

/-- A link that is up is looked at again after an interval. -/
theorem look_of_unasked (sound : s.linkHasFailed = false) (up : s.linkIsOver = false)
    (unasked : s.keepsAlive = false) :
    s.look = { s with watch := .looking (s.clock + s.config.watchdog) } := by
  rw [look_of_sound sound]
  unfold inspect
  rw [up, if_neg Bool.false_ne_true]
  exact if_neg (ne_true_of_eq_false unasked)

/-- And if it is to be kept alive, a keepalive is queued. -/
theorem look_of_asked (sound : s.linkHasFailed = false) (up : s.linkIsOver = false)
    (asked : s.keepsAlive = true) :
    s.look = ((enqueue { s with watch := .looking (s.clock + s.config.watchdog) } .keepalive).note
      .ping).settle := by
  rw [look_of_sound sound]
  unfold inspect
  rw [up, if_neg Bool.false_ne_true]
  exact if_pos asked

/-- The watchdog looks at the link. -/
theorem look_acts (h : Tidy s) {moment : Nat} (hwatch : s.watch = .looking moment) :
    Acts p s s.look := by
  cases hover : s.linkIsOver with
  | true =>
    cases hmode : s.replays with
    | true =>
      rw [look_eq_drained h.sound hover hmode]
      exact .single (.finish hwatch hover hmode)
    | false =>
      have hlost : Act p s s.lost := .lose hwatch hover hmode
      rw [look_eq_reconnect h.sound hover hmode]
      exact (Relation.ReflTransGen.single hlost).trans (reconnect_acts rfl rfl)
  | false =>
    let looking : Simulation := { s with watch := .looking (s.clock + s.config.watchdog) }
    have hkeep : Act p s looking := .keep hwatch hover
    cases hasked : s.keepsAlive with
    | false =>
      rw [look_of_unasked h.sound hover hasked]
      exact .single hkeep
    | true =>
      -- a keepalive is queued at each look at a network link
      have hgoing := h.going_of_watch (by rw [hwatch]; exact Watch.noConfusion)
      have hqueued : Beside looking ((looking.enqueue .keepalive).note .ping) :=
        ((Beside.refl looking).enqueue .keepalive).note rfl
      have hping : Act p looking ((looking.enqueue .keepalive).note .ping).settle :=
        .aside ⟨_, .stir (.enqueue .keepalive hgoing rfl ((Apart.refl _).note rfl) rfl rfl rfl rfl
          Iff.rfl)⟩ (hqueued.trans (.settle _))
      rw [look_of_asked h.sound hover hasked]
      exact (Relation.ReflTransGen.single hkeep).tail hping

/-- **The watchdog acts.** -/
theorem wake_acts (h : Tidy s) : Acts p s s.wake := by
  unfold wake
  split
  next => exact .refl
  next hwatch => exact look_acts h hwatch
  next hwatch => exact .single (.succeed hwatch)
  next number kind moment hwatch =>
    have hfailed : Act p s (s.reconnectFailed number kind s.config.reconnect) := .fail hwatch
    dsimp only
    split
    next => exact (Relation.ReflTransGen.single hfailed).trans (reconnect_acts rfl rfl)
    next => exact .single hfailed
  next hwatch => exact reconnect_acts hwatch rfl
  next => exact .refl

theorem runUntil_acts (moment n : Nat) (h : Tidy s) : Acts p s (runUntil moment n s) := by
  induction n generalizing s with
  | zero => exact .single (s.clock_act moment)
  | succ n ih =>
    unfold runUntil
    split
    next => exact .single (s.clock_act moment)
    next t hdeadline =>
      split
      next =>
        have hclock : Act p s { s with clock := max s.clock t } := s.clock_act _
        have hacts := (Relation.ReflTransGen.single hclock).trans (wake_acts (hclock.tidy h))
        exact hacts.trans (ih (Acts.tidy h hacts))
      next => exact .single (s.clock_act moment)

/-! ## §5. Steps. -/

/-- Once a call to connect has succeeded, another one changes nothing. -/
theorem connect_of_begun (begun : s.lifecycle ≠ .disconnected) : s.connect.1 = s := by
  unfold connect
  cases hlifecycle : s.lifecycle with
  | disconnected => exact absurd hlifecycle begun
  | _ => rfl

/-- What a call to connect does when its attempt fails.  Without a plan nothing
is planned afterwards either, and the attempt takes no time. -/
theorem connect_of_error (fresh : s.lifecycle = .disconnected) {kind : IoKind}
    (outcome : s.nextAttempt.1.outcome = .error kind) :
    s.connect = connectFailed
      { s.note .attempt with plan := s.nextAttempt.2, clock := s.clock + s.nextAttempt.1.delay }
      kind := by
  unfold connect
  rw [fresh]
  cases hplan : s.plan with
  | nil =>
    have hsame : { s.note .attempt with plan := [], clock := s.clock + 0 } = s.note .attempt := by
      rw [← hplan]
      rfl
    rw [nextAttempt_of_nil hplan] at outcome ⊢
    cases outcome
    rw [hsame]
  | cons a plan =>
    rw [nextAttempt_of_cons hplan] at outcome ⊢
    dsimp only at outcome ⊢
    rw [outcome]

/-- What it does when its attempt succeeds. -/
theorem connect_of_ok (fresh : s.lifecycle = .disconnected) {link : Nat}
    (outcome : s.nextAttempt.1.outcome = .ok link) :
    s.connect = ((s.note .attempt).connected link, .ok ()) := by
  unfold connect connected
  rw [fresh]
  cases hplan : s.plan with
  | nil =>
    rw [nextAttempt_of_nil hplan] at outcome
    cases outcome
  | cons a plan =>
    have hnext : (s.note .attempt).nextAttempt = (a, plan) := nextAttempt_of_cons hplan
    rw [nextAttempt_of_cons hplan] at outcome
    rw [hnext]
    dsimp only at outcome ⊢
    rw [outcome]
    rfl

/-- **The caller connects**: an attempt begins, and fails or succeeds. -/
theorem connect_acts (quiet : s.Quiet) (kept : s.released = false) :
    Acts (.connect, .ofCall s.connect.2) s s.connect.1 := by
  by_cases fresh : s.lifecycle = .disconnected
  · have hcalling : Calling (s.note .attempt) :=
      ⟨fresh, kept, (quiet fresh).busy (tally_note s _)⟩
    have hcall : ∀ answer, Acts (.connect, answer) s (s.note .attempt) :=
      fun _ => .single (.call rfl fresh kept (quiet fresh))
    cases houtcome : s.nextAttempt.1.outcome with
    | error kind =>
      rw [connect_of_error fresh houtcome]
      exact (hcall _).tail (.refuse rfl Answer.noConfusion hcalling houtcome)
    | ok link =>
      rw [connect_of_ok fresh houtcome]
      exact (hcall _).tail (.bring rfl hcalling houtcome)
  · rw [connect_of_begun fresh]

/-- **A step leaves the life alone**, unless it is a call to connect, to shut down
or to let go, or lets time pass. -/
theorem step_beside (s : Simulation) {a : Action} (h : a.isAside = true) :
    Beside s (s.step a).1 := by
  cases a with
  | accept capacity delay => exact .accept s capacity delay
  | refuse kind delay => exact .refuse s kind delay
  | send command => exact .call (.send s command)
  | setPort text => exact .call (.setPort s text)
  | dropConsumer => exact .silent rfl rfl rfl rfl rfl rfl rfl rfl rfl
  | fail number operation kind =>
    apply Beside.onLink
    intro l
    cases operation <;> rfl
  | receiverWrite number bytes => exact .receiverWrite _ _ _ _ s
  | receiverRead number => exact .receiverRead _ _ _ s
  | receiverShutdown number => exact .receiverDoes s number fun _ => rfl
  | receiverClose number => exact .receiverDoes s number fun _ => rfl
  | connect => cases h
  | shutdown => cases h
  | drop => cases h
  | advance => cases h

/-- A step that leaves the life alone is an act of its own. -/
theorem beside_acts (h : Tidy s) {a : Action} (hbeside : Beside s (s.step a).1) :
    Acts (a, (s.step a).2) s (s.step a).1 := by
  obtain ⟨es, hmoves, -⟩ := step_moves h a
  exact .single (.aside ⟨es, hmoves⟩ hbeside)

/-- A call is the acts of what it does, while the caller has the supervisor. -/
theorem call_acts {a : Action} {f : Simulation → Simulation × Except SupervisorError Unit}
    (h : s.released = false → Acts (a, .ofCall (f s).2) s (f s).1) :
    Acts (a, (s.call f).2) s (s.call f).1 := by
  unfold Simulation.call
  split
  next => exact .refl
  next hreleased => exact h (by simpa using hreleased)

/-- **A step of a scenario is a sequence of acts.** -/
theorem step_acts (h : Tidy s) (quiet : s.Quiet) (a : Action) :
    Acts (a, (s.step a).2) s (s.step a).1 := by
  cases a with
  | connect => exact call_acts fun kept => connect_acts quiet kept
  | shutdown => exact call_acts fun _ => .single (.shut rfl)
  | drop => exact call_acts fun _ => .single (.release rfl)
  | advance ms => exact runUntil_acts _ ms h
  | _ => exact beside_acts h (step_beside s rfl)

end Simulation

end ReceiverLink
