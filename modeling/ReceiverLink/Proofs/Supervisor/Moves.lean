/-
  ReceiverLink.Proofs.Supervisor.Moves
  ────────────────────────────────
  **What can happen to a supervisor, one move at a time.**

  The calls, the watchdog and the receiver change a supervisor in many ways,
  but only a few of them touch its queue, its transfer or its links.  `Move`
  lists these few with their conditions, and takes everything else together as
  steering.  A move carries what came from outside with it (`Influence`): bytes
  that the receiver has put on a link or got from one, a failure prepared for
  a read, a cancellation, the consumer's going away.

  Every function of a supervisor is a sequence of moves, so what each move
  keeps is kept by a whole run.

  Main statements:
    * `Moves.induction` — what each move keeps is kept by all;
    * `Moves.tidy` — once all is over nothing is queued and nobody watches;
    * `connect_moves`, `send_moves`, `elapse_moves` and so on — what the calls
      and the watchdog do is a sequence of moves.
-/
import ReceiverLink.Proofs.Supervisor.Operations
import ReceiverLink.Supervisor.Scenario

namespace ReceiverLink

/-! ## §1. Links to come. -/

/-- The link that an attempt in progress will bring. -/
def Watch.link? : Watch → Option Nat
  | .attempting _ outcome _ => outcome.toOption
  | _ => none

/-- The watchdog is trying to connect. -/
def Watch.isTrying : Watch → Bool
  | .attempting _ _ _ => true
  | .pausing _ _ => true
  | _ => false

/-- The link that an attempt will bring. -/
def Attempt.link? (a : Attempt) : Option Nat :=
  a.outcome.toOption

theorem Attempt.link?_of_outcome {a : Attempt} {link : Nat} (h : a.outcome = .ok link) :
    a.link? = some link := by
  unfold Attempt.link?
  rw [h]
  rfl

/-- The states before and after a change. -/
def Happening.published? : Happening → Option (Lifecycle × Lifecycle)
  | .stateChanged old new => some (old, new)
  | _ => none

/-- An attempt to connect. -/
def Happening.attempt? : Happening → Option Unit
  | .attempt => some ()
  | _ => none

/-- The command that an item is. -/
def Outbound.command? : Outbound → Option (List UInt8)
  | .command bytes => some bytes
  | .keepalive => none

namespace Simulation

/-- A supervisor to which nothing has been done. -/
def start (pace : Pace) (config : SupervisorConfig) (endpoint : Endpoint) : Simulation :=
  { pace, config, endpoint }

/-- What has been recorded, in order. -/
def happenings (s : Simulation) : List Happening :=
  s.record.toList.map Prod.snd

/-- The links that are still to be brought up, in order. -/
def upcoming (s : Simulation) : List Nat :=
  s.watch.link?.toList ++ s.plan.flatMap (·.link?.toList)

/-- Nothing will be sent or watched any more. -/
def isOver (s : Simulation) : Bool :=
  s.released || s.lifecycle.isTerminal

/-- A link may be brought up: none has been yet, or the last one is lost. -/
def MayOpen (s : Simulation) : Prop :=
  s.lifecycle = .disconnected ∨ s.watch.isTrying = true

/-- A transfer of the supervisor, ready to work. -/
def working (s : Simulation) (t : Transfer) (link : Link) : Working :=
  { pace := s.pace, transfer := t, link := link, queue := s.queue, consumer := s.consumer,
    now := s.clock }

/-- Take over what a transfer has done. -/
def absorb (s : Simulation) (w : Working) : Simulation :=
  { s with
    transfer := some w.transfer
    links := s.links.setIfInBounds w.transfer.number w.link
    queue := if s.watch.hasFailed && w.transfer.isDone then [] else w.queue
    record := s.record ++ w.record.map fun h => (s.clock, h) }

/-! ## §2. Steering. -/

/-- Nothing changes of the queue and the links, and only the calls and the
watchdog are recorded. -/
structure Apart (s s' : Simulation) : Prop where
  config : s'.config = s.config
  queue : s'.queue = s.queue
  consumer : s'.consumer = s.consumer
  links : s'.links = s.links
  record : ∃ hs, s'.happenings = s.happenings ++ hs ∧ ∀ h ∈ hs, h.side = .steering

theorem happenings_note (s : Simulation) (h : Happening) :
    (s.note h).happenings = s.happenings ++ [h] := by
  simp [note, happenings]

theorem happenings_absorb (s : Simulation) (w : Working) :
    (s.absorb w).happenings = s.happenings ++ w.happenings := by
  simp [absorb, happenings, Working.happenings, Function.comp_def]

namespace Apart

variable {s s' s'' : Simulation}

/-- Nothing is recorded. -/
theorem silent (config : s'.config = s.config) (queue : s'.queue = s.queue)
    (consumer : s'.consumer = s.consumer) (links : s'.links = s.links)
    (record : s'.record = s.record) : Apart s s' := by
  refine ⟨config, queue, consumer, links, [], ?_, ?_⟩
  · unfold happenings
    rw [record, List.append_nil]
  · intro h hmem
    cases hmem

theorem refl (s : Simulation) : Apart s s :=
  .silent rfl rfl rfl rfl rfl

theorem trans (h : Apart s s') (h' : Apart s' s'') : Apart s s'' := by
  obtain ⟨hs, hrecord, hside⟩ := h.record
  obtain ⟨hs', hrecord', hside'⟩ := h'.record
  refine ⟨h'.config.trans h.config, h'.queue.trans h.queue, h'.consumer.trans h.consumer,
    h'.links.trans h.links, hs ++ hs', ?_, ?_⟩
  · rw [hrecord', hrecord, List.append_assoc]
  · intro x hx
    rcases List.mem_append.mp hx with hfirst | hlast
    · exact hside x hfirst
    · exact hside' x hlast

theorem note (h : Apart s s') {x : Happening} (hside : x.side = .steering) :
    Apart s (s'.note x) := by
  refine h.trans ⟨rfl, rfl, rfl, rfl, [x], happenings_note _ _, ?_⟩
  simpa using hside

theorem publish (h : Apart s s') (new : Lifecycle) : Apart s (s'.publish new) := by
  unfold Simulation.publish
  split
  next => exact h
  next =>
    have hlifecycle : Apart s { s' with lifecycle := new } :=
      ⟨h.config, h.queue, h.consumer, h.links, h.record⟩
    exact hlifecycle.note rfl

end Apart

@[simp] theorem publish_lifecycle (s : Simulation) (new : Lifecycle) :
    (s.publish new).lifecycle = new := by
  unfold publish
  split <;> simp_all [note]

@[simp] theorem publish_released (s : Simulation) (new : Lifecycle) :
    (s.publish new).released = s.released := by
  unfold publish
  split <;> rfl

@[simp] theorem publish_watch (s : Simulation) (new : Lifecycle) :
    (s.publish new).watch = s.watch := by
  unfold publish
  split <;> rfl

@[simp] theorem publish_plan (s : Simulation) (new : Lifecycle) :
    (s.publish new).plan = s.plan := by
  unfold publish
  split <;> rfl

@[simp] theorem publish_transfer (s : Simulation) (new : Lifecycle) :
    (s.publish new).transfer = s.transfer := by
  unfold publish
  split <;> rfl

end Simulation

/-! ## §3. Moves. -/

/-- What comes from outside. -/
inductive Influence where
  /-- The receiver has put bytes on a link. -/
  | put (link : Nat) (bytes : List UInt8)
  /-- The receiver has got bytes from a link. -/
  | got (link : Nat) (bytes : List UInt8)
  /-- A command is accepted. -/
  | command (bytes : List UInt8)
  /-- The next read on a link is to fail. -/
  | readFault (link : Nat) (kind : IoKind)
  /-- What runs is ended by a call. -/
  | cancelled
  | consumerLeft
  deriving Repr, DecidableEq

/-- What the receiver can do to a link, and the failures that can be prepared
on it. -/
inductive Link.Change (number : Nat) (l : Link) : List Influence → Link → Prop
  | failRead (kind : IoKind) : Change number l [.readFault number kind] (l.prepare .read kind)
  | fail {operation : LinkOperation} (kind : IoKind) (other : operation ≠ .read) :
      Change number l [] (l.prepare operation kind)
  | put (bytes : List UInt8) (whole : l.inbound.isBroken = false) :
      Change number l [.put number bytes] { l with inbound := l.inbound.put bytes }
  | got : Change number l [.got number l.outbound.buffer]
      { l with outbound := { l.outbound with buffer := [] } }
  | shutdown : Change number l [] { l with inbound := l.inbound.closeWriter }
  | hangUp : Change number l [] l.hangUp

namespace Simulation

/-- While all goes on, the watchdog turns to something else. -/
structure Turns (s s' : Simulation) : Prop where
  going : s.isOver = false
  alive : s.watch.hasFailed = false
  lives : s'.watch.hasFailed = false

/-- A move that gives the transfer nothing to do. -/
inductive Calm (s : Simulation) : List Influence → Simulation → Prop
  /-- Time passes, a state is published, an attempt is made or planned that
  brings no link. -/
  | steer {s' : Simulation} (apart : Apart s s') (transfer : s'.transfer = s.transfer)
      (upcoming : s'.upcoming.Sublist s.upcoming) (isOver : s'.isOver = s.isOver)
      (watch : s'.watch = s.watch ∨ Turns s s')
      (opens : s'.MayOpen → s.MayOpen ∨ s.transfer = none ∧ s'.watch.hasFailed = false) :
      Calm s [] s'
  /-- A link that is over is let go. -/
  | detach (isOver : s.linkIsOver = true) : Calm s [] { s with transfer := none }
  /-- The watchdog goes for good; an attempt in progress is given up. -/
  | dismiss {s' : Simulation} (apart : Apart s.dismiss s') (transfer : s'.transfer = s.transfer)
      (upcoming : s'.upcoming.Sublist s.dismiss.upcoming) (isOver : s'.isOver = true)
      (watch : s'.watch = .off) (opens : s'.MayOpen → s.MayOpen) :
      Calm s (s.watch.link?.toList.map fun _ => .cancelled) s'
  /-- An attempt is planned that brings a new link. -/
  | accept (capacity delay : Nat) : Calm s []
      { s with links := s.links.push (.new capacity)
               plan := s.plan ++ [⟨.ok s.links.size, delay⟩] }
  | leave : Calm s [.consumerLeft] { s with consumer := false }

/-- A change after which the transfer may have something to do. -/
inductive Stir (s : Simulation) : List Influence → Simulation → Prop
  | nothing : Stir s [] s
  /-- A link is brought up. -/
  | up {s' : Simulation} (link : Nat) (apart : Apart s s') (free : s.transfer = none)
      (still : s.isOver = false) (alive : s.watch.hasFailed = false)
      (transfer : s'.transfer = some { number := link, framer := .new s.config.maxBlock })
      (upcoming : (link :: s'.upcoming).Sublist s.upcoming) (going : s'.isOver = false)
      (ticks : s'.watch.hasFailed = true → s.config.watchdog = 0) (closed : ¬ s'.MayOpen) :
      Stir s [] s'
  | enqueue {s' : Simulation} (item : Outbound) (going : s.isOver = false)
      (kept : s.isForsaken = false) (apart : Apart (s.enqueue item) s')
      (transfer : s'.transfer = s.transfer) (watch : s'.watch = s.watch)
      (upcoming : s'.upcoming = s.upcoming) (isOver : s'.isOver = s.isOver)
      (opens : s'.MayOpen ↔ s.MayOpen) : Stir s (item.command?.toList.map .command) s'
  /-- The link is to end. -/
  | cancel : Stir s [.cancelled] s.ending
  | change {number : Nat} {link link' : Link} {es : List Influence}
      (there : s.links[number]? = some link) (change : link.Change number es link') :
      Stir s es { s with links := s.links.setIfInBounds number link' }

/-- One move.  After a change the transfer does all that it can do. -/
inductive Move (s : Simulation) : List Influence → Simulation → Prop
  | calm {es : List Influence} {s' : Simulation} (calm : Calm s es s') : Move s es s'
  | stir {es : List Influence} {s' : Simulation} (stir : Stir s es s') : Move s es s'.settle

/-- Moves one after the other, with all that came from outside. -/
inductive Moves (s : Simulation) : List Influence → Simulation → Prop
  | refl : Moves s [] s
  | tail {es es' : List Influence} {a b : Simulation} (moves : Moves s es a)
      (move : Move a es' b) : Moves s (es ++ es') b

namespace Moves

variable {a b c : Simulation} {es es' : List Influence}

theorem calm (h : Calm a es b) : Moves a es b :=
  .tail .refl (.calm h)

theorem stir (h : Stir a es b) : Moves a es b.settle :=
  .tail .refl (.stir h)

theorem trans (h : Moves a es b) (h' : Moves b es' c) : Moves a (es ++ es') c := by
  induction h' with
  | refl =>
    rw [List.append_nil]
    exact h
  | tail _ hmove ih =>
    rw [← List.append_assoc]
    exact .tail ih hmove

/-- Moves to which nothing came from outside, and then others. -/
theorem andThen (h : Moves a [] b) (h' : Moves b es c) : Moves a es c :=
  h.trans h'

/-- **What each move keeps is kept by all of them.**  What is kept may depend
on what came from outside so far. -/
theorem induction {P : List Influence → Simulation → Prop} (past : List Influence)
    (hmove : ∀ {past es : List Influence} {s s' : Simulation}, P past s → Move s es s' →
      P (past ++ es) s')
    (hmoves : Moves a es b) (h : P past a) : P (past ++ es) b := by
  induction hmoves with
  | refl => rwa [List.append_nil]
  | tail _ hlast ih =>
    rw [← List.append_assoc]
    exact hmove ih hlast

end Moves

/-! ## §4. Once all is over. -/

/-- Once all is over the watchdog has gone and nothing is queued, and a queue
that is lost is empty.  A link may be brought up only while there is no
transfer, and the watchdog has not failed; it fails only without an interval,
and a transfer never does. -/
structure Tidy (s : Simulation) : Prop where
  isOver : s.isOver = true → s.watch = .off ∧ s.queue = []
  forsaken : s.isForsaken = true → s.queue = []
  free : s.MayOpen → s.transfer = none
  alive : s.MayOpen → s.watch.hasFailed = false
  ticks : s.watch.hasFailed = true → s.config.watchdog = 0
  sound : s.linkHasFailed = false

theorem isForsaken_congr {s s' : Simulation} (watch : s'.watch = s.watch)
    (transfer : s'.transfer = s.transfer) : s'.isForsaken = s.isForsaken := by
  unfold isForsaken linkIsOver
  rw [watch, transfer]

theorem linkIsOver_congr {s s' : Simulation} (transfer : s'.transfer = s.transfer) :
    s'.linkIsOver = s.linkIsOver := by
  unfold linkIsOver
  rw [transfer]

theorem linkHasFailed_congr {s s' : Simulation} (transfer : s'.transfer = s.transfer) :
    s'.linkHasFailed = s.linkHasFailed := by
  unfold linkHasFailed
  rw [transfer]

/-- While the watchdog has not failed, the queue is not lost. -/
theorem isForsaken_of_alive {s : Simulation} (h : s.watch.hasFailed = false) :
    s.isForsaken = false := by
  unfold isForsaken
  rw [h]
  rfl

theorem isForsaken_of_up {s : Simulation} (h : s.linkIsOver = false) : s.isForsaken = false := by
  unfold isForsaken
  rw [h, Bool.and_false]

theorem start_tidy (pace : Pace) (config : SupervisorConfig) (endpoint : Endpoint) :
    Tidy (start pace config endpoint) := by
  refine ⟨?_, ?_, fun _ => rfl, fun _ => rfl, ?_, rfl⟩
  · intro hover
    cases hover
  · intro hlost
    cases hlost
  · intro hfailed
    cases hfailed

theorem Calm.tidy {s s' : Simulation} {es : List Influence} (h : Tidy s) (hcalm : Calm s es s') :
    Tidy s' := by
  cases hcalm with
  | steer apart transfer _ isOver watch opens =>
    have hsound : s'.linkHasFailed = false := (linkHasFailed_congr transfer).trans h.sound
    rcases watch with hwatch | hturns
    · refine ⟨?_, ?_, ?_, ?_, ?_, hsound⟩
      · intro hover
        rw [isOver] at hover
        obtain ⟨hoff, hqueue⟩ := h.isOver hover
        exact ⟨hwatch.trans hoff, apart.queue.trans hqueue⟩
      · intro hlost
        rw [isForsaken_congr hwatch transfer] at hlost
        exact apart.queue.trans (h.forsaken hlost)
      · intro hopen
        rw [transfer]
        exact (opens hopen).elim h.free And.left
      · intro hopen
        exact (opens hopen).elim (fun hopen => hwatch ▸ h.alive hopen) And.right
      · rw [hwatch, apart.config]
        exact h.ticks
    · -- the watchdog is there, before and after
      refine ⟨?_, ?_, ?_, fun _ => hturns.lives, ?_, hsound⟩
      · intro hover
        rw [isOver, hturns.going] at hover
        cases hover
      · intro hlost
        rw [isForsaken_of_alive hturns.lives] at hlost
        cases hlost
      · intro hopen
        rw [transfer]
        exact (opens hopen).elim h.free And.left
      · rw [hturns.lives]
        exact fun hfailed => nomatch hfailed
  | detach isOver =>
    refine ⟨h.isOver, ?_, fun _ => rfl, h.alive, h.ticks, rfl⟩
    intro hlost
    refine h.forsaken (Bool.and_eq_true_iff.mpr ⟨?_, isOver⟩)
    exact (Bool.and_eq_true_iff.mp hlost).1
  | dismiss apart transfer _ _ watch opens =>
    have halive : s'.watch.hasFailed = false := by
      rw [watch]
      rfl
    refine ⟨fun _ => ⟨watch, apart.queue⟩, fun _ => apart.queue,
      fun hopen => transfer.trans (h.free (opens hopen)), fun _ => halive, ?_,
      (linkHasFailed_congr transfer).trans h.sound⟩
    rw [halive]
    exact fun hfailed => nomatch hfailed
  | accept => exact ⟨h.isOver, h.forsaken, h.free, h.alive, h.ticks, h.sound⟩
  | leave => exact ⟨h.isOver, h.forsaken, h.free, h.alive, h.ticks, h.sound⟩

/-- The link is to end: neither is it over by that, nor has it failed. -/
theorem linkIsOver_ending (s : Simulation) : s.ending.linkIsOver = s.linkIsOver := by
  unfold linkIsOver ending
  cases s.transfer <;> rfl

theorem isForsaken_ending (s : Simulation) : s.ending.isForsaken = s.isForsaken := by
  unfold isForsaken
  rw [linkIsOver_ending]
  rfl

theorem linkHasFailed_ending (s : Simulation) : s.ending.linkHasFailed = s.linkHasFailed := by
  unfold linkHasFailed ending
  cases s.transfer <;> rfl

theorem Stir.tidy {s s' : Simulation} {es : List Influence} (h : Tidy s) (hstir : Stir s es s') :
    Tidy s' := by
  cases hstir with
  | nothing => exact h
  | up _ apart _ _ _ transfer _ going ticks closed =>
    refine ⟨?_, ?_, fun hopen => absurd hopen closed, fun hopen => absurd hopen closed, ?_, ?_⟩
    · rw [going]
      exact fun hover => nomatch hover
    · -- the new transfer has not ended
      unfold isForsaken linkIsOver
      rw [transfer]
      intro hlost
      cases (Bool.and_eq_true_iff.mp hlost).2
    · rw [apart.config]
      exact ticks
    · unfold linkHasFailed
      rw [transfer]
  | enqueue _ going kept apart transfer watch _ isOver opens =>
    refine ⟨?_, ?_, ?_, ?_, ?_, (linkHasFailed_congr transfer).trans h.sound⟩
    · rw [isOver, going]
      exact fun hover => nomatch hover
    · rw [isForsaken_congr watch transfer, kept]
      exact fun hlost => nomatch hlost
    · rw [opens, transfer]
      exact h.free
    · rw [opens, watch]
      exact h.alive
    · rw [watch, apart.config]
      exact h.ticks
  | cancel =>
    refine ⟨h.isOver, ?_, ?_, h.alive, h.ticks, s.linkHasFailed_ending.trans h.sound⟩
    · rw [isForsaken_ending]
      exact h.forsaken
    · intro hopen
      show s.transfer.map _ = none
      rw [h.free hopen]
      rfl
  | change => exact ⟨h.isOver, h.forsaken, h.free, h.alive, h.ticks, h.sound⟩

/-- A link that is there is replaced. -/
theorem getElem?_replaced {links : Array Link} {number n : Nat} {link link' : Link}
    (there : links[number]? = some link) :
    (links.setIfInBounds number link')[n]? = if number = n then some link' else links[n]? := by
  have hlt : number < links.size := (Array.getElem?_eq_some_iff.mp there).1
  rw [Array.getElem?_setIfInBounds]
  by_cases hn : number = n
  · rw [if_pos hn, if_pos hn, if_pos (hn ▸ hlt)]
  · rw [if_neg hn, if_neg hn]

/-- Another link is planned. -/
theorem getElem?_planned {links : Array Link} {n : Nat} {link : Link}
    (there : links[n]? = some link) (new : Link) : (links.push new)[n]? = some link := by
  have hlt : n < links.size := (Array.getElem?_eq_some_iff.mp there).1
  rw [Array.getElem?_push, if_neg (Nat.ne_of_lt hlt)]
  exact there

theorem settle_of_none {s : Simulation} (h : s.transfer = none) : s.settle = s := by
  unfold settle
  rw [h]

theorem settle_of_missing {s : Simulation} {t : Transfer} (h : s.transfer = some t)
    (hmissing : s.links[t.number]? = none) : s.settle = s := by
  unfold settle
  rw [h]
  dsimp only
  rw [hmissing]

theorem settle_of_there {s : Simulation} {t : Transfer} {link : Link} (h : s.transfer = some t)
    (hthere : s.links[t.number]? = some link) :
    s.settle = s.absorb (s.working t link).settle := by
  have hnumber := (s.working t link).settle_works.same.number
  unfold settle absorb
  rw [hnumber, h]
  dsimp only
  rw [hthere]
  rfl

/-- What the transfer does, if there is one. -/
theorem settle_cases (s : Simulation) :
    s.settle = s ∨ ∃ t link, s.transfer = some t ∧ s.links[t.number]? = some link
      ∧ s.settle = s.absorb (s.working t link).settle := by
  cases htransfer : s.transfer with
  | none => exact .inl (settle_of_none htransfer)
  | some t =>
    cases hthere : s.links[t.number]? with
    | none => exact .inl (settle_of_missing htransfer hthere)
    | some link => exact .inr ⟨t, link, rfl, hthere, settle_of_there htransfer hthere⟩

/-- What holds after any operations of the transfer holds once it has
settled. -/
theorem settle_rule {P : Simulation → Prop} {s : Simulation} (h : P s)
    (hworks : ∀ t link w, s.transfer = some t → s.links[t.number]? = some link →
      Working.Works (s.working t link) w → P (s.absorb w)) : P s.settle := by
  rcases s.settle_cases with hsame | ⟨t, link, htransfer, hthere, hsettle⟩
  · rw [hsame]
    exact h
  · rw [hsettle]
    exact hworks t link _ htransfer hthere (Working.settle_works _)

/-- What a transfer does concerns its own link. -/
theorem getElem?_absorb {s : Simulation} {w : Working} {number n : Nat} {link : Link}
    (hnumber : w.transfer.number = number) (there : s.links[number]? = some link) :
    (s.absorb w).links[n]? = if number = n then some w.link else s.links[n]? := by
  show (s.links.setIfInBounds w.transfer.number w.link)[n]? = _
  rw [hnumber, getElem?_replaced there]

theorem size_absorb (s : Simulation) (w : Working) : (s.absorb w).links.size = s.links.size :=
  Array.size_setIfInBounds ..

/-- So does all that is recorded of it. -/
theorem recorded_of_works {s : Simulation} {t : Transfer} {link : Link} {w : Working}
    (hworks : Working.Works (s.working t link) w) :
    ∀ x ∈ w.happenings, x.On t.number ∧ x.side.ofTransfer = true := by
  obtain ⟨hs, hrecord, hon⟩ := hworks.record
  rw [show w.happenings = hs from hrecord]
  exact hon

/-- What is left of the queue while the watchdog has not failed. -/
theorem absorb_queue {s : Simulation} (w : Working) (h : s.watch.hasFailed = false) :
    (s.absorb w).queue = w.queue := by
  unfold absorb
  rw [h]
  rfl

theorem settle_tidy {s : Simulation} (h : Tidy s) : Tidy s.settle := by
  refine settle_rule h ?_
  intro t link w htransfer _ hworks
  have hsound : (s.absorb w).linkHasFailed = false := by
    have hsame : w.transfer.failed = t.failed := hworks.same.failed
    have ht := h.sound
    unfold linkHasFailed at ht
    rw [htransfer] at ht
    exact hsame.trans ht
  refine ⟨?_, ?_, ?_, h.alive, h.ticks, hsound⟩
  · intro hover
    obtain ⟨hoff, hqueue⟩ := h.isOver hover
    have hsuffix : w.queue.IsSuffix s.queue := hworks.queue
    -- what is left of an empty queue is empty
    rw [hqueue] at hsuffix
    refine ⟨hoff, ?_⟩
    rw [absorb_queue w (by rw [hoff]; rfl)]
    exact List.suffix_nil.mp hsuffix
  · intro hlost
    show (if s.watch.hasFailed && w.transfer.isDone then [] else w.queue) = []
    exact if_pos hlost
  · intro hopen
    have hnone := h.free hopen
    rw [htransfer] at hnone
    cases hnone

theorem Moves.tidy {s s' : Simulation} {es : List Influence} (hmoves : Moves s es s')
    (h : Tidy s) : Tidy s' := by
  refine hmoves.induction (P := fun _ => Tidy) [] ?_ h
  intro _ _ a b ha hmove
  cases hmove with
  | calm hcalm => exact hcalm.tidy ha
  | stir hstir => exact settle_tidy (hstir.tidy ha)

/-! ## §5. The functions of a supervisor are sequences of moves. -/

variable {s s' : Simulation}

theorem note_moves {x : Happening} (s : Simulation) (hside : x.side = .steering) :
    Moves s [] (s.note x) :=
  .calm (.steer ((Apart.refl s).note hside) rfl (List.Sublist.refl _) rfl (.inl rfl) .inl)

/-- The watchdog fails only without an interval. -/
theorem firstLook_ticks (s : Simulation) (h : s.firstLook.hasFailed = true) :
    s.config.watchdog = 0 := by
  unfold firstLook at h
  split at h
  next hnone => exact hnone
  next => cases h

theorem firstLook_of_pos (h : 0 < s.config.watchdog) :
    s.firstLook = .looking (s.clock + s.config.watchdog) :=
  if_neg (Nat.ne_of_gt h)

/-- A watchdog that has just begun brings no link. -/
theorem firstLook_link? (s : Simulation) : s.firstLook.link? = none := by
  unfold firstLook
  split <;> rfl

theorem firstLook_isTrying (s : Simulation) : s.firstLook.isTrying = false := by
  unfold firstLook
  split <;> rfl

theorem linkUp_moves {link : Nat} (apart : Apart s s') (free : s.transfer = none)
    (still : s.isOver = false) (alive : s.watch.hasFailed = false) (released : s'.released = false)
    (upcoming : (link :: s'.plan.flatMap (·.link?.toList)).Sublist s.upcoming) :
    Moves s [] (s'.linkUp link) := by
  unfold linkUp startTransfer
  refine .stir (.up link ?_ free still alive ?_ ?_ ?_ ?_ ?_)
  · have happart := apart.publish .active
    exact happart.trans (.silent rfl rfl rfl rfl rfl)
  · show some _ = some _
    rw [(apart.publish .active).config]
  · show (link :: (s'.firstLook.link?.toList ++ (s'.publish .active).plan.flatMap _)).Sublist _
    rw [publish_plan, firstLook_link?]
    exact upcoming
  · show ((s'.publish .active).released || (s'.publish .active).lifecycle.isTerminal) = false
    rw [publish_released, publish_lifecycle, released]
    rfl
  · rw [← apart.config]
    exact s'.firstLook_ticks
  · rintro (hlifecycle | htrying)
    · have hactive := publish_lifecycle s' .active
      rw [show (s'.publish .active).lifecycle = .disconnected from hlifecycle] at hactive
      cases hactive
    · cases s'.firstLook_isTrying.symm.trans htrying

/-- The pause after an attempt that failed. -/
theorem reconnectFailed_moves (number : Nat) (kind : IoKind) (pause : Nat)
    (going : s.isOver = false) (alive : s.watch.hasFailed = false) (free : s.transfer = none) :
    Moves s [] (s.reconnectFailed number kind pause) := by
  have happart := (Apart.refl s).note (x := .reconnectFailed number (s.refusal kind)) rfl
  refine .calm (.steer ?_ rfl ?_ rfl (.inr ⟨going, alive, rfl⟩) fun _ => .inr ⟨free, rfl⟩)
  · exact happart.trans (.silent rfl rfl rfl rfl rfl)
  · exact List.sublist_append_right _ _

/-- A supervisor that pauses does so without a plan, too. -/
theorem restPause_of_pos (h : 0 < s.config.reconnect) : s.restPause = s.config.reconnect :=
  Nat.max_eq_right h

/-- An attempt of the plan begins; the link that it would bring is set aside. -/
theorem attempt_moves {a : Attempt} {plan : List Attempt} (hplan : s.plan = a :: plan) :
    Moves s [] ({ s with plan := plan }.note .attempt) := by
  have happart : Apart s { s with plan := plan } :=
    .silent rfl rfl rfl rfl rfl
  refine .calm (.steer (happart.note rfl) rfl ?_ rfl (.inl rfl) .inl)
  show (s.watch.link?.toList ++ plan.flatMap _).Sublist (s.watch.link?.toList ++ s.plan.flatMap _)
  rw [hplan, List.flatMap_cons]
  exact (List.sublist_append_right _ _).append_left _

theorem reconnect_moves {plan : List Attempt} (number : Nat) (hplan : s.plan = plan)
    (going : s.isOver = false) (alive : s.watch.hasFailed = false) (free : s.transfer = none) :
    Moves s [] (s.reconnect number plan) := by
  induction plan generalizing s number with
  | nil =>
    have happart : Apart s { s with plan := [] } :=
      .silent rfl rfl rfl rfl rfl
    have hattempt : Moves s [] ({ s with plan := [] }.note .attempt) := by
      refine .calm (.steer (happart.note rfl) rfl ?_ rfl (.inl rfl) .inl)
      exact (List.nil_sublist _).append_left _
    exact hattempt.andThen (reconnectFailed_moves _ _ _ going alive free)
  | cons a plan ih =>
    have happart : Apart s ({ s with plan := plan }.note .attempt) := by
      have hplanned : Apart s { s with plan := plan } :=
        .silent rfl rfl rfl rfl rfl
      exact hplanned.note rfl
    have hupcoming : (a.link?.toList ++ plan.flatMap (·.link?.toList)).Sublist s.upcoming := by
      show List.Sublist _ (s.watch.link?.toList ++ s.plan.flatMap _)
      rw [hplan, List.flatMap_cons]
      exact List.sublist_append_right _ _
    unfold reconnect
    dsimp only
    split
    next =>
      refine .calm (.steer ?_ rfl hupcoming rfl (.inr ⟨going, alive, rfl⟩)
        fun _ => .inr ⟨free, rfl⟩)
      exact happart.trans (.silent rfl rfl rfl rfl rfl)
    next =>
      split
      next link hlink =>
        -- the link is up in the moment in which the attempt began
        have hreleased : s.released = false := (Bool.or_eq_false_iff.mp going).1
        unfold reconnected
        refine linkUp_moves (happart.note rfl) free going alive hreleased ?_
        rw [Attempt.link?_of_outcome hlink] at hupcoming
        exact hupcoming
      next kind hkind =>
        have hfailed := (attempt_moves hplan).andThen
          (reconnectFailed_moves number kind s.config.reconnect going alive free)
        split
        next => exact hfailed.andThen (ih _ rfl going rfl free)
        next => exact hfailed

/-- The watchdog goes after what is recorded and published in the same
moment. -/
theorem dismiss_moves (apart : Apart s s') (transfer : s'.transfer = s.transfer)
    (watch : s'.watch = s.watch) (plan : s'.plan = s.plan) (isOver : s'.isOver = true)
    (lifecycle : s'.lifecycle ≠ .disconnected) :
    Moves s (s.watch.link?.toList.map fun _ => .cancelled) s'.dismiss := by
  refine .calm (.dismiss ?_ transfer ?_ isOver rfl ?_)
  · refine ⟨apart.config, rfl, apart.consumer, ?_, apart.record⟩
    unfold dismiss
    rw [watch, apart.links]
  · have hsame : s'.dismiss.upcoming = s.dismiss.upcoming := by
      show s'.plan.flatMap _ = s.plan.flatMap _
      rw [plan]
    exact hsame ▸ List.Sublist.refl _
  · intro hopen
    rcases hopen with hlifecycle | htrying
    · exact absurd hlifecycle lifecycle
    · cases htrying

/-- A recording that has been played is not played again. -/
theorem finish_moves (hwatch : s.watch.link? = none) :
    Moves s [] ((s.note (.replayFinished s.endpoint.text)).publish .drained).dismiss := by
  have hfinished : Apart s ((s.note (.replayFinished s.endpoint.text)).publish .drained) :=
    ((Apart.refl s).note rfl).publish .drained
  have hmoves := dismiss_moves hfinished (publish_transfer _ _) (publish_watch _ _)
    (publish_plan _ _) (by simp [isOver, Lifecycle.isTerminal]) (by simp)
  -- no attempt is in progress
  rw [hwatch] at hmoves
  exact hmoves

/-- A link that is lost is to be replaced. -/
theorem lose_moves (going : s.isOver = false) (alive : s.watch.hasFailed = false)
    (hfree : s.transfer = none) :
    Moves s [] (((s.note (.connectionLost s.endpoint.text)).publish .reconnecting).reconnect 1
      ((s.note (.connectionLost s.endpoint.text)).publish .reconnecting).plan) := by
  have hreleased : s.released = false := (Bool.or_eq_false_iff.mp going).1
  have hstill : ((s.note (.connectionLost s.endpoint.text)).publish .reconnecting).isOver
      = false := by
    unfold isOver
    rw [publish_released, publish_lifecycle]
    exact Bool.or_eq_false_iff.mpr ⟨hreleased, rfl⟩
  have hlost : Moves s [] ((s.note (.connectionLost s.endpoint.text)).publish .reconnecting) := by
    refine .calm (.steer (((Apart.refl s).note rfl).publish _) (publish_transfer _ _) ?_
      (hstill.trans going.symm) (.inl (publish_watch _ _)) fun _ => .inr ⟨hfree, ?_⟩)
    · unfold upcoming
      rw [publish_watch, publish_plan]
      exact List.Sublist.refl _
    · rw [publish_watch]
      exact alive
  refine hlost.andThen (reconnect_moves 1 rfl hstill ?_ ((publish_transfer _ _).trans hfree))
  rw [publish_watch]
  exact alive

/-- No transfer fails, so a look finds the link up or over. -/
theorem look_of_sound (h : s.linkHasFailed = false) : s.look = s.inspect := by
  unfold look
  rw [h]
  rfl

theorem look_moves (h : Tidy s) {moment : Nat} (hwatch : s.watch = .looking moment)
    (going : s.isOver = false) : Moves s [] s.look := by
  have halive : s.watch.hasFailed = false := by
    rw [hwatch]
    rfl
  rw [look_of_sound h.sound]
  unfold inspect
  split
  next hover =>
    -- the transfer goes first, so that there is none when the next link comes
    refine (Moves.calm (.detach hover)).andThen ?_
    dsimp only
    split
    next => exact finish_moves (congrArg Watch.link? hwatch)
    next => exact lose_moves (s := { s with transfer := none }) going halive rfl
  next =>
    have hlooks : Moves s [] { s with watch := .looking (s.clock + s.config.watchdog) } := by
      refine .calm (.steer (.silent rfl rfl rfl rfl rfl) rfl ?_ rfl (.inr ⟨going, halive, rfl⟩) ?_)
      · exact List.sublist_append_right _ _
      · intro hopen
        rcases hopen with hlifecycle | htrying
        · exact .inl (.inl hlifecycle)
        · cases htrying
    refine hlooks.andThen ?_
    dsimp only
    split
    next =>
      exact .stir (.enqueue .keepalive going rfl ((Apart.refl _).note rfl) rfl rfl rfl rfl Iff.rfl)
    next => exact .refl

theorem wake_moves (h : Tidy s) (going : s.isOver = false) : Moves s [] s.wake := by
  have hfree : s.watch.isTrying = true → s.watch.hasFailed = false ∧ s.transfer = none :=
    fun htrying => ⟨h.alive (.inr htrying), h.free (.inr htrying)⟩
  unfold wake
  split
  next => exact .refl
  next hwatch => exact look_moves h hwatch going
  next link moment hwatch =>
    obtain ⟨alive, free⟩ := hfree (by rw [hwatch]; rfl)
    unfold reconnected
    have hreleased : s.released = false := (Bool.or_eq_false_iff.mp going).1
    refine linkUp_moves ((Apart.refl s).note rfl) free going alive hreleased ?_
    unfold upcoming
    rw [hwatch]
    exact List.Sublist.refl _
  next number kind moment hwatch =>
    obtain ⟨alive, free⟩ := hfree (by rw [hwatch]; rfl)
    dsimp only
    have hfailed := reconnectFailed_moves number kind s.config.reconnect going alive free
    split
    next => exact hfailed.andThen (reconnect_moves _ rfl going rfl free)
    next => exact hfailed
  next number moment hwatch =>
    obtain ⟨alive, free⟩ := hfree (by rw [hwatch]; rfl)
    exact reconnect_moves _ rfl going alive free
  next => exact .refl

/-- Time passes. -/
theorem clock_moves (s : Simulation) (moment : Nat) : Moves s [] { s with clock := moment } := by
  refine .calm (.steer ?_ rfl (List.Sublist.refl _) rfl (.inl rfl) .inl)
  exact .silent rfl rfl rfl rfl rfl

theorem deadline?_of_off (h : s.watch = .off) : s.deadline? = none := by
  unfold deadline?
  rw [h]

theorem deadline?_of_looking {moment : Nat} (h : s.watch = .looking moment) :
    s.deadline? = some moment := by
  unfold deadline?
  rw [h]

theorem deadline?_of_failed (h : s.watch = .failed) : s.deadline? = none := by
  unfold deadline?
  rw [h]

theorem deadline?_congr (h : s'.watch = s.watch) : s'.deadline? = s.deadline? := by
  unfold deadline?
  rw [h]

theorem wake_of_looking {moment : Nat} (h : s.watch = .looking moment) : s.wake = s.look := by
  unfold wake
  rw [h]

/-- The attempt has brought a link. -/
theorem wake_of_brought {number link moment : Nat}
    (h : s.watch = .attempting number (.ok link) moment) : s.wake = s.reconnected link := by
  unfold wake
  rw [h]

/-- The attempt has failed, and a pause follows. -/
theorem wake_of_refused {number moment : Nat} {kind : IoKind}
    (h : s.watch = .attempting number (.error kind) moment) (hpause : s.config.reconnect ≠ 0) :
    s.wake = s.reconnectFailed number kind s.config.reconnect := by
  unfold wake
  rw [h]
  exact if_neg hpause

/-- The attempt has failed, and the next one follows at once. -/
theorem wake_of_refused_unspaced {number moment : Nat} {kind : IoKind}
    (h : s.watch = .attempting number (.error kind) moment) (hpause : s.config.reconnect = 0) :
    s.wake = (s.reconnectFailed number kind s.config.reconnect).reconnect (number + 1) s.plan := by
  unfold wake
  rw [h]
  exact if_pos hpause

theorem wake_of_pausing {number moment : Nat} (h : s.watch = .pausing number moment) :
    s.wake = s.reconnect (number + 1) s.plan := by
  unfold wake
  rw [h]

/-- While the watchdog waits for something not all is over. -/
theorem Tidy.going (h : Tidy s) {moment : Nat} (hdeadline : s.deadline? = some moment) :
    s.isOver = false := by
  cases hover : s.isOver with
  | false => rfl
  | true =>
    rw [deadline?_of_off (h.isOver hover).1] at hdeadline
    cases hdeadline

theorem runUntil_moves (moment n : Nat) (h : Tidy s) : Moves s [] (runUntil moment n s) := by
  induction n generalizing s with
  | zero => exact clock_moves s moment
  | succ n ih =>
    unfold runUntil
    split
    next => exact clock_moves s moment
    next t hdeadline =>
      split
      next =>
        -- the watchdog acts at its time, and there may be more to do by then
        have hclock := clock_moves s (max s.clock t)
        have hwake : Moves { s with clock := max s.clock t } []
            { s with clock := max s.clock t }.wake :=
          wake_moves (hclock.tidy h) (h.going hdeadline)
        have hmoves := hclock.andThen hwake
        exact hmoves.andThen (ih (hmoves.tidy h))
      next => exact clock_moves s moment

theorem elapse_moves (ms : Nat) (h : Tidy s) : Moves s [] (s.elapse ms) :=
  runUntil_moves _ ms h

/-! ## §6. Calls. -/

/-- While the caller has the supervisor, calls are answered. -/
theorem call_of_kept (kept : s.released = false)
    (f : Simulation → Simulation × Except SupervisorError Unit) :
    s.call f = ((f s).1, .ofCall (f s).2) := by
  unfold call
  rw [kept]
  rfl

theorem setPort_moves (s : Simulation) (text : String) : Moves s [] (s.setPort text).1 := by
  unfold setPort
  split
  next => exact .refl
  next =>
    split
    next endpoint hendpoint =>
      have happart : Apart s { s with endpoint := endpoint } :=
        .silent rfl rfl rfl rfl rfl
      exact .calm (.steer (happart.note rfl) rfl (List.Sublist.refl _) rfl (.inl rfl) .inl)
    next => exact .refl

theorem connect_moves (h : Tidy s) (released : s.released = false) : Moves s [] s.connect.1 := by
  unfold connect
  split
  next => exact .refl
  next => exact .refl
  next => exact .refl
  next => exact .refl
  next hlifecycle =>
    split
    next => exact (note_moves s rfl).andThen (note_moves _ rfl)
    next a plan hplan =>
      have hattempt : Apart s
          { s.note .attempt with plan := plan, clock := s.clock + a.delay } := by
        have happart := (Apart.refl s).note (x := .attempt) rfl
        exact happart.trans (.silent rfl rfl rfl rfl rfl)
      have hupcoming : (a.link?.toList ++ plan.flatMap (·.link?.toList)).Sublist s.upcoming := by
        unfold upcoming
        rw [hplan, List.flatMap_cons]
        exact List.sublist_append_right _ _
      dsimp only
      split
      next kind hkind =>
        unfold connectFailed
        refine .calm (.steer (hattempt.note rfl) rfl ?_ rfl (.inl rfl) .inl)
        unfold upcoming
        rw [hplan, List.flatMap_cons]
        exact (List.sublist_append_right _ _).append_left _
      next link hlink =>
        rw [Attempt.link?_of_outcome hlink] at hupcoming
        have hconnected := hattempt.note (x := .connected s.endpoint.text s.endpoint.kind) rfl
        have still : s.isOver = false := by
          unfold isOver
          rw [released, hlifecycle]
          rfl
        refine linkUp_moves ?_ (h.free (.inl hlifecycle)) still (h.alive (.inl hlifecycle)) released
          hupcoming
        exact hconnected.trans (.silent rfl rfl rfl rfl rfl)

/-- A command is queued, or it is refused. -/
theorem send_moves (released : s.released = false) (command : List UInt8) :
    ((s.send command).2 = .ok () ∧ Moves s [.command command] (s.send command).1)
      ∨ ((s.send command).2 ≠ .ok () ∧ Moves s [] (s.send command).1) := by
  unfold send
  split
  next => exact .inr ⟨by simp, note_moves s rfl⟩
  next =>
    split
    next => exact .inr ⟨by simp, .refl⟩
    next => exact .inr ⟨by simp, .refl⟩
    next hstopped hdrained =>
      have going : s.isOver = false := by
        unfold isOver
        rw [released]
        cases hlifecycle : s.lifecycle with
        | stopped => exact absurd hlifecycle hstopped
        | drained => exact absurd hlifecycle hdrained
        | _ => rfl
      split
      next => exact .inr ⟨by simp, .refl⟩
      next hkept =>
        refine .inl ⟨rfl, .stir (.enqueue (.command command) going ?_ (Apart.refl _) rfl rfl rfl rfl
          Iff.rfl)⟩
        exact eq_false_of_ne_true hkept

theorem settle_lifecycle (s : Simulation) : s.settle.lifecycle = s.lifecycle :=
  settle_rule (P := fun a => a.lifecycle = s.lifecycle) rfl fun _ _ _ _ _ _ => rfl

theorem cancel_lifecycle (s : Simulation) : s.cancel.lifecycle = s.lifecycle :=
  settle_lifecycle _

/-- What runs is ended, and then all is over. -/
theorem cancel_moves (apart : Apart s.cancel s') (transfer : s'.transfer = s.cancel.transfer)
    (watch : s'.watch = .off) (plan : s'.plan = s.cancel.plan) (isOver : s'.isOver = true)
    (lifecycle : s'.lifecycle = .disconnected → s.lifecycle = .disconnected) :
    ∃ es, Moves s es s' ∧ ∀ x ∈ es, x = .cancelled := by
  have hended := Moves.stir (Stir.cancel (s := s))
  refine ⟨_, hended.trans (.calm (.dismiss apart transfer ?_ isOver watch ?_)), ?_⟩
  · unfold upcoming
    rw [watch, plan]
    exact List.Sublist.refl _
  · rintro (hlifecycle | htrying)
    · exact .inl ((settle_lifecycle _).trans (lifecycle hlifecycle))
    · rw [watch] at htrying
      cases htrying
  · intro x hx
    rcases List.mem_append.mp hx with hfirst | hlast
    · exact List.mem_singleton.mp hfirst
    · obtain ⟨_, -, rfl⟩ := List.mem_map.mp hlast
      rfl

/-- What stopping changes. -/
theorem stop_apart (s : Simulation) : Apart s s.stop :=
  ((Apart.refl s).publish .stopped).note rfl

@[simp] theorem stop_lifecycle (s : Simulation) : s.stop.lifecycle = .stopped :=
  publish_lifecycle s .stopped

theorem stop_isOver (s : Simulation) : s.stop.isOver = true := by
  show (_ || s.stop.lifecycle.isTerminal) = true
  rw [stop_lifecycle]
  exact Bool.or_true _

theorem stop_not_disconnected (s : Simulation) : s.stop.lifecycle ≠ .disconnected := by
  rw [stop_lifecycle]
  exact Lifecycle.noConfusion

theorem shutdown_of_alive (h : s.watch.hasFailed = false) : s.shutdown = s.cancel.stop := by
  unfold shutdown
  rw [h]
  rfl

/-- When the watchdog has failed nobody waits for the link. -/
theorem stop_moves (hfailed : s.watch.hasFailed = true) :
    Moves s [] (s.dismiss.note .watchdogFailed).stop := by
  have hnone : s.watch.link? = none := by
    cases hwatch : s.watch <;> rw [hwatch] at hfailed <;> first | rfl | cases hfailed
  have hwatch : (s.dismiss.note .watchdogFailed).stop.watch = .off := publish_watch _ _
  have hplan : (s.dismiss.note .watchdogFailed).stop.plan = s.plan := publish_plan _ _
  have hgone : Calm s (s.watch.link?.toList.map fun _ => .cancelled)
      (s.dismiss.note .watchdogFailed).stop := by
    refine .dismiss (((Apart.refl _).note rfl).trans (stop_apart _)) (publish_transfer _ _) ?_
      (stop_isOver _) hwatch ?_
    · unfold upcoming
      rw [hwatch, hplan]
      exact List.Sublist.refl _
    · rintro (hlifecycle | htrying)
      · exact absurd hlifecycle (stop_not_disconnected _)
      · rw [hwatch] at htrying
        cases htrying
  rw [hnone] at hgone
  exact .calm hgone

theorem shutdown_moves (s : Simulation) :
    ∃ es, Moves s es s.shutdown ∧ ∀ x ∈ es, x = .cancelled := by
  unfold shutdown
  split
  next hfailed =>
    exact ⟨_, (stop_moves hfailed).andThen (.stir .cancel), fun x hx => List.mem_singleton.mp hx⟩
  next =>
    refine cancel_moves (stop_apart _) ?_ ?_ ?_ (stop_isOver _) ?_
    · exact publish_transfer _ _
    · exact publish_watch _ _
    · exact publish_plan _ _
    · exact fun hlifecycle => absurd hlifecycle (stop_not_disconnected _)

theorem release_moves (s : Simulation) :
    ∃ es, Moves s es s.release ∧ ∀ x ∈ es, x = .cancelled :=
  cancel_moves (.silent rfl rfl rfl rfl rfl) rfl rfl rfl rfl
    fun hlifecycle => s.cancel_lifecycle.symm.trans hlifecycle

end Simulation

end ReceiverLink
