/-
  ReceiverLink.Proofs.Supervisor.Alike
  ────────────────────────────────
  **Supervisors that differ only in what they write.**

  Two supervisors are alike if they differ at most on their outbound side: in
  their queues, in the item in progress, in the outbound pipes and the failures
  prepared for them, and in what is recorded of writing.  Each function of a
  supervisor, done to two that are alike, leaves two that are alike.

  Main statements:
    * `Alike.settle` — settling keeps supervisors alike;
    * `Alike.wake` — so does the watchdog;
    * `Alike.elapse` — and so does the passing of time.
-/
import ReceiverLink.Proofs.Supervisor.Hearing
import ReceiverLink.Proofs.Supervisor.Steady

namespace ReceiverLink

namespace Simulation

variable {s t : Simulation}

/-! ## §1. Alike. -/

/-- What is heard of the record, with the times. -/
def heardRecord (s : Simulation) : List (Nat × Happening) :=
  s.record.toList.filter fun p => p.2.isHeard

/-- The two differ at most on their outbound side. -/
structure Alike (s t : Simulation) : Prop where
  config : s.config = t.config
  endpoint : s.endpoint = t.endpoint
  clock : s.clock = t.clock
  lifecycle : s.lifecycle = t.lifecycle
  handedOver : s.handedOver = t.handedOver
  released : s.released = t.released
  watch : s.watch = t.watch
  transfer : s.transfer.map Transfer.heard = t.transfer.map Transfer.heard
  consumer : s.consumer = t.consumer
  links : s.links.map Link.heard = t.links.map Link.heard
  plan : s.plan = t.plan
  record : s.heardRecord = t.heardRecord

theorem heardRecord_note (s : Simulation) (h : Happening) :
    (s.note h).heardRecord = s.heardRecord ++ if h.isHeard then [(s.clock, h)] else [] := by
  unfold heardRecord note
  rw [Array.toList_push, List.filter_append, List.filter_cons]
  rfl

theorem heardRecord_absorb (s : Simulation) (w : Working) :
    (s.absorb w).heardRecord
      = s.heardRecord ++ (heardOf w.happenings).map fun h => (s.clock, h) := by
  unfold heardRecord absorb heardOf Working.happenings
  rw [Array.toList_append, Array.toList_map, List.filter_append, List.filter_map]
  rfl

namespace Alike

theorem refl (s : Simulation) : Alike s s :=
  ⟨rfl, rfl, rfl, rfl, rfl, rfl, rfl, rfl, rfl, rfl, rfl, rfl⟩

theorem note (h : Alike s t) {x y : Happening} (hxy : x = y) : Alike (s.note x) (t.note y) := by
  have hrecord : (s.note x).heardRecord = (t.note y).heardRecord := by
    rw [heardRecord_note, heardRecord_note, h.record, h.clock, hxy]
  exact { h with record := hrecord }

/-- What is not heard makes no difference. -/
theorem note_unheard (h : Alike s t) {x : Happening} (hx : x.isHeard = false) :
    Alike (s.note x) t := by
  have hrecord : (s.note x).heardRecord = t.heardRecord := by
    rw [heardRecord_note, hx]
    exact (List.append_nil _).trans h.record
  exact { h with record := hrecord }

theorem publish (h : Alike s t) (new : Lifecycle) : Alike (s.publish new) (t.publish new) := by
  unfold Simulation.publish
  rw [h.lifecycle]
  split
  next => exact h
  next =>
    have hlifecycle : Alike { s with lifecycle := new } { t with lifecycle := new } :=
      { h with lifecycle := rfl }
    exact hlifecycle.note rfl

/-- A link of the one is there in the other. -/
theorem link (h : Alike s t) {n : Nat} {l : Link} (hl : s.links[n]? = some l) :
    ∃ m, t.links[n]? = some m ∧ l.heard = m.heard := by
  have hplace : (s.links.map Link.heard)[n]? = (t.links.map Link.heard)[n]? := by
    rw [h.links]
  rw [Array.getElem?_map, Array.getElem?_map, hl] at hplace
  obtain ⟨m, hm, hsame⟩ := Option.map_eq_some_iff.mp hplace.symm
  exact ⟨m, hm, hsame.symm⟩

theorem link_none (h : Alike s t) {n : Nat} (hl : s.links[n]? = none) : t.links[n]? = none := by
  have hplace : (s.links.map Link.heard)[n]? = (t.links.map Link.heard)[n]? := by
    rw [h.links]
  rw [Array.getElem?_map, Array.getElem?_map, hl] at hplace
  exact Option.map_eq_none_iff.mp hplace.symm

theorem size (h : Alike s t) : s.links.size = t.links.size := by
  have hsize := congrArg Array.size h.links
  rwa [Array.size_map, Array.size_map] at hsize

/-- The same change of a link. -/
theorem modify (h : Alike s t) (n : Nat) {f : Link → Link}
    (hf : ∀ l m : Link, l.heard = m.heard → (f l).heard = (f m).heard) :
    Alike { s with links := s.links.modify n f } { t with links := t.links.modify n f } := by
  have hlinks : (s.links.modify n f).map Link.heard = (t.links.modify n f).map Link.heard := by
    apply Array.ext_getElem?
    intro j
    rw [Array.getElem?_map, Array.getElem?_map, Array.getElem?_modify, Array.getElem?_modify]
    cases hl : s.links[j]? with
    | none => rw [h.link_none hl]
    | some l =>
      obtain ⟨m, hm, hsame⟩ := h.link hl
      rw [hm]
      by_cases hj : n = j
      · rw [if_pos hj, if_pos hj]
        exact congrArg some (hf l m hsame)
      · rw [if_neg hj, if_neg hj]
        exact congrArg some hsame
  exact { h with links := hlinks }

/-- A change of a link's outbound side. -/
theorem modify_unheard (h : Alike s t) (n : Nat) {f : Link → Link}
    (hf : ∀ l : Link, (f l).heard = l.heard) :
    Alike { s with links := s.links.modify n f } t := by
  have hlinks : (s.links.modify n f).map Link.heard = s.links.map Link.heard := by
    apply Array.ext_getElem?
    intro j
    rw [Array.getElem?_map, Array.getElem?_map, Array.getElem?_modify]
    by_cases hj : n = j
    · rw [if_pos hj]
      cases s.links[j]? with
      | none => rfl
      | some l => exact congrArg some (hf l)
    · rw [if_neg hj]
  exact { h with links := hlinks.trans h.links }

theorem transfer_none (h : Alike s t) (hs : s.transfer = none) : t.transfer = none := by
  have htransfer := h.transfer
  rw [hs] at htransfer
  exact Option.map_eq_none_iff.mp htransfer.symm

theorem transfer_some (h : Alike s t) {a : Transfer} (hs : s.transfer = some a) :
    ∃ b, t.transfer = some b ∧ a.heard = b.heard := by
  have htransfer := h.transfer
  rw [hs] at htransfer
  obtain ⟨b, hb, hsame⟩ := Option.map_eq_some_iff.mp htransfer.symm
  exact ⟨b, hb, hsame.symm⟩

/-! ## §2. Settling. -/

theorem absorb (h : Alike s t) {w v : Working} (hheard : w.heard = v.heard)
    (hlink : w.link.heard = v.link.heard) : Alike (s.absorb w) (t.absorb v) := by
  have htransfer : w.transfer.heard = v.transfer.heard := congrArg Working.transfer hheard
  have hnumber : w.transfer.number = v.transfer.number := by
    have hnumber := congrArg Transfer.number htransfer
    exact hnumber
  have hrecord : heardOf w.happenings = heardOf v.happenings := by
    have hrecord := congrArg Working.happenings hheard
    exact hrecord
  refine { h with transfer := congrArg some htransfer, links := ?_, record := ?_ }
  · show (s.links.setIfInBounds _ _).map _ = (t.links.setIfInBounds _ _).map _
    rw [Array.map_setIfInBounds, Array.map_setIfInBounds, h.links, hnumber, hlink]
  · rw [heardRecord_absorb, heardRecord_absorb, h.record, h.clock, hrecord]

/-- **Settling keeps supervisors alike.** -/
theorem settle (h : Alike s t) (hs : s.Attached) (ht : t.Attached) : Alike s.settle t.settle := by
  cases ha : s.transfer with
  | none =>
    rw [settle_of_none ha, settle_of_none (h.transfer_none ha)]
    exact h
  | some a =>
    obtain ⟨b, hb, htransfer⟩ := h.transfer_some ha
    obtain ⟨hsane, l, hl, hholds⟩ := hs a ha
    obtain ⟨hsane', m, hm, hholds'⟩ := ht b hb
    have hnumber : a.number = b.number := by
      have hnumber := congrArg Transfer.number htransfer
      exact hnumber
    have hlink : l.heard = m.heard := by
      obtain ⟨m', hm', hsame⟩ := h.link hl
      rw [hnumber, hm] at hm'
      cases hm'
      exact hsame
    have hheard : (s.working a l).heard = (t.working b m).heard := by
      refine Working.heard_congr htransfer ?_ h.consumer ?_ rfl
      · show l.heard.held = m.heard.held
        rw [hlink]
      · show (s.clock : Time) = t.clock
        rw [h.clock]
    -- the two have one configuration, and so the framers have one maximum
    rw [← h.config] at hsane'
    rw [settle_of_there ha hl, settle_of_there hb hm]
    exact h.absorb (Working.settle_heard hsane hsane' hheard)
      (Working.settle_link hsane hsane' hholds hholds' hheard)

/-- What is unheard has settled already in the other. -/
theorem settle_left (h : Alike s t) (hs : s.Attached) (ht : t.Steady) : Alike s.settle t := by
  have hsettled := h.settle hs ht.attached
  rwa [settle_of_resting ht.resting ht.tidy.forsaken] at hsettled

/-! ## §3. The watchdog. -/

theorem heard_release (l m : Link) (h : l.heard = m.heard) : l.release.heard = m.release.heard := by
  calc l.release.heard = l.heard.release := rfl
    _ = m.heard.release := by rw [h]
    _ = m.release.heard := rfl

theorem dismiss (h : Alike s t) : Alike s.dismiss t.dismiss := by
  unfold Simulation.dismiss
  rw [h.watch]
  cases t.watch with
  | attempting number outcome moment =>
    cases outcome with
    | ok link => exact { h.modify link heard_release with watch := rfl }
    | error kind => exact { h with watch := rfl }
  | _ => exact { h with watch := rfl }

/-- What is there and held is so in both. -/
theorem held (h : Alike s t) {n : Nat}
    (hheld : ∃ l, s.links[n]? = some l ∧ l.inbound.readerOpen = true) :
    ∃ m, t.links[n]? = some m ∧ m.inbound.readerOpen = true := by
  obtain ⟨l, hl, hopen⟩ := hheld
  obtain ⟨m, hm, hsame⟩ := h.link hl
  have hinbound : l.inbound = m.inbound := by
    have hinbound := congrArg Link.inbound hsame
    exact hinbound
  exact ⟨m, hm, hinbound ▸ hopen⟩

theorem firstLook (h : Alike s t) : s.firstLook = t.firstLook := by
  unfold Simulation.firstLook
  rw [h.clock, h.config]

/-- The link is up in both. -/
theorem linkUp (h : Alike s t) {n : Nat}
    (hheld : ∃ l, s.links[n]? = some l ∧ l.inbound.readerOpen = true) :
    Alike (s.linkUp n) (t.linkUp n) := by
  have hpublished := h.publish .active
  have hlinks : ∀ a : Simulation, (a.publish .active).links = a.links :=
    fun a => ((Apart.refl a).publish .active).links
  unfold Simulation.linkUp startTransfer
  refine Alike.settle ?_ (attached_of_fresh rfl ?_) (attached_of_fresh rfl ?_)
  · refine { hpublished with watch := ?_, transfer := ?_ }
    · exact h.firstLook
    · show some (Transfer.heard _) = some (Transfer.heard _)
      rw [hpublished.config]
  · rw [← hlinks] at hheld
    exact hheld
  · have hheld' := h.held hheld
    rw [← hlinks] at hheld'
    exact hheld'

theorem reconnected (h : Alike s t) {n : Nat}
    (hheld : ∃ l, s.links[n]? = some l ∧ l.inbound.readerOpen = true) :
    Alike (s.reconnected n) (t.reconnected n) := by
  have hnoted : Alike (s.note (.reconnected s.endpoint.text))
      (t.note (.reconnected t.endpoint.text)) := h.note (by rw [h.endpoint])
  exact hnoted.linkUp hheld

theorem refusal (h : Alike s t) (kind : IoKind) : s.refusal kind = t.refusal kind := by
  unfold Simulation.refusal
  rw [h.endpoint]

theorem reconnectFailed (h : Alike s t) (number : Nat) (kind : IoKind) {pause pause' : Nat}
    (hpause : pause = pause') :
    Alike (s.reconnectFailed number kind pause) (t.reconnectFailed number kind pause') := by
  have hnoted : Alike (s.note (.reconnectFailed number (s.refusal kind)))
      (t.note (.reconnectFailed number (t.refusal kind))) := h.note (by rw [h.refusal])
  have hwatch : Watch.pausing number (s.clock + pause) = .pausing number (t.clock + pause') := by
    rw [h.clock, hpause]
  exact { hnoted with watch := hwatch }

/-- Trying to reconnect takes the same course in both. -/
theorem reconnect {plan : List Attempt} (h : Alike s t) (number : Nat)
    (hheld : ∀ n ∈ plan.flatMap (·.link?.toList),
      ∃ l, s.links[n]? = some l ∧ l.inbound.readerOpen = true) :
    Alike (s.reconnect number plan) (t.reconnect number plan) := by
  -- on the plan, since failures without a pause go on with the next attempt of it
  induction plan generalizing s t number with
  | nil =>
    have hplanned : Alike { s with plan := [] } { t with plan := [] } := { h with plan := rfl }
    have hattempt := hplanned.note (x := .attempt) rfl
    refine hattempt.reconnectFailed number .connectionRefused ?_
    unfold restPause
    rw [h.config]
  | cons a plan ih =>
    have hplanned : Alike { s with plan := plan } { t with plan := plan } := { h with plan := rfl }
    have hattempt := hplanned.note (x := .attempt) rfl
    rw [List.flatMap_cons] at hheld
    unfold Simulation.reconnect
    dsimp only
    split
    next => exact { hattempt with watch := by rw [hattempt.clock] }
    next =>
      split
      next n hlink =>
        refine hattempt.reconnected (hheld n (List.mem_append_left _ ?_))
        rw [Attempt.link?_of_outcome hlink]
        exact List.mem_singleton_self _
      next kind hkind =>
        have hfailed := hattempt.reconnectFailed number kind
          (congrArg SupervisorConfig.reconnect hattempt.config)
        rw [hfailed.config]
        split
        next => exact ih hfailed (number + 1) fun n hn => hheld n (List.mem_append_right _ hn)
        next => exact hfailed

end Alike

/-- At rest a link is over as soon as it is to end. -/
theorem Steady.linkIsOver_eq (hs : s.Steady) :
    s.linkIsOver = (s.transfer.map Transfer.ended).getD true := by
  unfold linkIsOver
  cases ha : s.transfer with
  | none => rfl
  | some a =>
    obtain ⟨hsane, l, hl, -⟩ := hs.attached a ha
    exact (Working.isDone_of_rest hsane (hs.resting a l ha hl)).1

namespace Alike

theorem linkIsOver (h : Alike s t) (hs : s.Steady) (ht : t.Steady) :
    s.linkIsOver = t.linkIsOver := by
  have hended : s.transfer.map Transfer.ended = t.transfer.map Transfer.ended := by
    have hmap := congrArg (Option.map Transfer.ended) h.transfer
    rw [Option.map_map, Option.map_map] at hmap
    exact hmap
  rw [hs.linkIsOver_eq, ht.linkIsOver_eq, hended]

theorem replays (h : Alike s t) : s.replays = t.replays := by
  unfold Simulation.replays
  rw [h.config, h.endpoint]

theorem keepsAlive (h : Alike s t) : s.keepsAlive = t.keepsAlive := by
  unfold Simulation.keepsAlive
  rw [h.config, h.endpoint]

/-- What is queued is not heard. -/
theorem enqueue (h : Alike s t) (item : Outbound) : Alike (s.enqueue item) t := by
  have hqueued : Alike { s with queue := s.queue ++ [item] } t := { h with config := h.config }
  exact hqueued.note_unheard rfl

theorem symm (h : Alike s t) : Alike t s :=
  ⟨h.config.symm, h.endpoint.symm, h.clock.symm, h.lifecycle.symm, h.handedOver.symm,
    h.released.symm, h.watch.symm, h.transfer.symm, h.consumer.symm, h.links.symm, h.plan.symm,
    h.record.symm⟩

/-- A link that is over is noticed in both. -/
theorem lose (h : Alike s t) (hheld : ∀ n ∈ s.plan.flatMap (·.link?.toList),
    ∃ l, s.links[n]? = some l ∧ l.inbound.readerOpen = true) :
    Alike
      (if s.replays then
        ((s.note (.replayFinished s.endpoint.text)).publish .drained).dismiss
      else
        let s := (s.note (.connectionLost s.endpoint.text)).publish .reconnecting
        s.reconnect 1 s.plan)
      (if t.replays then
        ((t.note (.replayFinished t.endpoint.text)).publish .drained).dismiss
      else
        let t := (t.note (.connectionLost t.endpoint.text)).publish .reconnecting
        t.reconnect 1 t.plan) := by
  rw [h.replays]
  split
  next =>
    have hfinished : Alike (s.note (.replayFinished s.endpoint.text))
        (t.note (.replayFinished t.endpoint.text)) := h.note (by rw [h.endpoint])
    exact (hfinished.publish .drained).dismiss
  next =>
    have hnoted : Alike (s.note (.connectionLost s.endpoint.text))
        (t.note (.connectionLost t.endpoint.text)) := h.note (by rw [h.endpoint])
    have hlost := hnoted.publish .reconnecting
    dsimp only
    rw [← hlost.plan]
    refine hlost.reconnect 1 ?_
    rw [publish_plan, ((Apart.refl _).publish .reconnecting).links]
    exact hheld

/-- The watchdog finds the same in both, and does the same. -/
theorem look (h : Alike s t) (hs : s.Steady) (ht : t.Steady) : Alike s.look t.look := by
  rw [look_of_sound hs.tidy.sound, look_of_sound ht.tidy.sound]
  unfold inspect
  rw [h.linkIsOver hs ht]
  split
  next =>
    have hdetached : Alike { s with transfer := none } { t with transfer := none } :=
      { h with transfer := rfl }
    refine hdetached.lose ?_
    exact fun n hn => hs.ordered.held (List.mem_append_right _ hn)
  next =>
    have hlooks : Alike { s with watch := .looking (s.clock + s.config.watchdog) }
        { t with watch := .looking (t.clock + t.config.watchdog) } :=
      { h with watch := by rw [h.clock, h.config] }
    dsimp only
    rw [hlooks.keepsAlive]
    split
    next =>
      have hqueued := ((hlooks.enqueue .keepalive).symm.enqueue .keepalive).symm
      refine (hqueued.note (x := .ping) rfl).settle ?_ ?_
      · exact hs.attached.keep rfl rfl fun _ _ => rfl
      · exact ht.attached.keep rfl rfl fun _ _ => rfl
    next => exact hlooks

theorem wake (h : Alike s t) (hs : s.Steady) (ht : t.Steady) : Alike s.wake t.wake := by
  have hplan : ∀ n ∈ s.plan.flatMap (·.link?.toList),
      ∃ l, s.links[n]? = some l ∧ l.inbound.readerOpen = true :=
    fun n hn => hs.ordered.held (List.mem_append_right _ hn)
  unfold Simulation.wake
  rw [← h.watch]
  split
  next => exact h
  next => exact h.look hs ht
  next number n moment hwatch =>
    -- the link that the attempt brings was to come, so it is held
    refine h.reconnected (hs.ordered.held ?_)
    unfold upcoming
    rw [hwatch]
    exact List.mem_cons_self ..
  next number kind moment hwatch =>
    have hfailed := h.reconnectFailed number kind (congrArg SupervisorConfig.reconnect h.config)
    dsimp only
    rw [hfailed.config, ← hfailed.plan]
    split
    next => exact hfailed.reconnect (number + 1) hplan
    next => exact hfailed
  next number moment hwatch =>
    rw [← h.plan]
    exact h.reconnect _ hplan
  next => exact h

/-! ## §4. Time. -/

theorem atClock (h : Alike s t) {moment moment' : Nat} (hmoment : moment = moment') :
    Alike { s with clock := moment } { t with clock := moment' } :=
  { h with clock := hmoment }

theorem runUntil (h : Alike s t) (hs : s.Steady) (ht : t.Steady) (moment n : Nat) :
    Alike (runUntil moment n s) (Simulation.runUntil moment n t) := by
  induction n generalizing s t with
  | zero => exact h.atClock rfl
  | succ n ih =>
    have hdeadline : s.deadline? = t.deadline? := deadline?_congr h.watch
    unfold Simulation.runUntil
    rw [← hdeadline]
    split
    next => exact h.atClock rfl
    next d hd =>
      split
      next =>
        -- the watchdog acts in both at the same moment
        have hnow := h.atClock (show max s.clock d = max t.clock d by rw [h.clock])
        have hsnow := (clock_moves s (max s.clock d)).steady hs
        have htnow := (clock_moves t (max t.clock d)).steady ht
        have hswake := wake_moves hsnow.tidy (hs.tidy.going hd)
        have htwake := wake_moves htnow.tidy (ht.tidy.going (hdeadline ▸ hd))
        exact ih (hnow.wake hsnow htnow) (hswake.steady hsnow) (htwake.steady htnow)
      next => exact h.atClock rfl

/-- **Time passes alike.** -/
theorem elapse (h : Alike s t) (hs : s.Steady) (ht : t.Steady) (ms : Nat) :
    Alike (s.elapse ms) (t.elapse ms) := by
  unfold Simulation.elapse
  rw [h.clock]
  exact h.runUntil hs ht _ ms

end Alike

end Simulation

end ReceiverLink
