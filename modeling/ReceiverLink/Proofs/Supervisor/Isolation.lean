/-
  ReceiverLink.Proofs.Supervisor.Isolation
  ────────────────────────────────
  **The outbound side does not disturb the inbound side.**

  Steps that concern sending alone are commands, the receiver's reads, and
  failures prepared for writes, flushes and shutting a link down.  Leaving them
  out of a run leaves a supervisor that is alike.  So two runs that differ in
  such steps only hand over the same telegrams, publish the same states and
  make the same attempts, all at the same times.

  Main statements:
    * `step_alike`, `skip_alike` — a step done in both, or in one alone;
    * `run_alike` — a run, and the same run without such steps;
    * `outbound_isolated` — two runs that differ in such steps only.
-/
import Mathlib.Data.List.Basic
import ReceiverLink.Proofs.Supervisor.Alike

namespace ReceiverLink

/-- The step does not concern sending alone. -/
def Action.isInbound : Action → Bool
  | .send _ => false
  | .receiverRead _ => false
  | .fail _ operation _ => operation = .read
  | _ => true

namespace Simulation

variable {s t : Simulation}

namespace Alike

/-! ## §1. Calls. -/

theorem setPort (h : Alike s t) (text : String) :
    Alike (s.setPort text).1 (t.setPort text).1 := by
  unfold Simulation.setPort
  by_cases hover : s.handedOver = true
  · rw [if_pos hover, if_pos (h.handedOver ▸ hover)]
    exact h
  · rw [if_neg hover, if_neg (h.handedOver ▸ hover), ← h.endpoint]
    split
    next endpoint hendpoint =>
      have hchanged : Alike { s with endpoint := endpoint } { t with endpoint := endpoint } :=
        { h with endpoint := rfl }
      exact hchanged.note rfl
    next => exact h

theorem connectFailed (h : Alike s t) (kind : IoKind) :
    Alike (s.connectFailed kind).1 (t.connectFailed kind).1 := by
  unfold Simulation.connectFailed
  exact h.note (by rw [h.endpoint, h.refusal])

/-- The watchdog owns the endpoint. -/
theorem handOver (h : Alike s t) :
    Alike { s with handedOver := true } { t with handedOver := true } :=
  { h with handedOver := rfl }

/-- The same attempt is made, and it goes the same way. -/
theorem connect (h : Alike s t) (hs : s.Steady) : Alike s.connect.1 t.connect.1 := by
  unfold Simulation.connect
  rw [← h.lifecycle]
  split
  next => exact h
  next => exact h
  next => exact h
  next => exact h
  next =>
    have hattempt := h.note (x := .attempt) rfl
    rw [← h.plan]
    split
    next => exact hattempt.connectFailed .connectionRefused
    next a plan hplan =>
      have hlate : Alike { s.note .attempt with plan := plan, clock := s.clock + a.delay }
          { t.note .attempt with plan := plan, clock := t.clock + a.delay } :=
        { hattempt with plan := rfl, clock := by rw [h.clock] }
      dsimp only
      split
      next kind hkind => exact hlate.connectFailed kind
      next n hlink =>
        have hconnected := hlate.note
          (show Happening.connected s.endpoint.text s.endpoint.kind
            = .connected t.endpoint.text t.endpoint.kind by rw [h.endpoint])
        refine hconnected.handOver.linkUp (hs.ordered.held ?_)
        unfold upcoming
        rw [hplan, List.flatMap_cons]
        refine List.mem_append_right _ (List.mem_append_left _ ?_)
        rw [Attempt.link?_of_outcome hlink]
        exact List.mem_singleton_self _

/-- The link is to end in both. -/
theorem ending (h : Alike s t) : Alike s.ending t.ending := by
  refine { h with transfer := ?_ }
  show (s.transfer.map _).map _ = (t.transfer.map _).map _
  have hmap := congrArg (Option.map fun a : Transfer => { a with ended := true }) h.transfer
  rw [Option.map_map, Option.map_map] at hmap ⊢
  exact hmap

theorem endLink (h : Alike s t) (hs : s.Attached) (ht : t.Attached) :
    Alike s.endLink t.endLink :=
  h.ending.settle hs.ending ht.ending

/-- What runs is ended in both. -/
theorem cancel (h : Alike s t) (hs : s.Steady) (ht : t.Steady) : Alike s.cancel t.cancel :=
  (h.endLink hs.attached ht.attached).dismiss

theorem stop (h : Alike s t) : Alike s.stop t.stop :=
  (h.publish .stopped).note rfl

theorem shutdown (h : Alike s t) (hs : s.Steady) (ht : t.Steady) :
    Alike s.shutdown t.shutdown := by
  unfold Simulation.shutdown
  rw [h.watch]
  split
  next hfailed =>
    -- the watchdog has failed in both, and the links end after it
    have hgone := (h.dismiss.note (x := .watchdogFailed) rfl).stop
    have hfailed' : s.watch.hasFailed = true := h.watch ▸ hfailed
    exact hgone.endLink ((stop_moves hfailed').steady hs).attached
      ((stop_moves hfailed).steady ht).attached
  next => exact (h.cancel hs ht).stop

theorem release (h : Alike s t) (hs : s.Steady) (ht : t.Steady) : Alike s.release t.release := by
  have hcancelled := h.cancel hs ht
  exact { hcancelled with released := rfl }

/-- A call is answered in both, or in none. -/
theorem call (h : Alike s t) {f : Simulation → Simulation × Except SupervisorError Unit}
    (hf : Alike (f s).1 (f t).1) : Alike (s.call f).1 (t.call f).1 := by
  unfold Simulation.call
  rw [h.released]
  split
  next => exact h
  next => exact hf

end Alike

/-! ## §2. The receiver's end of a link. -/

/-- A link may be changed in this way. -/
def Changes (f : Link → Link) (n : Nat) (l : Link) : Prop :=
  ∃ es, l.Change n es (f l)

theorem Steady.attached_modify (hs : s.Steady) {n : Nat} {f : Link → Link} {l : Link}
    (hl : s.links[n]? = some l) (change : Changes f n l) :
    Attached { s with links := s.links.modify n f } := by
  obtain ⟨es, hchange⟩ := change
  rw [modify_of_there hl]
  exact (Stir.change hl hchange).attached hs.attached hs.ordered

theorem Steady.onLink (hs : s.Steady) {n : Nat} {f : Link → Link} {l : Link}
    (hl : s.links[n]? = some l) (change : Changes f n l) : (s.onLink n f).Steady := by
  obtain ⟨es, hchange⟩ := change
  exact (onLink_moves hl hchange).steady hs

namespace Alike

/-- The same is done to a link in both. -/
theorem onLink (h : Alike s t) (hs : s.Steady) (ht : t.Steady) {n : Nat} {f : Link → Link}
    {l m : Link} (hl : s.links[n]? = some l) (hm : t.links[n]? = some m) (change : Changes f n l)
    (change' : Changes f n m) (hf : ∀ l m : Link, l.heard = m.heard → (f l).heard = (f m).heard) :
    Alike (s.onLink n f) (t.onLink n f) :=
  (h.modify n hf).settle (hs.attached_modify hl change) (ht.attached_modify hm change')

/-- What is done to the outbound side of a link is done in the one alone. -/
theorem onLink_unheard (h : Alike s t) (hs : s.Steady) (ht : t.Steady) {n : Nat} {f : Link → Link}
    {l : Link} (hl : s.links[n]? = some l) (change : Changes f n l)
    (hf : ∀ l : Link, (f l).heard = l.heard) : Alike (s.onLink n f) t :=
  (h.modify_unheard n hf).settle_left (hs.attached_modify hl change) ht

/-- On a link that is not there nothing is done. -/
theorem onLink_none (h : Alike s t) (hs : s.Steady) (ht : t.Steady) {n : Nat} {f : Link → Link}
    (hl : s.links[n]? = none) : Alike (s.onLink n f) t := by
  unfold Simulation.onLink
  rw [modify_of_missing hl]
  exact h.settle_left hs.attached ht

theorem inbound_eq {l m : Link} (h : l.heard = m.heard) : l.inbound = m.inbound := by
  have hinbound := congrArg Link.inbound h
  exact hinbound

theorem receiverOpen_eq {l m : Link} (h : l.heard = m.heard) :
    l.receiverOpen = m.receiverOpen := by
  have hopen := congrArg Link.receiverOpen h
  exact hopen

/-- The receiver writes the same in both, as the same fits. -/
theorem receiverWrite (h : Alike s t) (hs : s.Steady) (ht : t.Steady) (number n count : Nat)
    (bytes : List UInt8) :
    Alike (receiverWrite number n count bytes s).1
      (Simulation.receiverWrite number n count bytes t).1 := by
  induction n generalizing s t count bytes with
  | zero => exact h
  | succ n ih =>
    unfold Simulation.receiverWrite
    cases hl : s.links[number]? with
    | none =>
      rw [h.link_none hl]
      exact h
    | some l =>
      obtain ⟨m, hm, hsame⟩ := h.link hl
      rw [hm]
      dsimp only
      rw [← receiverOpen_eq hsame, ← inbound_eq hsame]
      split
      next => exact h
      next =>
        split
        next => exact h
        next =>
          split
          next => exact h
          next hwhole =>
            have hwhole : l.inbound.isBroken = false := by simpa using hwhole
            split
            next => exact h
            next =>
              -- the inbound pipes are the same, so the same part fits into both
              generalize l.inbound.fitting bytes = part
              have hput : ∀ k : Link, k.inbound.isBroken = false →
                  Changes (fun k => { k with inbound := k.inbound.put part }) number k :=
                fun k hk => ⟨_, .put part hk⟩
              have hchange := hput l hwhole
              have hchange' := hput m (inbound_eq hsame ▸ hwhole)
              refine ih ?_ (hs.onLink hl hchange) (ht.onLink hm hchange') _ _
              refine h.onLink hs ht hl hm hchange hchange' ?_
              intro a b hab
              calc ({ a with inbound := a.inbound.put part } : Link).heard
                  = { a.heard with inbound := a.heard.inbound.put part } := rfl
                _ = { b.heard with inbound := b.heard.inbound.put part } := by rw [hab]

/-- The receiver's reading is not heard. -/
theorem receiverRead (h : Alike s t) (hs : s.Steady) (ht : t.Steady) (number n : Nat)
    (before : List UInt8) : Alike (Simulation.receiverRead number n before s).1 t := by
  induction n generalizing s before with
  | zero => exact h
  | succ n ih =>
    unfold Simulation.receiverRead
    split
    next => exact h
    next l hl =>
      split
      next => exact h
      next =>
        split
        next => exact h
        next =>
          have hchange : Changes
              (fun k => { k with outbound := { k.outbound with buffer := [] } }) number l :=
            ⟨_, .got⟩
          exact ih (h.onLink_unheard hs ht hl hchange fun _ => rfl) (hs.onLink hl hchange) _

theorem receiverDoes (h : Alike s t) (hs : s.Steady) (ht : t.Steady) (number : Nat)
    {f : Link → Link} (change : ∀ l : Link, Changes f number l)
    (hf : ∀ l m : Link, l.heard = m.heard → (f l).heard = (f m).heard) :
    Alike (s.receiverDoes number f).1 (t.receiverDoes number f).1 := by
  unfold Simulation.receiverDoes
  cases hl : s.links[number]? with
  | none =>
    rw [h.link_none hl]
    exact h
  | some l =>
    obtain ⟨m, hm, hsame⟩ := h.link hl
    rw [hm]
    dsimp only
    rw [← receiverOpen_eq hsame]
    split
    next => exact h.onLink hs ht hl hm (change l) (change m) hf
    next => exact h

end Alike

/-! ## §3. Steps. -/

/-- A step done in both leaves them alike. -/
theorem step_alike (h : Alike s t) (hs : s.Steady) (ht : t.Steady) {a : Action}
    (ha : a.isInbound = true) : Alike (s.step a).1 (t.step a).1 := by
  cases a with
  | accept capacity delay =>
    refine { h with links := ?_, plan := ?_ }
    · show (s.links.push _).map _ = (t.links.push _).map _
      rw [Array.map_push, Array.map_push, h.links]
    · show s.plan ++ [⟨.ok s.links.size, delay⟩] = t.plan ++ [⟨.ok t.links.size, delay⟩]
      rw [h.plan, h.size]
  | refuse kind delay =>
    have hplan : s.plan ++ [⟨.error kind, delay⟩] = t.plan ++ [⟨.error kind, delay⟩] := by
      rw [h.plan]
    exact { h with plan := hplan }
  | connect => exact h.call (h.connect hs)
  | setPort text => exact h.call (h.setPort text)
  | shutdown => exact h.call (f := fun s => (s.shutdown, .ok ())) (h.shutdown hs ht)
  | drop => exact h.call (f := fun s => (s.release, .ok ())) (h.release hs ht)
  | dropConsumer => exact { h with consumer := rfl }
  | advance ms => exact h.elapse hs ht ms
  | fail number operation kind =>
    have hread : operation = .read := by simpa [Action.isInbound] using ha
    subst hread
    show Alike (s.onLink number _) (t.onLink number _)
    cases hl : s.links[number]? with
    | none =>
      -- the link is missing in both, and each of them is left as it is in turn
      have hmissing := (h.onLink_none (f := (·.prepare .read kind)) hs ht hl).symm
      have hsteady : (s.onLink number (·.prepare .read kind)).Steady :=
        (onLink_missing hl).steady hs
      exact (hmissing.onLink_none ht hsteady (h.link_none hl)).symm
    | some l =>
      obtain ⟨m, hm, -⟩ := h.link hl
      refine h.onLink hs ht hl hm ⟨_, .failRead kind⟩ ⟨_, .failRead kind⟩ ?_
      intro a b hab
      calc (a.prepare .read kind).heard = a.heard.prepare .read kind := rfl
        _ = b.heard.prepare .read kind := by rw [hab]
  | receiverWrite number bytes => exact h.receiverWrite hs ht number _ _ _
  | receiverShutdown number =>
    refine h.receiverDoes hs ht number (fun _ => ⟨_, .shutdown⟩) ?_
    intro a b hab
    calc ({ a with inbound := a.inbound.closeWriter } : Link).heard
        = { a.heard with inbound := a.heard.inbound.closeWriter } := rfl
      _ = { b.heard with inbound := b.heard.inbound.closeWriter } := by rw [hab]
  | receiverClose number =>
    refine h.receiverDoes hs ht number (fun _ => ⟨_, .hangUp⟩) ?_
    intro a b hab
    calc a.hangUp.heard = a.heard.hangUp := rfl
      _ = b.heard.hangUp := by rw [hab]
  | send command => cases ha
  | receiverRead number => cases ha

/-- A step that concerns sending alone can be left out. -/
theorem skip_alike (h : Alike s t) (hs : s.Steady) (ht : t.Steady) {a : Action}
    (ha : a.isInbound = false) : Alike (s.step a).1 t := by
  cases a with
  | send command =>
    show Alike (s.call (Simulation.send · command)).1 t
    unfold Simulation.call
    split
    next => exact h
    next =>
      dsimp only
      unfold Simulation.send
      split
      next => exact h.note_unheard rfl
      next =>
        split
        next => exact h
        next => exact h
        next =>
          split
          next => exact h
          next =>
            -- the transfer that settles has nothing to do but to write
            refine (h.enqueue (.command command)).settle_left ?_ ht
            exact hs.attached.keep rfl rfl fun _ _ => rfl
  | receiverRead number => exact h.receiverRead hs ht number _ _
  | fail number operation kind =>
    have hother : operation ≠ .read := by simpa [Action.isInbound] using ha
    cases hl : s.links[number]? with
    | none => exact h.onLink_none hs ht hl
    | some l =>
      refine h.onLink_unheard hs ht hl ⟨_, .fail kind hother⟩ ?_
      intro k
      cases operation with
      | read => exact absurd rfl hother
      | _ => rfl
  | _ => cases ha

theorem Steady.step (hs : s.Steady) (a : Action) : (s.step a).1.Steady := by
  obtain ⟨es, hmoves, -⟩ := step_moves hs.tidy a
  exact hmoves.steady hs

/-! ## §4. Runs. -/

/-- **Steps that concern sending alone can be left out of a run.** -/
theorem run_alike (h : Alike s t) (hs : s.Steady) (ht : t.Steady) (actions : List Action) :
    Alike (s.run actions) (t.run (actions.filter Action.isInbound)) := by
  induction actions generalizing s t with
  | nil => exact h
  | cons a rest ih =>
    show Alike ((s.step a).1.run rest) _
    cases ha : a.isInbound with
    | true =>
      rw [List.filter_cons_of_pos ha]
      exact ih (step_alike h hs ht ha) (hs.step a) (ht.step a)
    | false =>
      rw [List.filter_cons_of_neg (by simp [ha])]
      exact ih (skip_alike h hs ht ha) (hs.step a) ht

/-! ## §5. What is seen. -/

/-- What is seen of the record, each with its time. -/
def seen {β : Type} (s : Simulation) (see : Happening → Option β) : List (Nat × β) :=
  s.record.toList.filterMap fun p => (see p.2).map fun x => (p.1, x)

/-- What is not about sending is seen alike. -/
theorem Alike.seen {β : Type} {see : Happening → Option β} (h : Alike s t)
    (hsee : ∀ x : Happening, x.isHeard = false → see x = none) : s.seen see = t.seen see := by
  have hheard : ∀ a : Simulation, a.seen see
      = a.heardRecord.filterMap fun p => (see p.2).map fun x => (p.1, x) := by
    intro a
    unfold Simulation.seen heardRecord
    rw [List.filterMap_filter]
    refine List.filterMap_congr ?_
    intro p _
    cases hp : p.2.isHeard with
    | true => rfl
    | false =>
      rw [hsee p.2 hp]
      rfl
  rw [hheard, hheard, h.record]

/-- **The outbound side does not disturb the inbound side.**  Runs that differ
only in steps that concern sending alone, and in the pace, hand over the same
telegrams, publish the same states and make the same attempts, at the same
times. -/
theorem outbound_isolated (pace pace' : Pace) (config : SupervisorConfig) (endpoint : Endpoint)
    (actions actions' : List Action)
    (hsame : actions.filter Action.isInbound = actions'.filter Action.isInbound) :
    ((start pace config endpoint).run actions).seen Happening.telegram?
        = ((start pace' config endpoint).run actions').seen Happening.telegram?
      ∧ ((start pace config endpoint).run actions).seen Happening.published?
        = ((start pace' config endpoint).run actions').seen Happening.published?
      ∧ ((start pace config endpoint).run actions).seen Happening.attempt?
        = ((start pace' config endpoint).run actions').seen Happening.attempt? := by
  have hstart := start_steady pace config endpoint
  have hstart' := start_steady pace' config endpoint
  -- the pace is not among what is alike
  have hpace : Alike (start pace' config endpoint) (start pace config endpoint) :=
    ⟨rfl, rfl, rfl, rfl, rfl, rfl, rfl, rfl, rfl, rfl, rfl, rfl⟩
  have h := run_alike (Alike.refl _) hstart hstart actions
  have h' := run_alike hpace hstart' hstart actions'
  rw [← hsame] at h'
  -- both are alike to the run without such steps
  have hseen : ∀ {β : Type} {see : Happening → Option β},
      (∀ x : Happening, x.isHeard = false → see x = none) →
      ((start pace config endpoint).run actions).seen see
        = ((start pace' config endpoint).run actions').seen see :=
    fun hsee => (h.seen hsee).trans (h'.seen hsee).symm
  refine ⟨hseen ?_, hseen ?_, hseen ?_⟩
  all_goals
    intro x hx
    cases x <;> first | rfl | cases hx

/-- A command that does not fit into the pipe, and is never read. -/
def stalling : List Action :=
  [.accept 4 0, .connect, .send [0x61, 0x62, 0x63, 0x64, 0x65, 0x66],
    .receiverWrite 0 [0x24, 0x47, 0x50], .fail 0 .flush .timedOut, .advance 700,
    .receiverWrite 0 [0x0D, 0x0A], .send [0x67], .receiverClose 0, .advance 1300]

/-- The same without any command. -/
def listening : List Action :=
  [.accept 4 0, .connect, .receiverWrite 0 [0x24, 0x47, 0x50], .advance 700,
    .receiverWrite 0 [0x0D, 0x0A], .receiverClose 0, .advance 1300]

theorem outbound_isolated_stalling :
    stalling.filter Action.isInbound = listening.filter Action.isInbound
      ∧ ((start .cooperative {} (.serial {})).run stalling).seen Happening.telegram?
        = [(700, ⟨.nmea, [0x24, 0x47, 0x50, 0x0D, 0x0A], 0⟩)]
      ∧ ((start .cooperative {} (.serial {})).run stalling).seen Happening.published?
        = [(0, .disconnected, .active), (1000, .active, .reconnecting)]
      ∧ ((start .cooperative {} (.serial {})).run stalling).seen Happening.attempt?
        = [(0, ()), (1000, ()), (2000, ())] := by
  have hsame : stalling.filter Action.isInbound = listening.filter Action.isInbound := by decide
  obtain ⟨htelegrams, hstates, hattempts⟩ :=
    outbound_isolated .cooperative .cooperative {} (.serial {}) stalling listening hsame
  refine ⟨hsame, ?_, ?_, ?_⟩
  · rw [htelegrams]
    decide +kernel
  · rw [hstates]
    decide +kernel
  · rw [hattempts]
    decide +kernel

end Simulation

end ReceiverLink
