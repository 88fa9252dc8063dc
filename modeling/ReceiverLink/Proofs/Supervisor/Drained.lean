/-
  ReceiverLink.Proofs.Supervisor.Drained
  ────────────────────────────────
  **A recording that is drained has been handed over whole.**

  A supervisor that plays brings up one link in its life.  When the receiver
  has closed that link and the watchdog finds it over, all its bytes are taken
  and framed; the supervisor is drained, and hands nothing over any more.

  Main statements:
    * `Moves.sole`, `Acts.single` — nothing happens on any other link, and one
      that the receiver has closed is spent;
    * `run_ends` — once drained, nothing but steering is recorded;
    * `drained_complete` — what the consumer has when a supervisor is drained.
-/
import ReceiverLink.Proofs.Supervisor.Endings
import ReceiverLink.Proofs.Supervisor.Leaving
import ReceiverLink.Proofs.Supervisor.Lifecycle
import ReceiverLink.Proofs.Supervisor.Shutdown
import ReceiverLink.Proofs.Supervisor.Untraced

namespace ReceiverLink

/-! ## §1. Who closes a link has said all. -/

/-- The receiver has closed the link. -/
def Happening.isClose : Happening → Bool
  | .closedByPeer _ => true
  | _ => false

theorem Happening.isClose_of_side {h : Happening} (hside : h.side ≠ .reading) :
    h.isClose = false := by
  cases h <;> first | rfl | exact absurd rfl hside

/-- What is no doing of a transfer is about no link, and closes none. -/
theorem Happening.apart_of_side {h : Happening} (hside : h.side.ofTransfer = false) :
    h.link? = none ∧ h.isClose = false ∧ h.handover? = none := by
  cases h <;> first | exact ⟨rfl, rfl, rfl⟩ | cases hside

namespace Working

variable {w w' : Working}

theorem isClose_framed {consumer : Bool} {step : Framer.Step} {x : Happening}
    (hx : x ∈ framed consumer step) : x.isClose = false := by
  rcases eq_of_mem_framed hx with ⟨event, rfl⟩ | ⟨t, rfl⟩
  · rfl
  · rfl

/-- The receiver is seen to have closed the link only when all its bytes are taken. -/
theorem Operates.closed (hop : Operates w w') {hs : List Happening}
    (hrecord : w'.happenings = w.happenings ++ hs) {x : Happening} (hx : x ∈ hs)
    (hclose : x.isClose = true) : w.link.inbound.atEnd = true := by
  have hnew : ∀ {more : List Happening}, w'.happenings = w.happenings ++ more → x ∈ more := by
    intro more hmore
    rwa [← List.append_cancel_left (hrecord.symm.trans hmore)]
  -- of all operations there is one that records it
  have hother : x.isClose = false → w.link.inbound.atEnd = true := by
    intro hno
    rw [hno] at hclose
    cases hclose
  cases hop with
  | arrange => cases hnew (List.append_nil _).symm
  | read reads =>
    cases reads with
    | stop =>
      rw [stopReading_eq] at hnew
      have hmem := hnew (happenings_add _ _)
      rw [List.mem_singleton.mp hmem] at hother
      exact hother rfl
    | retry => cases hnew (List.append_nil _).symm
    | @fail kind =>
      unfold failReading at hnew
      rw [drop_eq] at hnew
      have hmem := hnew (happenings_add _ _)
      unfold dropped at hmem
      rcases List.mem_append.mp hmem with hframed | hlast
      · exact hother (isClose_framed hframed)
      · rcases List.mem_cons.mp hlast with rfl | hlast
        · exact hother rfl
        · rw [List.mem_singleton.mp hlast] at hother
          exact hother rfl
    | close _ _ _ atEnd => exact atEnd
    | take =>
      rw [readOnce_eq] at hnew
      have hmem := hnew (happenings_add _ _)
      rcases List.mem_cons.mp hmem with rfl | hframed
      · exact hother rfl
      · exact hother (isClose_framed hframed)
  | write writes =>
    obtain ⟨more, hmore, hside⟩ := writes.keepsInbound.record
    refine hother (Happening.isClose_of_side ?_)
    rcases (hside x (hnew hmore)).1 with hwriting | hclosing
    · rw [hwriting]
      decide
    · rw [hclosing]
      decide
  | finish =>
    rw [finish_eq] at hnew
    have hmem := hnew (happenings_add _ _)
    rw [eq_of_mem_cutOff hmem] at hother
    exact hother rfl

/-- If the receiver has closed the link, all its bytes are taken. -/
def Drained (w : Working) : Prop :=
  ∀ x ∈ w.happenings, x.isClose = true → w.link.inbound.atEnd = true

theorem Works.drained (hworks : Works w w') (h : Drained w) : Drained w' := by
  induction hworks with
  | refl => exact h
  | @tail a b hworks hop ih =>
    intro x hx hclose
    refine hop.inflow.atEnd ?_
    obtain ⟨hs, hrecord, -⟩ := hop.record
    rw [hrecord] at hx
    rcases List.mem_append.mp hx with hold | hnew
    · exact ih x hold hclose
    · exact hop.closed hrecord hnew hclose

end Working

namespace Simulation

variable {s s' : Simulation} {es : List Influence} {n : Nat} {p : Action × Answer} {replay : Bool}

/-! ## §2. One link, and no other. -/

/-- Nothing has happened on any other link; and if the receiver has closed this one, all its bytes
are taken. -/
structure Alone (n : Nat) (s : Simulation) : Prop where
  record : ∀ x ∈ s.happenings, x.On n
  closed : ∀ x ∈ s.happenings, x.isClose = true → s.Spent n

/-- Something is recorded that is no doing of a transfer. -/
theorem Alone.next (h : s.Alone n) {hs : List Happening}
    (hrecord : s'.happenings = s.happenings ++ hs) (hside : ∀ x ∈ hs, x.side.ofTransfer = false)
    (hspent : s.Spent n → s'.Spent n) : s'.Alone n := by
  refine ⟨?_, ?_⟩
  · intro x hx
    rw [hrecord] at hx
    rcases List.mem_append.mp hx with hold | hnew
    · exact h.record x hold
    · exact .of_none (Happening.apart_of_side (hside x hnew)).1 n
  · intro x hx hclose
    rw [hrecord] at hx
    rcases List.mem_append.mp hx with hold | hnew
    · exact hspent (h.closed x hold hclose)
    · rw [(Happening.apart_of_side (hside x hnew)).2.1] at hclose
      cases hclose

theorem alone_of_side (h : ∀ x ∈ s.happenings, x.side.ofTransfer = false) (n : Nat) :
    s.Alone n := by
  refine ⟨?_, ?_⟩
  · exact fun x hx => .of_none (Happening.apart_of_side (h x hx)).1 n
  · intro x hx hclose
    rw [(Happening.apart_of_side (h x hx)).2.1] at hclose
    cases hclose

/-- What the transfer does, it does on its own link. -/
theorem settle_alone (hcurrent : s.current? = some n) (h : s.Alone n) : s.settle.Alone n := by
  rcases s.settle_cases with hsame | ⟨t, link, ht, hthere, hsettled⟩
  · rw [hsame]
    exact h
  · have hn : t.number = n := by
      unfold current? at hcurrent
      rw [ht] at hcurrent
      exact Option.some.inj hcurrent
    subst hn
    have hworks := (s.working t link).settle_works
    have hspent := settle_spent (n := t.number) (s := s)
    rw [hsettled] at hspent ⊢
    generalize (s.working t link).settle = w at hworks hspent ⊢
    refine ⟨?_, ?_⟩
    · intro x hx
      rw [happenings_absorb] at hx
      rcases List.mem_append.mp hx with hold | hnew
      · exact h.record x hold
      · exact (recorded_of_works hworks x hnew).1
    · intro x hx hclose
      rw [happenings_absorb] at hx
      rcases List.mem_append.mp hx with hold | hnew
      · exact hspent (h.closed x hold hclose)
      · -- it has just been closed
        have hdrained : w.Drained := hworks.drained fun x hx => nomatch hx
        refine ⟨w.link, ?_, hdrained x hnew hclose⟩
        rw [getElem?_absorb hworks.same.number hthere]
        exact if_pos rfl

/-- The link is past, and as long as it is that of the transfer nothing happens on any other. -/
structure Sole (n : Nat) (s : Simulation) : Prop where
  past : s.Past n
  alone : s.current? = some n → s.Alone n

/-- Nothing is done by a transfer. -/
theorem Sole.next (h : s.Sole n) (hpast : s'.Past n)
    (hcurrent : s'.current? = some n → s.current? = some n) {hs : List Happening}
    (hrecord : s'.happenings = s.happenings ++ hs) (hside : ∀ x ∈ hs, x.side.ofTransfer = false)
    (hspent : s.Spent n → s'.Spent n) : s'.Sole n :=
  ⟨hpast, fun hnow => (h.alone (hcurrent hnow)).next hrecord hside hspent⟩

/-- Nothing is recorded but steering. -/
def Steered (s s' : Simulation) : Prop :=
  ∃ hs, s'.happenings = s.happenings ++ hs ∧ ∀ x ∈ hs, x.side = .steering

theorem Steered.outside (h : Steered s s') :
    ∃ hs, s'.happenings = s.happenings ++ hs ∧ ∀ x ∈ hs, x.side.ofTransfer = false := by
  obtain ⟨hs, hrecord, hside⟩ := h
  refine ⟨hs, hrecord, ?_⟩
  intro x hx
  rw [hside x hx]
  rfl

theorem Apart.steered (apart : Apart s s') : Steered s s' :=
  apart.record

theorem Calm.sole (hcalm : Calm s es s') (h : s.Sole n) : s'.Sole n := by
  have hspent : s.Spent n → s'.Spent n := hcalm.spent
  cases hcalm with
  | steer apart transfer upcoming =>
    obtain ⟨hs, hrecord, hside⟩ := apart.steered.outside
    refine h.next (h.past.mono (by rw [apart.links]) upcoming) ?_ hrecord hside hspent
    exact fun hnow => (congrArg (Option.map _) transfer).symm.trans hnow
  | detach => exact ⟨h.past, fun hnow => nomatch hnow⟩
  | dismiss apart transfer upcoming =>
    obtain ⟨hs, hrecord, hside⟩ := apart.steered.outside
    have hpast : s'.Past n := by
      refine h.past.mono (by rw [apart.links, size_dismiss]) ?_
      exact upcoming.trans (List.sublist_append_right _ _)
    refine h.next hpast ?_ hrecord hside hspent
    exact fun hnow => (congrArg (Option.map _) transfer).symm.trans hnow
  | accept capacity delay =>
    -- a new link comes after all others
    have hpast : Past { s with
        links := s.links.push (.new capacity)
        plan := s.plan ++ [⟨.ok s.links.size, delay⟩] } n := by
      refine ⟨?_, ?_⟩
      · show n < (s.links.push _).size
        rw [Array.size_push]
        exact Nat.lt_succ_of_lt h.past.1
      · intro m hm
        rw [upcoming_accept] at hm
        rcases List.mem_append.mp hm with hold | hnew
        · exact h.past.2 m hold
        · rw [List.mem_singleton.mp hnew]
          exact h.past.1
    exact h.next hpast id (List.append_nil _).symm (by simp) hspent
  | leave => exact h.next h.past id (List.append_nil _).symm (by simp) hspent

theorem Stir.sole (hstir : Stir s es s') (h : s.Sole n) : s'.Sole n := by
  have hspent : s.Spent n → s'.Spent n := hstir.spent
  cases hstir with
  | nothing => exact h
  | up link apart _ _ _ transfer upcoming =>
    have hlater : n < link := h.past.2 link (upcoming.subset (List.mem_cons_self ..))
    refine ⟨h.past.mono (by rw [apart.links]) ((List.sublist_cons_self _ _).trans upcoming), ?_⟩
    -- the link that is brought up is another one
    intro hnow
    unfold current? at hnow
    rw [transfer] at hnow
    have hlink : link = n := Option.some.inj hnow
    omega
  | enqueue item _ _ apart transfer _ upcoming =>
    obtain ⟨hs, hrecord, hside⟩ := apart.steered.outside
    have hqueued : (s.enqueue item).happenings = s.happenings ++ [.queued item] :=
      happenings_note _ _
    rw [hqueued, List.append_assoc] at hrecord
    have hpast : s'.Past n := by
      refine h.past.mono ?_ (upcoming ▸ List.Sublist.refl _)
      rw [apart.links]
      rfl
    refine h.next hpast ?_ hrecord ?_ hspent
    · exact fun hnow => (congrArg (Option.map _) transfer).symm.trans hnow
    · intro x hx
      rcases List.mem_cons.mp hx with rfl | hx
      · rfl
      · exact hside x hx
  | cancel =>
    refine h.next h.past ?_ (List.append_nil _).symm (by simp) hspent
    exact fun hnow => s.ending_current.symm.trans hnow
  | change =>
    refine h.next (h.past.mono ?_ (List.Sublist.refl _)) id (List.append_nil _).symm ?_ hspent
    · exact Array.size_setIfInBounds ..
    · simp

theorem settle_sole (h : s.Sole n) : s.settle.Sole n := by
  have hcurrent : s.settle.current? = s.current? := (Beside.settle s).current
  refine ⟨?_, ?_⟩
  · refine settle_rule (P := fun a => a.Past n) h.past ?_
    exact fun t link w _ _ _ => h.past.mono (size_absorb _ _) (List.Sublist.refl _)
  · intro hnow
    rw [hcurrent] at hnow
    exact settle_alone hnow (h.alone hnow)

/-- **While a link is that of the transfer, nothing happens on any other.** -/
theorem Moves.sole (hmoves : Moves s es s') (h : s.Sole n) : s'.Sole n := by
  refine hmoves.induction (P := fun _ => Sole n) [] ?_ h
  intro _ _ a b ha hmove
  cases hmove with
  | calm hcalm => exact hcalm.sole ha
  | stir hstir => exact settle_sole (hstir.sole ha)

/-! ## §3. Once all is over. -/

/-- All is over, and there is no transfer any more. -/
structure Over (s : Simulation) : Prop where
  free : s.transfer = none
  isOver : s.isOver = true

theorem Steered.silent (h : s'.happenings = s.happenings) : Steered s s' :=
  ⟨[], by rw [h, List.append_nil], by simp⟩

theorem Steered.trans {s'' : Simulation} (h : Steered s s') (h' : Steered s' s'') :
    Steered s s'' := by
  obtain ⟨hs, hrecord, hside⟩ := h
  obtain ⟨hs', hrecord', hside'⟩ := h'
  refine ⟨hs ++ hs', by rw [hrecord', hrecord, List.append_assoc], ?_⟩
  intro x hx
  rcases List.mem_append.mp hx with hfirst | hlast
  · exact hside x hfirst
  · exact hside' x hlast

theorem Calm.staysOver (hcalm : Calm s es s') (h : s.Over) : s'.Over ∧ Steered s s' := by
  cases hcalm with
  | steer apart transfer _ isOver =>
    exact ⟨⟨transfer.trans h.free, isOver.trans h.isOver⟩, apart.record⟩
  | detach => exact ⟨⟨rfl, h.isOver⟩, .silent rfl⟩
  | dismiss apart transfer _ isOver => exact ⟨⟨transfer.trans h.free, isOver⟩, apart.record⟩
  | accept => exact ⟨⟨h.free, h.isOver⟩, .silent rfl⟩
  | leave => exact ⟨⟨h.free, h.isOver⟩, .silent rfl⟩

theorem Stir.staysOver (hstir : Stir s es s') (h : s.Over) : s'.Over ∧ Steered s s' := by
  cases hstir with
  | nothing => exact ⟨h, .silent rfl⟩
  | up _ _ _ still => cases h.isOver.symm.trans still
  | enqueue _ going => cases h.isOver.symm.trans going
  | cancel => exact ⟨⟨congrArg (Option.map _) h.free, h.isOver⟩, .silent rfl⟩
  | change => exact ⟨⟨h.free, h.isOver⟩, .silent rfl⟩

/-- **Once all is over** without a transfer, it stays so, and nothing is recorded but steering. -/
theorem Moves.staysOver (hmoves : Moves s es s') (h : s.Over) : s'.Over ∧ Steered s s' := by
  induction hmoves with
  | refl => exact ⟨h, .silent rfl⟩
  | @tail _ _ a b _ hmove ih =>
    have hmoved : b.Over ∧ Steered a b := by
      cases hmove with
      | calm hcalm => exact hcalm.staysOver ih.1
      | stir hstir =>
        have hstirred := hstir.staysOver ih.1
        rw [settle_of_none hstirred.1.free]
        exact hstirred
    exact ⟨hmoved.1, ih.2.trans hmoved.2⟩

/-! ## §4. Playing. -/

/-- A supervisor that has brought up one link, which is that of the transfer until all is over; or
it is over before that. -/
inductive Single (s : Simulation) : Prop
  | up {n : Nat} (sole : s.Sole n) (current : s.current? = some n)
  | done {n : Nat} (ended : s.Over) (past : s.Past n) (alone : s.Alone n)
  | unused (ended : s.Over) (record : ∀ x ∈ s.happenings, x.side.ofTransfer = false)

/-- Once the recording has come to its end, the transfer has gone, and all is over. -/
theorem drained_over (s : Simulation) : s.drained.Over := by
  refine ⟨publish_transfer _ _, ?_⟩
  show (_ || s.drained.lifecycle.isTerminal) = true
  rw [drained_lifecycle]
  exact Bool.or_true _

theorem drained_happenings (hup : s.lifecycle = .active) :
    s.drained.happenings
      = s.happenings ++ [.replayFinished s.endpoint.text, .stateChanged .active .drained] := by
  have hpublish : ∀ t : Simulation, t.lifecycle = .active →
      (t.publish .drained).happenings = t.happenings ++ [.stateChanged .active .drained] := by
    intro t ht
    unfold publish
    rw [ht]
    exact happenings_note _ _
  have hnoted : (({ s with transfer := none }.note (.replayFinished s.endpoint.text)).publish
      .drained).happenings = _ := hpublish _ hup
  refine hnoted.trans ?_
  rw [happenings_note, List.append_assoc]
  rfl

/-- Nothing is recorded of a transfer. -/
theorem outside_append {hs : List Happening} (h : ∀ x ∈ s.happenings, x.side.ofTransfer = false)
    (hrecord : s'.happenings = s.happenings ++ hs) (hside : ∀ x ∈ hs, x.side.ofTransfer = false) :
    ∀ x ∈ s'.happenings, x.side.ofTransfer = false := by
  intro x hx
  rw [hrecord] at hx
  rcases List.mem_append.mp hx with hold | hnew
  · exact h x hold
  · exact hside x hnew

/-- **An act of a supervisor that plays** brings up no other link. -/
theorem Act.single (h : Living true s) (hsingle : s.Single) (act : Act p s s') : s'.Single := by
  obtain ⟨es, hmoves⟩ := act.moves h.steady.tidy
  cases hsingle with
  | done hover past alone =>
    obtain ⟨hstill, hsteered⟩ := hmoves.staysOver hover
    obtain ⟨hs, hrecord, hside⟩ := hsteered.outside
    have hsole := hmoves.sole ⟨past, fun _ => alone⟩
    exact .done hstill hsole.past (alone.next hrecord hside hmoves.spent)
  | unused hover record =>
    obtain ⟨hstill, hsteered⟩ := hmoves.staysOver hover
    obtain ⟨hs, hrecord, hside⟩ := hsteered.outside
    exact .unused hstill (outside_append record hrecord hside)
  | @up n sole current =>
    have hsole := hmoves.sole sole
    have hkept : s'.current? = s.current? → s'.Single :=
      fun hsame => .up hsole (hsame.trans current)
    -- with a transfer it has connected, and what plays does not try to reconnect
    have hbegun : s.lifecycle ≠ .disconnected := by
      intro hfresh
      rw [current_eq_none_iff.mpr (h.phase.of_fresh hfresh).2] at current
      cases current
    have hgoing : s.watch.isTrying = false := by
      cases htrying : s.watch.isTrying with
      | false => rfl
      | true => cases (h.phase.of_trying htrying).2.2
    cases act with
    | aside _ beside => exact hkept beside.current
    | call _ fresh => exact absurd fresh hbegun
    | refuse _ _ calling => exact absurd calling.fresh hbegun
    | bring _ calling => exact absurd calling.fresh hbegun
    | keep => exact hkept rfl
    | lose _ _ live => cases h.mode.symm.trans live
    | finish watch =>
      obtain ⟨hup, -⟩ := h.phase.of_looking watch
      refine .done s.drained_over hsole.past
        ((sole.alone current).next (drained_happenings hup) ?_ hmoves.spent)
      intro x hx
      rcases List.mem_cons.mp hx with rfl | hx
      · rfl
      · rw [List.mem_singleton.mp hx]
        rfl
    | attempt watch => rw [watch] at hgoing; cases hgoing
    | fail watch => rw [watch] at hgoing; cases hgoing
    | succeed watch => rw [watch] at hgoing; cases hgoing
    | shut => exact hkept s.shutdown_current
    | release => exact hkept s.release_unwatched.current

theorem Acts.single (h : Living true s) (hsingle : s.Single) (acts : Acts p s s') :
    s'.Single := by
  induction acts with
  | refl => exact hsingle
  | tail acts act ih => exact act.single (Acts.living h acts) ih

/-- A supervisor that plays: it has not brought up a link yet, or it has brought up one. -/
inductive Playing (s : Simulation) : Prop
  | fresh (fresh : s.Fresh) (record : ∀ x ∈ s.happenings, x.side.ofTransfer = false)
  | single (single : s.Single)

/-- Whoever ends it before anything is played, ends it for good. -/
theorem Fresh.ended (h : s.Fresh) (hrecord : ∀ x ∈ s.happenings, x.side.ofTransfer = false) :
    s.shutdown.Single ∧ s.release.Single := by
  have hcancelled : s.cancel.happenings = s.happenings := by
    rw [cancel_of_free h.transfer]
    rfl
  have hfree : s.cancel.transfer = none := by
    rw [cancel_of_free h.transfer]
    exact h.transfer
  have halive : s.watch.hasFailed = false := by
    rw [h.watch]
    rfl
  rw [shutdown_of_alive halive]
  obtain ⟨hs, hmore, hside⟩ := s.cancel.stop_apart.steered.outside
  rw [hcancelled] at hmore
  refine ⟨.unused ⟨(publish_transfer _ _).trans hfree, ?_⟩ (outside_append hrecord hmore hside),
    .unused ⟨hfree, rfl⟩ ?_⟩
  · exact stop_isOver _
  · show ∀ x ∈ s.cancel.happenings, _
    rw [hcancelled]
    exact hrecord

/-- The first call to connect that succeeds brings up a link. -/
theorem Fresh.connected (h : s.Fresh)
    (hrecord : ∀ x ∈ s.happenings, x.side.ofTransfer = false)
    (hdone : (s.step .connect).2 = .done) (hordered : (s.step .connect).1.Ordered) :
    (s.step .connect).1.Single := by
  have hstep : s.step .connect = (s.connect.1, .ofCall s.connect.2) := h.call Simulation.connect
  rw [hstep] at hdone hordered ⊢
  cases houtcome : s.nextAttempt.1.outcome with
  | error kind =>
    rw [connect_of_error h.lifecycle houtcome] at hdone
    cases hdone
  | ok link =>
    rw [connect_of_ok h.lifecycle houtcome] at hordered ⊢
    -- until the transfer settles nothing is its doing
    let begun : Simulation := s.note .attempt
    let tried : Simulation := { begun with
      plan := begun.nextAttempt.2, clock := begun.clock + begun.nextAttempt.1.delay }
    let ready : Simulation := { tried.note (.connected s.endpoint.text s.endpoint.kind) with
      handedOver := true }
    have hbegun : Apart s begun := (Apart.refl s).note rfl
    have htried : Apart s tried := hbegun.trans (.silent rfl rfl rfl rfl rfl)
    have hconnected : Apart s (tried.note (.connected s.endpoint.text s.endpoint.kind)) :=
      htried.note rfl
    have hready : Apart s ready := hconnected.trans (.silent rfl rfl rfl rfl rfl)
    have hopening : Apart s (ready.opening link) :=
      (hready.publish .active).trans (.silent rfl rfl rfl rfl rfl)
    obtain ⟨hs, hmore, hside⟩ := hopening.steered.outside
    have halone : (ready.opening link).Alone link :=
      alone_of_side (outside_append hrecord hmore hside) link
    have hcurrent : (ready.linkUp link).current? = some link := linkUp_current ready link
    obtain ⟨t, ht, hn⟩ := Option.map_eq_some_iff.mp hcurrent
    exact .up ⟨hordered.past link (.inl ⟨t, ht, hn⟩), fun _ => settle_alone rfl halone⟩ hcurrent

/-- **A step** of a supervisor that plays. -/
theorem Playing.step (h : Waiting true s) (hplaying : s.Playing) (a : Action) :
    (s.step a).1.Playing := by
  have hafter := h.step a
  cases hplaying with
  | single single =>
    exact .single (Acts.single h.living single (step_acts h.living.steady.tidy h.quiet a))
  | fresh fresh record =>
    by_cases hdone : (a, (s.step a).2) = (.connect, .done)
    · obtain ⟨rfl, hdone⟩ := Prod.mk.inj hdone
      exact .single (fresh.connected record hdone hafter.living.steady.ordered)
    by_cases hshutdown : a = .shutdown
    · subst hshutdown
      have hstep : s.step .shutdown = (s.shutdown, .done) :=
        fresh.call fun s => (s.shutdown, .ok ())
      rw [hstep]
      exact .single (fresh.ended record).1
    by_cases hdrop : a = .drop
    · subst hdrop
      have hstep : s.step .drop = (s.release, .done) := fresh.call fun s => (s.release, .ok ())
      rw [hstep]
      exact .single (fresh.ended record).2
    have hwaits := fresh.waits hshutdown hdrop hdone
    obtain ⟨hs, hmore, hside⟩ := hwaits.record
    exact .fresh hwaits.fresh (outside_append record hmore fun x hx => (hside x hx).1)

theorem run_playing (h : Waiting true s) (hplaying : s.Playing) (actions : List Action) :
    (s.run actions).Playing := by
  induction actions generalizing s with
  | nil => exact hplaying
  | cons a rest ih => exact ih (h.step a) (hplaying.step h a)

/-- The link of the transfer is the only one that has been brought up. -/
theorem Playing.sole (h : s.Playing) (hcurrent : s.current? = some n) : s.Sole n := by
  have hbusy : s.transfer ≠ none := by
    intro hnone
    rw [current_eq_none_iff.mpr hnone] at hcurrent
    cases hcurrent
  cases h with
  | fresh fresh => exact absurd fresh.transfer hbusy
  | single single =>
    cases single with
    | done hover => exact absurd hover.free hbusy
    | unused hover => exact absurd hover.free hbusy
    | up sole current =>
      cases current.symm.trans hcurrent
      exact sole

/-- Without a transfer, a link that has been closed is the only one that has been brought up. -/
theorem Playing.alone (h : s.Playing) (hfree : s.transfer = none) {pending : Nat}
    (hclosed : .closedByPeer pending ∈ s.happenings) : ∃ n, s.Past n ∧ s.Alone n := by
  cases h with
  | fresh _ record => cases record _ hclosed
  | single single =>
    cases single with
    | done _ past alone => exact ⟨_, past, alone⟩
    | unused _ record => cases record _ hclosed
    | up _ current =>
      rw [current_eq_none_iff.mpr hfree] at current
      cases current

/-! ## §5. The end of a recording. -/

/-- The end of a recording has been noticed; this is recorded after it. -/
structure Finished (replay : Bool) (later : List Happening) (s : Simulation) : Prop where
  played : replay = true
  ended : s.Over
  lifecycle : s.lifecycle = .drained ∨ s.lifecycle = .stopped
  later : ∀ x ∈ later, x.side = .steering

/-- Wherever the end of a recording has been noticed, it has been so since. -/
def Ends (replay : Bool) (s : Simulation) : Prop :=
  ∀ earlier old later, s.happenings = earlier ++ .stateChanged old .drained :: later →
    Finished replay later s

/-- There is one way to become drained. -/
theorem Act.drains (h : Living replay s) (act : Act p s s') (hold : s.lifecycle ≠ .drained)
    (hnew : s'.lifecycle = .drained) : s.lifecycle = .active ∧ s' = s.drained := by
  cases act with
  | aside _ beside => exact absurd (beside.lifecycle.symm.trans hnew) hold
  | bring => cases (s.connected_lifecycle _).symm.trans hnew
  | lose => cases s.lost_lifecycle.symm.trans hnew
  | finish watch => exact ⟨(h.phase.of_looking watch).1, rfl⟩
  | succeed => cases (s.reconnected_lifecycle _).symm.trans hnew
  | shut => cases s.shutdown_lifecycle.symm.trans hnew
  | release => exact absurd (s.cancel_lifecycle.symm.trans hnew) hold
  | _ => exact absurd hnew hold

theorem published_append {hs : List Happening} (hrecord : s'.happenings = s.happenings ++ hs) :
    s'.published = s.published ++ hs.filterMap Happening.published? := by
  unfold published
  rw [hrecord, List.filterMap_append]

/-- Once drained, the supervisor can only be stopped. -/
theorem Act.stays_drained (h : Living replay s) (act : Act p s s')
    (hlifecycle : s.lifecycle = .drained ∨ s.lifecycle = .stopped) :
    s'.lifecycle = .drained ∨ s'.lifecycle = .stopped := by
  rcases act.published h with ⟨-, hsame⟩ | ⟨-, hlawful⟩
  · rw [hsame]
    exact hlifecycle
  · obtain ⟨hrunning, hstops, -⟩ := hlawful.excludes
    exact .inr (hstops (hlifecycle.resolve_right hrunning))

/-- **Acts keep it.** -/
theorem Act.ends (h : Living replay s) (hends : Ends replay s) (act : Act p s s') :
    Ends replay s' := by
  intro earlier old later hsplit
  obtain ⟨es, hmoves⟩ := act.moves h.steady.tidy
  obtain ⟨hs, hrecord⟩ := hmoves.record
  rw [hrecord] at hsplit
  rcases split_of_append hsplit with ⟨between, hbefore, rfl⟩ | ⟨between, hnow⟩
  · -- it was noticed before this act
    have hfinished := hends earlier old between hbefore
    obtain ⟨hover, more, hmore, hside⟩ := hmoves.staysOver hfinished.ended
    obtain rfl : hs = more := List.append_cancel_left (hrecord.symm.trans hmore)
    refine ⟨hfinished.played, hover, act.stays_drained h hfinished.lifecycle, ?_⟩
    intro x hx
    rcases List.mem_append.mp hx with hfirst | hlast
    · exact hfinished.later x hfirst
    · exact hside x hlast
  · -- it is noticed by this act
    have hchange : (old, .drained) ∈ hs.filterMap Happening.published? :=
      List.mem_filterMap.mpr ⟨.stateChanged old .drained, by rw [hnow]; simp, rfl⟩
    have hpublished := published_append hrecord
    rcases act.published h with ⟨hsame, -⟩ | ⟨hmore, hlawful⟩
    · rw [List.self_eq_append_right.mp (hsame.symm.trans hpublished)] at hchange
      cases hchange
    · rw [List.append_cancel_left (hpublished.symm.trans hmore)] at hchange
      obtain ⟨-, hnew⟩ := Prod.mk.inj (List.mem_singleton.mp hchange)
      have hold : s.lifecycle ≠ .drained := by
        intro hdrained
        cases hnew.trans (hlawful.excludes.2.1 hdrained)
      obtain ⟨hup, rfl⟩ := act.drains h hold hnew.symm
      -- and it is the last that this act records
      have hlast := List.append_cancel_left (hrecord.symm.trans (drained_happenings hup))
      rw [hnow] at hlast
      have hnone : later = [] := by
        cases between with
        | nil => cases hlast
        | cons x between =>
          cases between with
          | nil =>
            cases hlast
            rfl
          | cons y between => simp at hlast
      have hplayed : replay = true := by
        by_contra hlive
        exact hlawful.excludes.2.2.2 (eq_false_of_ne_true hlive) s.drained_lifecycle
      refine ⟨hplayed, s.drained_over, .inl s.drained_lifecycle, ?_⟩
      rw [hnone]
      exact fun x hx => absurd hx List.not_mem_nil

theorem Acts.ends (h : Living replay s) (hends : Ends replay s) (acts : Acts p s s') :
    Ends replay s' := by
  induction acts with
  | refl => exact hends
  | tail acts act ih => exact act.ends (Acts.living h acts) ih

/-- **What follows the end of a recording** is nothing but steering. -/
theorem run_ends (h : Waiting replay s) (hends : Ends replay s) (actions : List Action) :
    Ends replay (s.run actions) := by
  induction actions generalizing s with
  | nil => exact hends
  | cons a rest ih =>
    exact ih (h.step a) (Acts.ends h.living hends (step_acts h.living.steady.tidy h.quiet a))

/-- The caller has the supervisor, and it has not been stopped. -/
structure Held (s : Simulation) : Prop where
  kept : s.released = false
  running : s.lifecycle ≠ .stopped

theorem linkUp_released (s : Simulation) (link : Nat) :
    (s.linkUp link).released = s.released :=
  (linkUp_beside s link).released.trans (publish_released s .active)

theorem Act.held (h : Living replay s) (hheld : s.Held) (act : Act p s s')
    (hshutdown : p.1 ≠ .shutdown) (hdrop : p.1 ≠ .drop) : s'.Held := by
  refine ⟨?_, ?_⟩
  · have hkept := hheld.kept
    cases act with
    | aside _ beside => exact beside.released.trans hkept
    | bring => exact (linkUp_released _ _).trans hkept
    | lose => exact (publish_released _ _).trans hkept
    | finish => exact (publish_released _ _).trans hkept
    | succeed => exact (linkUp_released _ _).trans hkept
    | shut step => exact absurd (congrArg Prod.fst step) hshutdown
    | release step => exact absurd (congrArg Prod.fst step) hdrop
    | _ => exact hkept
  · intro hstopped
    rcases act.published h with ⟨-, hsame⟩ | ⟨-, hlawful⟩
    · exact hheld.running (hsame.symm.trans hstopped)
    · rw [hstopped] at hlawful
      generalize s.lifecycle = old at hlawful
      cases hlawful with
      | stop step => exact absurd (congrArg Prod.fst step) hshutdown

theorem run_held (h : Waiting replay s) (hheld : s.Held) {actions : List Action}
    (hshutdown : .shutdown ∉ actions) (hdrop : .drop ∉ actions) : (s.run actions).Held := by
  induction actions generalizing s with
  | nil => exact hheld
  | cons a rest ih =>
    rw [List.mem_cons, not_or] at hshutdown hdrop
    have hacts := step_acts h.living.steady.tidy h.quiet a
    have hstep : (s.step a).1.Held := by
      generalize (s.step a).1 = s' at hacts ⊢
      induction hacts with
      | refl => exact hheld
      | tail acts act ih =>
        exact act.held (Acts.living h.living acts) ih (Ne.symm hshutdown.1) (Ne.symm hdrop.1)
    exact ih (h.step a) hstep hshutdown.2 hdrop.2

/-! ## §6. Recordings. -/

/-- A supervisor to which nothing has been done, and whose first attempts bring links that play
recordings. -/
def loaded (pace : Pace) (config : SupervisorConfig) (endpoint : Endpoint)
    (recordings : List (List UInt8)) : Simulation :=
  { start pace config endpoint with
    links := (recordings.map Link.playing).toArray
    plan := (List.range recordings.length).map fun n => ⟨.ok n, 0⟩ }

/-- A supervisor to which nothing has been done, and whose first attempts bring these links. -/
def equipped (pace : Pace) (config : SupervisorConfig) (endpoint : Endpoint)
    (links : List Link) : Simulation :=
  { start pace config endpoint with
    links := links.toArray
    plan := (List.range links.length).map fun n => ⟨.ok n, 0⟩ }

theorem loaded_eq (pace : Pace) (config : SupervisorConfig) (endpoint : Endpoint)
    (recordings : List (List UInt8)) :
    loaded pace config endpoint recordings
      = equipped pace config endpoint (recordings.map Link.playing) := by
  unfold loaded equipped
  rw [List.length_map]

/-- The supervisor has not let go of any of the links, and no failure is prepared on them. -/
def Untouched (links : List Link) : Prop :=
  ∀ link ∈ links, link.inbound.readerOpen = true ∧ link.faults = {}

theorem untouched_playing (recordings : List (List UInt8)) :
    Untouched (recordings.map Link.playing) := by
  intro link hlink
  obtain ⟨recording, -, rfl⟩ := List.mem_map.mp hlink
  exact ⟨rfl, rfl⟩

variable {pace : Pace} {config : SupervisorConfig} {endpoint : Endpoint} {links : List Link}

theorem equipped_upcoming :
    (equipped pace config endpoint links).upcoming = List.range links.length := by
  show [] ++ ((List.range links.length).map fun n => Attempt.mk (.ok n) 0).flatMap _ = _
  rw [List.flatMap_map, List.nil_append]
  exact List.flatMap_singleton' _

theorem equipped_links (n : Nat) : (equipped pace config endpoint links).links[n]? = links[n]? :=
  List.getElem?_toArray

theorem equipped_size : (equipped pace config endpoint links).links.size = links.length :=
  List.size_toArray

/-- A link that is there is one of them. -/
theorem Untouched.of_getElem? (h : Untouched links) {link : Link}
    (hlink : (equipped pace config endpoint links).links[n]? = some link) :
    link.inbound.readerOpen = true ∧ link.faults = {} := by
  rw [equipped_links] at hlink
  exact h link (List.mem_of_getElem? hlink)

theorem Untouched.holds (h : Untouched links) :
    ¬ (equipped pace config endpoint links).LetGo n := by
  rintro ⟨link, hlink, hgone⟩
  cases (h.of_getElem? hlink).1.symm.trans hgone

theorem equipped_ordered (h : Untouched links) :
    (equipped pace config endpoint links).Ordered := by
  refine ⟨?_, ?_, ?_, fun t ht => nomatch ht⟩
  · rw [equipped_upcoming]
    exact List.pairwise_lt_range
  · intro n hn
    rw [equipped_upcoming] at hn
    rw [equipped_size]
    exact List.mem_range.mp hn
  · rintro n (⟨t, ht, -⟩ | ⟨x, hx, -⟩ | hgone)
    · cases ht
    · cases hx
    · exact absurd hgone h.holds

theorem equipped_steady (h : Untouched links) : (equipped pace config endpoint links).Steady :=
  ⟨equipped_ordered h,
    ⟨(nomatch ·), (nomatch ·), fun _ => rfl, fun _ => rfl, (nomatch ·), rfl⟩,
    fun _ ht => (nomatch ht), fun _ _ ht => nomatch ht⟩

theorem equipped_received : (equipped pace config endpoint links).Received := by
  refine ⟨rfl, ?_, fun t ht => nomatch ht⟩
  unfold framesUpTo
  symm
  exact List.flatMap_eq_nil_iff.mpr fun n _ => framesOf_nil _

theorem equipped_playing : (equipped pace config endpoint links).Playing :=
  .fresh ⟨rfl, rfl, rfl, rfl, rfl⟩ fun _ hx => nomatch hx

/-- Nothing has come to its end. -/
theorem equipped_ends {replay : Bool} : Ends replay (equipped pace config endpoint links) := by
  intro earlier old later hnone
  cases earlier <;> cases hnone

/-- None of the links has been opened. -/
theorem equipped_live (h : Untouched links) :
    Waiting (config.settings.isReplay || endpoint.kind == .replay)
      (equipped pace config endpoint links) := by
  refine ⟨⟨equipped_steady h, ?_, rfl, .fresh rfl rfl rfl, ?_⟩, fun _ => rfl⟩
  · exact fun n link hlink hgone => absurd ⟨link, hlink, hgone⟩ h.holds
  · rintro n ⟨hpast, link, hlink, -⟩
    rw [equipped_upcoming, List.mem_range] at hpast
    rw [equipped_links, List.getElem?_eq_none (Nat.not_lt.mp hpast)] at hlink
    cases hlink

/-- What one number of a range gives. -/
theorem flatMap_range_one {α : Type} (f : Nat → List α) (n count : Nat) :
    (List.range count).flatMap (fun m => if m = n then f m else [])
      = if n < count then f n else [] := by
  induction count with
  | zero => rfl
  | succ count ih =>
    rw [List.range_succ, List.flatMap_append, ih, List.flatMap_singleton]
    by_cases hlast : count = n
    · subst hlast
      rw [if_neg (Nat.lt_irrefl _), if_pos rfl, if_pos (Nat.lt_succ_self _), List.nil_append]
    · rw [if_neg hlast, List.append_nil]
      exact if_congr (by omega) rfl rfl

/-- What waits at the beginning is as if it had just been put there. -/
theorem arrived_of_unread (h : ∀ m, s.consumedOn m = []) :
    Arrived ((List.range s.links.size).map fun m => .put m (s.waiting m)) s := by
  intro n
  rw [h n, List.nil_append, List.flatMap_map]
  show (List.range _).flatMap (fun m => if m = n then s.waiting m else []) = _
  rw [flatMap_range_one]
  by_cases hn : n < s.links.size
  · exact if_pos hn
  · rw [if_neg hn]
    unfold waiting
    rw [Array.getElem?_eq_none (Nat.not_lt.mp hn)]

/-- **What has come in on a link** by the end of a run: what waited there, and what the receiver
has put. -/
theorem run_arrived (hsteady : s.Steady) (hunread : ∀ m, s.consumedOn m = [])
    (actions : List Action) (n : Nat) :
    s.waiting n ++ (s.answers actions).flatMap (putBy n)
      = (s.run actions).consumedOn n ++ (s.run actions).waiting n := by
  obtain ⟨es, hmoves, htold⟩ := run_moves hsteady.tidy actions
  have harrived := arrived_of_unread hunread
  have hfirst := harrived n
  rw [hunread n, List.nil_append] at hfirst
  rw [← htold.put n, ← hfirst, ← List.flatMap_append]
  exact hmoves.arrived harrived n

/-! ## §7. Drained is complete. -/

/-- Only one link has been read, so its telegrams are all. -/
theorem Alone.frames (h : s.Alone n) (hn : n < s.links.size) :
    s.framesUpTo s.links.size = framesOf s.config.maxBlock (s.consumedOn n) := by
  have hother : ∀ m, m ≠ n → s.consumedOn m = [] := by
    intro m hm
    refine consumedOn_of_unrecorded ?_
    rintro ⟨x, hx, hlink⟩
    exact hm (h.record x hx m hlink)
  have hbefore : s.framesUpTo n = [] := by
    refine List.flatMap_eq_nil_iff.mpr ?_
    intro m hm
    rw [hother m (Nat.ne_of_lt (List.mem_range.mp hm)), framesOf_nil]
  rw [framesUpTo_of_nil hn fun m hm => hother m (Nat.ne_of_gt hm), hbefore, List.nil_append]

/-- A link of the past that is not open has been let go. -/
theorem Over.letGo (h : s.Over) (hliving : Living replay s) (hpast : s.Past n) : s.LetGo n := by
  have hthere : n < s.links.size := hpast.1
  refine ⟨s.links[n], Array.getElem?_eq_getElem hthere, ?_⟩
  by_contra hopen
  refine hliving.none_open_of_free h.free n ⟨?_, _, Array.getElem?_eq_getElem hthere, ?_⟩
  · exact fun hn => Nat.lt_irrefl n (hpast.2 n hn)
  · simpa using hopen

/-- **A link that is spent has been handed over whole**, if nothing happened on any other. -/
theorem run_complete (huntouched : Untouched links) (actions : List Action)
    (hpast : ((equipped pace config endpoint links).run actions).Past n)
    (halone : ((equipped pace config endpoint links).run actions).Alone n)
    (hspent : ((equipped pace config endpoint links).run actions).Spent n) :
    ∃ leaving ts, Leaves (equipped pace config endpoint links) actions leaving
      ∧ ((equipped pace config endpoint links).run actions).handed = Handover.pushAll leaving ts
      ∧ ts.map Telegram.frame
        = framesOf config.maxBlock ((equipped pace config endpoint links).waiting n
          ++ ((equipped pace config endpoint links).answers actions).flatMap (putBy n)) := by
  have hstart : (equipped pace config endpoint links).Steady := equipped_steady huntouched
  obtain ⟨es, hmoves, -⟩ := run_moves hstart.tidy actions
  have hconfig : ((equipped pace config endpoint links).run actions).config = config :=
    hmoves.config
  obtain ⟨leaving, ts, hleaves, hhanded, hframes⟩ :=
    run_handed hstart equipped_received ⟨rfl, fun _ hx => nomatch hx⟩ actions
  refine ⟨leaving, ts, hleaves, hhanded, ?_⟩
  -- nothing waits any more of what has come in
  have hbytes := run_arrived hstart (fun _ => rfl) actions n
  rw [hspent.waiting, List.append_nil] at hbytes
  rw [hframes, halone.frames hpast.1, hconfig, hbytes]

/-- Of a recording nothing has been taken yet. -/
theorem loaded_waiting (recordings : List (List UInt8)) (n : Nat) :
    (loaded pace config endpoint recordings).waiting n = recordings[n]?.getD [] := by
  unfold waiting
  rw [loaded_eq, equipped_links, List.getElem?_map]
  cases recordings[n]? <;> rfl

/-- Calls of a supervisor that is drained. -/
theorem Held.refused (h : s.Held) (hdrained : s.lifecycle = .drained) :
    (s.step .connect).2 = .refused .drained
      ∧ ∀ command ≠ [], (s.step (.send command)).2 = .refused .drained := by
  refine ⟨?_, ?_⟩
  · show (s.call Simulation.connect).2 = _
    rw [call_of_kept h.kept]
    unfold Simulation.connect
    rw [hdrained]
    rfl
  · intro command hsome
    show (s.call (Simulation.send · command)).2 = _
    rw [call_of_kept h.kept]
    unfold Simulation.send
    rw [if_neg hsome, hdrained]
    rfl

/-- **Drained means complete.**  A supervisor is drained only in a run that plays.  When it becomes
drained after the receiver has closed the link, all telegrams that framing gives of all bytes of
the link have been handed over before, in order, and the consumer has each of them, unless it has
gone away by then.  Nothing is handed over afterwards; and until the caller shuts the supervisor
down or lets go of it, calls to connect and commands are refused because it is drained. -/
theorem drained_complete (pace : Pace) (config : SupervisorConfig) (endpoint : Endpoint)
    (recordings : List (List UInt8)) (actions : List Action) {earlier later : List Happening}
    {old : Lifecycle} {pending : Nat}
    (hdrained : ((loaded pace config endpoint recordings).run actions).happenings
      = earlier ++ .stateChanged old .drained :: later)
    (hclosed : .closedByPeer pending ∈ earlier) :
    let s := (loaded pace config endpoint recordings).run actions
    (config.settings.isReplay || endpoint.kind == .replay) = true
      ∧ (∃ n leaving ts, s.LetGo n ∧ (∀ m, s.Recorded m → m = n)
        ∧ ts.map Telegram.frame = framesOf config.maxBlock (recordings[n]?.getD []
          ++ ((loaded pace config endpoint recordings).answers actions).flatMap (putBy n))
        ∧ Leaves (loaded pace config endpoint recordings) actions leaving
        ∧ earlier.filterMap Happening.handover? = Handover.pushAll leaving ts)
      ∧ (∀ x ∈ later, x.handover? = none)
      ∧ (.shutdown ∉ actions → .drop ∉ actions → s.lifecycle = .drained
        ∧ (s.step .connect).2 = .refused .drained
        ∧ ∀ command ≠ [], (s.step (.send command)).2 = .refused .drained) := by
  -- the recordings are links like others
  have hwaiting : ∀ n, (loaded pace config endpoint recordings).waiting n
      = recordings[n]?.getD [] := loaded_waiting recordings
  have huntouched := untouched_playing recordings
  have hloaded := loaded_eq pace config endpoint recordings
  generalize recordings.map Link.playing = links at huntouched hloaded
  generalize loaded pace config endpoint recordings = idle at *
  subst hloaded
  intro s
  have hfinished : Finished _ later s :=
    run_ends (equipped_live huntouched) equipped_ends actions earlier old later hdrained
  have hplayed := hfinished.played
  have hlater : ∀ x ∈ later, x.handover? = none := by
    intro x hx
    have hside := hfinished.later x hx
    cases x <;> first | rfl | cases hside
  have hstart : Waiting true (equipped pace config endpoint links) :=
    hplayed ▸ equipped_live huntouched
  have hliving : Waiting true s := run_waiting hstart actions
  refine ⟨hplayed, ?_, hlater, ?_⟩
  · have hmem : .closedByPeer pending ∈ s.happenings := by
      rw [hdrained]
      exact List.mem_append_left _ hclosed
    obtain ⟨n, hpast, halone⟩ : ∃ n, s.Past n ∧ s.Alone n :=
      (run_playing hstart equipped_playing actions).alone hfinished.ended.free hmem
    obtain ⟨leaving, ts, hleaves, hhanded, hframes⟩ :=
      run_complete huntouched actions hpast halone (halone.closed _ hmem rfl)
    rw [hwaiting] at hframes
    have hearlier : s.handed = earlier.filterMap Happening.handover? := by
      unfold handed
      rw [hdrained, List.filterMap_append, List.filterMap_cons_none rfl,
        List.filterMap_eq_nil_iff.mpr hlater, List.append_nil]
    refine ⟨n, leaving, ts, hfinished.ended.letGo hliving.living hpast, ?_, hframes, hleaves, ?_⟩
    · rintro m ⟨x, hx, hlink⟩
      exact halone.record x hx m hlink
    · rw [← hearlier]
      exact hhanded
  · intro hshutdown hdrop
    have hheld : s.Held := run_held hstart ⟨rfl, fun h => nomatch h⟩ hshutdown hdrop
    have hlifecycle : s.lifecycle = .drained := hfinished.lifecycle.resolve_right hheld.running
    exact ⟨hlifecycle, hheld.refused hlifecycle⟩

/-- The receiver closes its side in the middle of a telegram, while a command is stuck because it
takes nothing in. -/
def draining : List Action :=
  [.accept 8 0, .connect, .send [0x31, 0x32, 0x33, 0x34, 0x35, 0x36, 0x37, 0x38, 0x39],
    .receiverWrite 0 [0x24, 0x47, 0x50, 0x0D, 0x0A, 0x24, 0x47], .receiverShutdown 0,
    .advance 1000, .receiverRead 0]

theorem drained_complete_draining :
    let s := (loaded .cooperative { settings := { fromLog := true } } (.serial {}) []).run draining
    let earlier := s.happenings.take 20
    let later := s.happenings.drop 21
    s.happenings = earlier ++ .stateChanged .active .drained :: later
      ∧ .closedByPeer 2 ∈ earlier
      ∧ (∃ ts : List Telegram, earlier.filterMap Happening.handover? = ts.map .received
        ∧ ts.map Telegram.frame
          = framesOf Block.maxSize [0x24, 0x47, 0x50, 0x0D, 0x0A, 0x24, 0x47])
      ∧ (s.step .connect).2 = .refused .drained
      ∧ (s.step (.send [0x53])).2 = .refused .drained := by
  intro s earlier later
  have hdrained : s.happenings = earlier ++ .stateChanged .active .drained :: later := by
    decide +kernel
  have hclosed : .closedByPeer 2 ∈ earlier := by decide +kernel
  obtain ⟨-, ⟨n, leaving, ts, ⟨link, hlink, -⟩, -, hframes, hleaves, hhanded⟩, -, hrefused⟩ :=
    drained_complete .cooperative { settings := { fromLog := true } } (.serial {}) [] draining
      hdrained hclosed
  obtain ⟨-, hconnect, hsend⟩ := hrefused (by decide) (by decide)
  -- there is but one link
  have hsize : s.links.size = 1 := by decide +kernel
  have hn : n = 0 := by
    have hlt : n < s.links.size := (Array.getElem?_eq_some_iff.mp hlink).1
    omega
  have hbytes : ((loaded .cooperative { settings := { fromLog := true } } (.serial {}) []).answers
      draining).flatMap (putBy 0) = [0x24, 0x47, 0x50, 0x0D, 0x0A, 0x24, 0x47] := by decide +kernel
  subst hn
  rw [hbytes] at hframes
  rw [hleaves.eq_none (by decide)] at hhanded
  exact ⟨hdrained, hclosed, ⟨ts, hhanded, hframes⟩, hconnect, hsend [0x53] (by decide)⟩

end Simulation

end ReceiverLink
