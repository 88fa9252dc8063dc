/-
  ReceiverLink.Proofs.Supervisor.Steady
  ────────────────────────────────
  **A supervisor that waits has done all that it can do.**

  Whatever moves a supervisor, its transfer settles at once.  So between two
  moves the transfer is at rest: there is nothing that it could read or write,
  and its link is held exactly as long as it is not done.

  Main statements:
    * `Move.steady` — a move leaves the supervisor waiting again;
    * `Move.whole` — a move lets go of both ends of a link, or of none;
    * `Moves.lasts` — what is not taken back of a link stays for a whole run;
    * `run_steady` — a whole run leaves the supervisor waiting.
-/
import ReceiverLink.Proofs.Supervisor.Order
import ReceiverLink.Proofs.Supervisor.Rest

namespace ReceiverLink

/-- What is not taken back of a link: not by the receiver, not by a transfer, and
not by letting go of the link. -/
structure Link.Lasts (P : Link → Prop) : Prop where
  release : ∀ l : Link, P l → P l.release
  change : ∀ {number : Nat} {es : List Influence} {l l' : Link},
    l.Change number es l' → P l → P l'
  works : ∀ {w w' : Working}, Working.Works w w' → P w.link → P w'.link

/-- The receiver does not hold on to the supervisor's ends. -/
theorem Link.Change.whole {number : Nat} {l l' : Link} {es : List Influence}
    (h : l.Change number es l') (hwhole : l.Whole) : l'.Whole := by
  cases h with
  | @fail operation =>
    cases operation <;> exact hwhole
  | _ => exact hwhole

namespace Simulation

variable {s s' : Simulation} {es : List Influence} {n : Nat}

/-! ## §1. The transfer of a supervisor. -/

/-- The transfer is sane, and its link is there and held until it is done. -/
def Attached (s : Simulation) : Prop :=
  ∀ t, s.transfer = some t → Working.Sane s.config.maxBlock t
    ∧ ∃ link, s.links[t.number]? = some link ∧ (s.working t link).Holds

/-- The transfer can do nothing. -/
def Resting (s : Simulation) : Prop :=
  ∀ t link, s.transfer = some t → s.links[t.number]? = some link →
    (s.working t link).isReady = false

/-- All that is so whenever the supervisor waits. -/
structure Steady (s : Simulation) : Prop where
  ordered : s.Ordered
  tidy : s.Tidy
  attached : s.Attached
  resting : s.Resting

/-- What the transfer does is done once it has settled. -/
theorem settle_attached (h : s.Attached) : s.settle.Attached := by
  cases htransfer : s.transfer with
  | none =>
    rw [settle_of_none htransfer]
    exact h
  | some t =>
    obtain ⟨hsane, link, hthere, hholds⟩ := h t htransfer
    have hworks := (s.working t link).settle_works
    have hnumber : (s.working t link).settle.transfer.number = t.number := hworks.same.number
    have hsettled := Working.settle_holds hholds
    rw [settle_of_there htransfer hthere]
    intro u hu
    cases hu
    refine ⟨hworks.sane hsane, (s.working t link).settle.link, ?_, hsettled⟩
    rw [getElem?_absorb hnumber hthere]
    exact if_pos hnumber.symm

theorem settle_resting (h : s.Attached) : s.settle.Resting := by
  cases htransfer : s.transfer with
  | none =>
    rw [settle_of_none htransfer]
    intro u link' hu
    rw [htransfer] at hu
    cases hu
  | some t =>
    obtain ⟨hsane, link, hthere, -⟩ := h t htransfer
    have hnumber : (s.working t link).settle.transfer.number = t.number :=
      (s.working t link).settle_works.same.number
    rw [settle_of_there htransfer hthere]
    intro u link' hu hlink'
    cases hu
    rw [getElem?_absorb hnumber hthere, if_pos hnumber.symm] at hlink'
    cases hlink'
    have hrest : (s.working t link).settle.isReady = false := Working.settle_rests hsane
    show Working.isReady { (s.working t link).settle with
      queue := if s.watch.hasFailed && (s.working t link).settle.transfer.isDone then []
        else (s.working t link).settle.queue } = false
    split
    next => exact Working.isReady_of_empty hrest
    next => exact hrest

/-- A transfer at rest leaves everything as it is, once a queue that is lost is
empty. -/
theorem settle_of_resting (h : s.Resting) (forsaken : s.isForsaken = true → s.queue = []) :
    s.settle = s := by
  cases htransfer : s.transfer with
  | none => exact settle_of_none htransfer
  | some t =>
    cases hthere : s.links[t.number]? with
    | none => exact settle_of_missing htransfer hthere
    | some link =>
      have hrest := h t link htransfer hthere
      have hsettle : (s.working t link).settle = s.working t link := Working.settle_of_rest hrest
      have hqueue : (if s.watch.hasFailed && t.isDone then [] else s.queue) = s.queue := by
        split
        next hlost =>
          refine (forsaken ?_).symm
          unfold isForsaken linkIsOver
          rw [htransfer]
          exact hlost
        next => rfl
      -- so the link is put back as it was
      have hlinks : s.links.setIfInBounds t.number link = s.links := by
        apply Array.ext_getElem?
        intro j
        rw [getElem?_replaced hthere]
        by_cases hj : t.number = j
        · rw [if_pos hj, ← hj, hthere]
        · rw [if_neg hj]
      rw [settle_of_there htransfer hthere, hsettle]
      show { s with
        transfer := some t
        links := s.links.setIfInBounds t.number link
        queue := if s.watch.hasFailed && t.isDone then [] else s.queue
        record := s.record ++ (#[] : Array Happening).map fun x => (s.clock, x) } = s
      rw [hlinks, hqueue, ← htransfer]
      simp

/-! ## §2. Moves keep it. -/

theorem Attached.keep (h : s.Attached) (hconfig : s'.config = s.config)
    (htransfer : s'.transfer = s.transfer)
    (hlink : ∀ t, s.transfer = some t → s'.links[t.number]? = s.links[t.number]?) :
    s'.Attached := by
  intro t ht
  rw [htransfer] at ht
  obtain ⟨hsane, link, hthere, hholds⟩ := h t ht
  refine ⟨hconfig ▸ hsane, link, ?_, hholds⟩
  rw [hlink t ht]
  exact hthere

theorem Resting.keep (h : s.Resting) (htransfer : s'.transfer = s.transfer)
    (hqueue : s'.queue = s.queue)
    (hlink : ∀ t, s.transfer = some t → s'.links[t.number]? = s.links[t.number]?) :
    s'.Resting := by
  intro t link ht hthere
  rw [htransfer] at ht
  rw [hlink t ht] at hthere
  have hrest := h t link ht hthere
  have hwrite : (s'.working t link).canWrite = (s.working t link).canWrite := by
    unfold Working.canWrite working
    rw [hqueue]
  rw [Working.isReady_eq] at hrest ⊢
  rw [hwrite]
  exact hrest

/-- Who gives up an attempt does not let go of the transfer's link. -/
theorem dismiss_current (hordered : s.Ordered) {t : Transfer} (ht : s.transfer = some t) :
    s.dismiss.links[t.number]? = s.links[t.number]? := by
  rcases s.dismiss_links with ⟨-, hlinks⟩ | ⟨link, hwatch, hlinks⟩
  · rw [hlinks]
  · have hpast := hordered.past t.number (.inl ⟨t, ht, rfl⟩)
    have hlater : t.number < link := by
      refine hpast.2 link ?_
      unfold upcoming
      rw [hwatch]
      exact List.mem_cons_self ..
    rw [hlinks, Array.getElem?_modify, if_neg (by omega)]

/-- Without a queue there is less to do. -/
theorem resting_of_dismiss (h : s.Resting) (hordered : s.Ordered) : s.dismiss.Resting := by
  intro t link ht hthere
  have hsame : s.dismiss.transfer = s.transfer := rfl
  rw [hsame] at ht
  rw [dismiss_current hordered ht] at hthere
  exact Working.isReady_of_empty (h t link ht hthere)

theorem Calm.steady (h : s.Steady) (hcalm : Calm s es s') : s'.Steady := by
  refine ⟨hcalm.ordered h.ordered, hcalm.tidy h.tidy, ?_, ?_⟩
  · cases hcalm with
    | steer apart transfer =>
      exact h.attached.keep apart.config transfer fun t _ => by rw [apart.links]
    | detach => exact fun t ht => nomatch ht
    | dismiss apart transfer =>
      refine h.attached.keep apart.config transfer fun t ht => ?_
      rw [apart.links]
      exact dismiss_current h.ordered ht
    | accept capacity delay =>
      refine h.attached.keep rfl rfl fun t ht => ?_
      obtain ⟨-, link, hthere, -⟩ := h.attached t ht
      exact (getElem?_planned hthere _).trans hthere.symm
    | leave => exact h.attached.keep rfl rfl fun _ _ => rfl
  · cases hcalm with
    | steer apart transfer =>
      exact h.resting.keep transfer apart.queue fun t _ => by rw [apart.links]
    | detach => exact fun t _ ht => nomatch ht
    | dismiss apart transfer =>
      have hdismissed := resting_of_dismiss h.resting h.ordered
      exact hdismissed.keep transfer apart.queue fun t _ => by rw [apart.links]
    | accept capacity delay =>
      refine h.resting.keep rfl rfl fun t ht => ?_
      obtain ⟨-, link, hthere, -⟩ := h.attached t ht
      exact (getElem?_planned hthere _).trans hthere.symm
    | leave => exact h.resting.keep rfl rfl fun _ _ => rfl

/-- A link that is to be brought up is held. -/
theorem Ordered.held (h : s.Ordered) {n : Nat} (hn : n ∈ s.upcoming) :
    ∃ link, s.links[n]? = some link ∧ link.inbound.readerOpen = true := by
  have hlt := h.planned n hn
  refine ⟨s.links[n], Array.getElem?_eq_getElem hlt, ?_⟩
  by_contra hgone
  have hpast := h.past n (.inr (.inr ⟨s.links[n], Array.getElem?_eq_getElem hlt, by
    simpa using hgone⟩))
  exact Nat.lt_irrefl n (hpast.2 n hn)

/-- A new transfer on a link that is held. -/
theorem attached_of_fresh {number : Nat}
    (htransfer : s.transfer = some { number := number, framer := .new s.config.maxBlock })
    (hheld : ∃ link, s.links[number]? = some link ∧ link.inbound.readerOpen = true) :
    s.Attached := by
  intro t ht
  rw [htransfer] at ht
  cases ht
  obtain ⟨link, hthere, hopen⟩ := hheld
  exact ⟨⟨Framer.new_coherent _, fun hreading => (nomatch hreading), fun _ hclosed =>
    (nomatch hclosed)⟩, link, hthere, hopen⟩

/-- A transfer whose link is to end. -/
theorem Attached.ending (h : s.Attached) : s.ending.Attached := by
  intro u hu
  obtain ⟨t, ht, rfl⟩ := Option.map_eq_some_iff.mp hu
  obtain ⟨hsane, link, hthere, hholds⟩ := h t ht
  exact ⟨⟨hsane.coherent, fun _ => rfl, fun _ _ => rfl⟩, link, hthere, hholds⟩

theorem Stir.attached (h : s.Attached) (hordered : s.Ordered) (hstir : Stir s es s') :
    s'.Attached := by
  cases hstir with
  | nothing => exact h
  | up link apart _ _ _ transfer upcoming =>
    rw [← apart.config] at transfer
    refine attached_of_fresh transfer ?_
    rw [apart.links]
    exact hordered.held (upcoming.subset (List.mem_cons_self ..))
  | enqueue item going _ apart transfer =>
    refine h.keep apart.config transfer fun t _ => ?_
    rw [apart.links]
    rfl
  | cancel => exact h.ending
  | @change number link link' _ there change =>
    intro t ht
    obtain ⟨hsane, l, hthere, hholds⟩ := h t ht
    refine ⟨hsane, ?_⟩
    by_cases hnumber : number = t.number
    · subst hnumber
      refine ⟨link', (getElem?_replaced there).trans (if_pos rfl), ?_⟩
      rw [hthere] at there
      cases there
      show link'.inbound.readerOpen = _
      rw [change.readerOpen]
      exact hholds
    · exact ⟨l, (getElem?_replaced there).trans ((if_neg hnumber).trans hthere), hholds⟩

/-- **A supervisor that has moved waits again.** -/
theorem Move.steady (h : s.Steady) (hmove : Move s es s') : s'.Steady := by
  cases hmove with
  | calm hcalm => exact hcalm.steady h
  | stir hstir =>
    have hattached := hstir.attached h.attached h.ordered
    exact ⟨settle_ordered (hstir.ordered h.ordered), settle_tidy (hstir.tidy h.tidy),
      settle_attached hattached, settle_resting hattached⟩

theorem Moves.steady (hmoves : Moves s es s') (h : s.Steady) : s'.Steady :=
  hmoves.induction (P := fun _ => Steady) [] (fun h hmove => hmove.steady h) h

/-! ## §3. Both ends of a link are let go together. -/

/-- The supervisor holds both ends of a link, or has let go of both. -/
def Whole (s : Simulation) : Prop :=
  ∀ (n : Nat) (link : Link), s.links[n]? = some link → link.Whole

theorem Whole.of_links (h : s.Whole) (hlinks : s'.links = s.links) : s'.Whole := by
  intro n link hlink
  rw [hlinks] at hlink
  exact h n link hlink

theorem settle_whole (hattached : s.Attached) (h : s.Whole) : s.settle.Whole := by
  rcases s.settle_cases with hsame | ⟨t, link, ht, hthere, hsettled⟩
  · rw [hsame]
    exact h
  · obtain ⟨-, l, hl, hholds⟩ := hattached t ht
    cases hthere.symm.trans hl
    have hnumber : (s.working t link).settle.transfer.number = t.number :=
      (s.working t link).settle_works.same.number
    rw [hsettled]
    intro n l' hl'
    rw [getElem?_absorb hnumber hthere] at hl'
    split at hl'
    next =>
      cases hl'
      exact Working.settle_whole hholds (h t.number link hthere)
    next => exact h n l' hl'

/-- Who gives up an attempt lets go of its link with both ends. -/
theorem dismiss_whole (h : s.Whole) : s.dismiss.Whole := by
  rcases s.dismiss_links with ⟨-, hlinks⟩ | ⟨m, -, hlinks⟩
  · exact h.of_links hlinks
  · intro n link hlink
    rw [hlinks, Array.getElem?_modify] at hlink
    split at hlink
    next =>
      obtain ⟨l, -, rfl⟩ := Option.map_eq_some_iff.mp hlink
      exact fun _ => rfl
    next => exact h n link hlink

theorem Move.whole (h : s.Steady) (hmove : Move s es s') (hwhole : s.Whole) : s'.Whole := by
  cases hmove with
  | calm hcalm =>
    cases hcalm with
    | steer apart => exact hwhole.of_links apart.links
    | detach => exact hwhole
    | dismiss apart => exact (dismiss_whole hwhole).of_links apart.links
    | accept capacity delay =>
      intro n link hlink
      have hplace : (s.links.push (.new capacity))[n]? = some link := hlink
      rw [Array.getElem?_push] at hplace
      split at hplace
      next =>
        -- a new link has not been let go
        cases hplace
        intro hgone
        cases hgone
      next => exact hwhole n link hplace
    | leave => exact hwhole
  | stir hstir =>
    apply settle_whole (hstir.attached h.attached h.ordered)
    cases hstir with
    | nothing => exact hwhole
    | up link apart => exact hwhole.of_links apart.links
    | enqueue item going _ apart => exact hwhole.of_links apart.links
    | cancel => exact hwhole
    | change there change =>
      intro n l hl
      rw [show Simulation.links _ = s.links.setIfInBounds _ _ from rfl,
        getElem?_replaced there] at hl
      split at hl
      next =>
        cases hl
        exact change.whole (hwhole _ _ there)
      next => exact hwhole n l hl

theorem Moves.whole (hmoves : Moves s es s') (h : s.Steady) (hwhole : s.Whole) : s'.Whole := by
  have hboth : s'.Steady ∧ s'.Whole :=
    hmoves.induction (P := fun _ a => a.Steady ∧ a.Whole) []
      (fun ha hmove => ⟨hmove.steady ha.1, hmove.whole ha.1 ha.2⟩) ⟨h, hwhole⟩
  exact hboth.2

/-! ## §4. What lasts of a link. -/

/-- What a transfer keeps of its link, it keeps of every link. -/
theorem settle_link {P : Link → Prop}
    (hkeeps : ∀ {w w' : Working}, Working.Works w w' → P w.link → P w'.link)
    (h : ∃ link, s.links[n]? = some link ∧ P link) :
    ∃ link, s.settle.links[n]? = some link ∧ P link := by
  refine settle_rule (P := fun a => ∃ link, a.links[n]? = some link ∧ P link) h ?_
  intro t link w _ hthere hworks
  obtain ⟨l, hl, hlink⟩ := h
  rw [getElem?_absorb hworks.same.number hthere]
  by_cases hn : t.number = n
  · subst hn
    rw [hthere] at hl
    cases hl
    exact ⟨w.link, if_pos rfl, hkeeps hworks hlink⟩
  · exact ⟨l, (if_neg hn).trans hl, hlink⟩

theorem Calm.lasts {P : Link → Prop} (hP : Link.Lasts P) (hcalm : Calm s es s')
    (h : ∃ link, s.links[n]? = some link ∧ P link) :
    ∃ link, s'.links[n]? = some link ∧ P link := by
  cases hcalm with
  | steer apart =>
    rw [apart.links]
    exact h
  | detach => exact h
  | dismiss apart =>
    rw [apart.links]
    obtain ⟨link, hlink, hlasts⟩ := h
    rcases s.getElem?_dismiss n with hsame | hreleased
    · exact ⟨link, hsame.trans hlink, hlasts⟩
    · rw [hlink] at hreleased
      exact ⟨link.release, hreleased, hP.release link hlasts⟩
  | accept capacity delay =>
    obtain ⟨link, hlink, hlasts⟩ := h
    exact ⟨link, getElem?_planned hlink _, hlasts⟩
  | leave => exact h

theorem Stir.lasts {P : Link → Prop} (hP : Link.Lasts P) (hstir : Stir s es s')
    (h : ∃ link, s.links[n]? = some link ∧ P link) :
    ∃ link, s'.links[n]? = some link ∧ P link := by
  cases hstir with
  | nothing => exact h
  | up link apart =>
    rw [apart.links]
    exact h
  | enqueue item going _ apart =>
    rw [apart.links]
    exact h
  | cancel => exact h
  | @change number link link' _ there change =>
    obtain ⟨l, hl, hlasts⟩ := h
    dsimp only
    rw [getElem?_replaced there]
    by_cases hn : number = n
    · subst hn
      rw [there] at hl
      cases hl
      rw [if_pos rfl]
      exact ⟨link', rfl, hP.change change hlasts⟩
    · rw [if_neg hn]
      exact ⟨l, hl, hlasts⟩

/-- **What lasts of a link lasts for the rest of a run.** -/
theorem Moves.lasts {P : Link → Prop} (hP : Link.Lasts P) (hmoves : Moves s es s')
    (h : ∃ link, s.links[n]? = some link ∧ P link) :
    ∃ link, s'.links[n]? = some link ∧ P link := by
  refine hmoves.induction (P := fun _ a => ∃ link, a.links[n]? = some link ∧ P link) [] ?_ h
  intro _ _ a b ha hmove
  cases hmove with
  | calm hcalm => exact hcalm.lasts hP ha
  | stir hstir => exact settle_link hP.works (hstir.lasts hP ha)

theorem readerOpen_of_works {w w' : Working} (hworks : Working.Works w w')
    (hgone : w.link.inbound.readerOpen = false) : w'.link.inbound.readerOpen = false := by
  induction hworks with
  | refl => exact hgone
  | tail _ hop ih =>
    cases hop with
    | arrange => exact ih
    | read reads => exact reads.readerOpen.trans ih
    | write writes => exact (congrArg Pipe.readerOpen writes.keepsInbound.inbound).trans ih
    | finish =>
      rw [Working.finish_eq]
      rfl

theorem letGo_lasts : Link.Lasts fun l => l.inbound.readerOpen = false :=
  ⟨fun _ _ => rfl, fun hchange => hchange.readerOpen.trans, readerOpen_of_works⟩

theorem Moves.letGo (hmoves : Moves s es s') (h : s.LetGo n) : s'.LetGo n :=
  hmoves.lasts letGo_lasts h

/-- A link that is over has been let go. -/
theorem Attached.letGo_of_over (h : s.Attached) {t : Transfer} (ht : s.transfer = some t)
    (hover : s.linkIsOver = true) : s.LetGo t.number := by
  obtain ⟨-, link, hthere, hholds⟩ := h t ht
  have hheld : link.inbound.readerOpen = !s.linkIsOver := by
    unfold linkIsOver
    rw [ht]
    exact hholds
  rw [hover] at hheld
  exact ⟨link, hthere, hheld⟩

/-! ## §5. Runs. -/

theorem start_steady (pace : Pace) (config : SupervisorConfig) (endpoint : Endpoint) :
    (start pace config endpoint).Steady := by
  refine ⟨start_ordered _ _ _, start_tidy _ _ _, ?_, ?_⟩
  · intro t ht
    cases ht
  · intro t link ht
    cases ht

theorem run_steady (pace : Pace) (config : SupervisorConfig) (endpoint : Endpoint)
    (actions : List Action) :
    ((start pace config endpoint).run actions).Steady := by
  have hstart := start_steady pace config endpoint
  obtain ⟨es, hmoves, -⟩ := run_moves hstart.tidy actions
  exact hmoves.steady hstart

/-- **No transfer of a run fails as a whole**: whenever the watchdog finds a link over, the transfer
gives the queue back. -/
theorem run_sound (pace : Pace) (config : SupervisorConfig) (endpoint : Endpoint)
    (actions : List Action) : ((start pace config endpoint).run actions).linkHasFailed = false
      ∧ ((start pace config endpoint).run actions).look
        = ((start pace config endpoint).run actions).inspect := by
  have hsound := (run_steady pace config endpoint actions).tidy.sound
  exact ⟨hsound, look_of_sound hsound⟩

end Simulation

end ReceiverLink
