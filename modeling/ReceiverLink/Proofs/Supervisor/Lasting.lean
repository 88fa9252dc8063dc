/-
  ReceiverLink.Proofs.Supervisor.Lasting
  ────────────────────────────────
  **Only reading ends a link.**

  A write or a flush that fails loses its item, and that is all.  The reading
  half does not learn of it, and the watchdog asks for nothing but whether both
  halves have ended.  So as long as the receiver keeps its side open and no read
  fails, the supervisor stays active on the same link, makes no attempt, and
  takes whatever is queued for this link, however many of its writes fail.

  Main statements:
    * `Moves.inUse` — a link is in use until it is let go;
    * `Act.endures`, `Evolves.endures` — until then nothing happens to the life
      of the supervisor;
    * `failed_writes_end_nothing` — when a link is lost, and what happens until
      then.
-/
import ReceiverLink.Proofs.Supervisor.Account
import ReceiverLink.Proofs.Supervisor.Endings
import ReceiverLink.Proofs.Supervisor.Exclusive
import ReceiverLink.Proofs.Supervisor.Played
import ReceiverLink.Proofs.Supervisor.Shutdown

namespace ReceiverLink

namespace Simulation

variable {s s' s'' : Simulation} {es : List Influence} {n : Nat} {past : List Happening}
  {p : Action × Answer} {replay : Bool}

/-! ## §1. A link in use. -/

/-- The link is that of the transfer, and since the given record bytes have been
moved and items taken on this link only. -/
structure InUse (n : Nat) (past : List Happening) (s : Simulation) : Prop where
  current : s.current? = some n
  record : ∃ hs, s.happenings = past ++ hs ∧ ∀ x ∈ hs, x.On n

theorem InUse.next {hs : List Happening} (h : InUse n past s)
    (hcurrent : s'.current? = s.current?) (hrecord : s'.happenings = s.happenings ++ hs)
    (hon : ∀ x ∈ hs, x.On n) : InUse n past s' := by
  refine ⟨hcurrent.trans h.current, ?_⟩
  obtain ⟨earlier, hearlier, hon'⟩ := h.record
  refine ⟨earlier ++ hs, by rw [hrecord, hearlier, List.append_assoc], ?_⟩
  intro x hx
  rcases List.mem_append.mp hx with hfirst | hlast
  · exact hon' x hfirst
  · exact hon x hlast

/-- Nothing is recorded. -/
theorem InUse.silent (h : InUse n past s) (hcurrent : s'.current? = s.current?)
    (hrecord : s'.record = s.record) : InUse n past s' := by
  have hnothing : s'.happenings = s.happenings ++ [] := by
    unfold happenings
    rw [hrecord, List.append_nil]
  exact h.next hcurrent hnothing fun _ hx => nomatch hx

theorem InUse.apart (h : InUse n past s) (apart : Apart s s')
    (htransfer : s'.transfer = s.transfer) : InUse n past s' := by
  obtain ⟨hs, hrecord, hside⟩ := apart.record
  refine h.next (congrArg (Option.map _) htransfer) hrecord ?_
  intro x hx
  exact .of_none (link?_of_steering (hside x hx)) n

theorem Calm.inUse (hcalm : Calm s es s') (hattached : s.Attached) (h : InUse n past s) :
    InUse n past s' ∨ s'.LetGo n := by
  cases hcalm with
  | steer apart transfer => exact .inl (h.apart apart transfer)
  | detach hover => exact .inr (hattached.letGo_of_current h.current hover)
  | dismiss apart transfer =>
    have hdismissed : InUse n past s.dismiss := h.silent rfl rfl
    exact .inl (hdismissed.apart apart transfer)
  | accept => exact .inl (h.silent rfl rfl)
  | leave => exact .inl (h.silent rfl rfl)

theorem Stir.inUse (hstir : Stir s es s') (h : InUse n past s) : InUse n past s' := by
  cases hstir with
  | nothing => exact h
  | up _ _ free =>
    -- a link is brought up only when there is none
    have hcurrent := h.current
    rw [current_eq_none_iff.mpr free] at hcurrent
    cases hcurrent
  | enqueue item _ _ apart transfer =>
    have hrecord : (s.enqueue item).happenings = s.happenings ++ [.queued item] :=
      happenings_note _ _
    have hqueued : InUse n past (s.enqueue item) := by
      refine h.next rfl hrecord ?_
      intro x hx
      rw [List.mem_singleton.mp hx]
      exact .of_none rfl n
    exact hqueued.apart apart transfer
  | cancel =>
    refine h.silent ?_ rfl
    show (s.transfer.map _).map _ = s.transfer.map _
    rw [Option.map_map]
    rfl
  | change => exact h.silent rfl rfl

theorem settle_inUse (h : InUse n past s) : InUse n past s.settle := by
  refine settle_rule (P := InUse n past) h ?_
  intro t link w ht _ hworks
  have hn : t.number = n := by
    have hcurrent := h.current
    unfold current? at hcurrent
    rw [ht] at hcurrent
    exact Option.some.inj hcurrent
  refine h.next ?_ (happenings_absorb _ _) ?_
  · rw [h.current, ← hn]
    exact congrArg some hworks.same.number
  · intro x hx
    exact hn ▸ (recorded_of_works hworks x hx).1

/-- **A link is in use until it is let go.** -/
theorem Moves.inUse (hmoves : Moves s es s') (hsteady : s.Steady) (h : InUse n past s)
    (hheld : ¬ s'.LetGo n) : InUse n past s' := by
  have hall := hmoves.induction
    (P := fun _ a => a.Steady ∧ (InUse n past a ∨ a.LetGo n)) [] ?_ ⟨hsteady, .inl h⟩
  · exact hall.2.resolve_right hheld
  · rintro _ es a b ⟨hsteady, ha⟩ hmove
    refine ⟨hmove.steady hsteady, ?_⟩
    rcases ha with ha | hgone
    · cases hmove with
      | calm hcalm => exact hcalm.inUse hsteady.attached ha
      | stir hstir => exact .inl (settle_inUse (hstir.inUse ha))
    · exact .inr (Moves.letGo (.tail .refl hmove) hgone)

/-! ## §2. The life of the supervisor. -/

/-- The life of the supervisor has gone on with the same link: no state is
published, no attempt is made, and what moves, moves on this link. -/
structure Endures (n : Nat) (s s' : Simulation) : Prop where
  lifecycle : s'.lifecycle = s.lifecycle
  current : s'.current? = some n
  record : ∃ hs, s'.happenings = s.happenings ++ hs ∧ ∀ x ∈ hs, x.isVital = false ∧ x.On n

theorem Endures.refl (h : s.current? = some n) : Endures n s s :=
  ⟨rfl, h, [], (List.append_nil _).symm, by simp⟩

theorem Endures.trans (h : Endures n s s') (h' : Endures n s' s'') : Endures n s s'' := by
  obtain ⟨hs, hrecord, hplain⟩ := h.record
  obtain ⟨more, hmore, hplain'⟩ := h'.record
  refine ⟨h'.lifecycle.trans h.lifecycle, h'.current, hs ++ more, ?_, ?_⟩
  · rw [hmore, hrecord, List.append_assoc]
  · intro x hx
    rcases List.mem_append.mp hx with hfirst | hlast
    · exact hplain x hfirst
    · exact hplain' x hlast

/-- A link that is held later is up before. -/
theorem Moves.up_before (hmoves : Moves s es s') (hattached : s.Attached)
    (hcurrent : s.current? = some n) (hheld : ¬ s'.LetGo n) : s.linkIsOver = false := by
  by_contra hover
  exact hheld (hmoves.letGo (hattached.letGo_of_current hcurrent (by simpa using hover)))

/-- **Until a link is let go, each act goes on with it.**  The watchdog does not
look at what has been written, or has not. -/
theorem Act.endures (h : Living replay s) (act : Act p s s') (hcurrent : s.current? = some n)
    (hheld : ¬ s'.LetGo n) : Endures n s s' := by
  obtain ⟨es, hmoves⟩ := act.moves h.steady.tidy
  have hliving : Living replay s' := act.living h
  have hused : InUse n s.happenings s' :=
    hmoves.inUse h.steady ⟨hcurrent, [], (List.append_nil _).symm, by simp⟩ hheld
  have hsome : s.transfer ≠ none := by
    rw [Ne, ← current_eq_none_iff, hcurrent]
    exact Option.some_ne_none n
  have hgoes : s.linkIsOver = false := hmoves.up_before h.steady.attached hcurrent hheld
  have hgoes' : s'.linkIsOver = false :=
    Moves.refl.up_before hliving.steady.attached hused.current hheld
  -- so it has not been ended, neither by a call
  have hended : s'.transfer.map Transfer.ended ≠ s.transfer.map fun _ => true := by
    intro hended
    rw [hliving.steady.linkIsOver_eq, hended] at hgoes'
    cases ht : s.transfer with
    | none => exact hsome ht
    | some t =>
      rw [ht] at hgoes'
      cases hgoes'
  have htrying : s.watch.isTrying = true → Endures n s s' :=
    fun hwatch => absurd (h.phase.of_trying hwatch).2.1 hsome
  cases act with
  | aside _ beside =>
    obtain ⟨hs, hrecord, hplain⟩ := beside.record
    obtain ⟨hs', hrecord', hon⟩ := hused.record
    cases List.append_cancel_left (hrecord.symm.trans hrecord')
    have hboth : ∀ x ∈ hs, x.isVital = false ∧ x.On n := fun x hx => ⟨hplain x hx, hon x hx⟩
    exact ⟨beside.lifecycle, hused.current, hs, hrecord, hboth⟩
  | call _ fresh => exact absurd (h.phase.of_fresh fresh).2 hsome
  | refuse _ _ calling => exact absurd (h.phase.of_fresh calling.fresh).2 hsome
  | bring _ calling => exact absurd (h.phase.of_fresh calling.fresh).2 hsome
  | keep => exact ⟨rfl, hcurrent, [], (List.append_nil _).symm, by simp⟩
  | lose _ finished => cases finished.symm.trans hgoes
  | finish _ finished => cases finished.symm.trans hgoes
  | attempt watch => exact htrying (by rw [watch]; rfl)
  | fail watch => exact htrying (by rw [watch]; rfl)
  | succeed watch => exact htrying (by rw [watch]; rfl)
  | shut => exact absurd s.shutdown_ended hended
  | release => exact absurd s.endLink_ended hended

/-- **Until a link is let go, a supervisor goes on with it.** -/
theorem Evolves.endures (h : Living replay s) (evolves : Evolves s s')
    (hcurrent : s.current? = some n) (hheld : ¬ s'.LetGo n) : Endures n s s' := by
  induction evolves with
  | refl => exact .refl hcurrent
  | tail evolves act ih =>
    obtain ⟨p, act⟩ := act
    have hliving := Evolves.living h evolves
    obtain ⟨es, hmoves⟩ := act.moves hliving.steady.tidy
    have hbefore := ih fun hgone => hheld (hmoves.letGo hgone)
    exact hbefore.trans (act.endures hliving hbefore.current hheld)

/-! ## §3. The queue. -/

/-- An item is partly written, and the pipe to the receiver is full. -/
def Stalled (s : Simulation) (n : Nat) : Prop :=
  ∃ t link item rest, s.transfer = some t ∧ s.links[n]? = some link
    ∧ t.writer = .writing item rest ∧ link.outbound.isFull = true

/-- A transfer that goes on has taken all that is queued, unless the receiver
takes nothing in. -/
theorem Steady.taken_or_stalled (h : s.Steady) (hcurrent : s.current? = some n)
    (hgoes : s.linkIsOver = false) : s.queue = [] ∨ s.Stalled n := by
  obtain ⟨t, ht, rfl⟩ := Option.map_eq_some_iff.mp hcurrent
  obtain ⟨hsane, link, hthere, -⟩ := h.attached t ht
  have hrest := h.resting t link ht hthere
  have hended : t.ended = false := by
    rw [h.linkIsOver_eq, ht] at hgoes
    exact hgoes
  have hdone : t.isDone = false := (Working.isDone_of_rest hsane hrest).1.trans hended
  have hwrite : (s.working t link).canWrite = false := by
    have hcannot : (!t.isDone && (t.due || (s.working t link).canRead
      || (s.working t link).canWrite)) = false := hrest
    rw [hdone, Bool.not_false, Bool.true_and] at hcannot
    exact (Bool.or_eq_false_iff.mp hcannot).2
  unfold Working.canWrite working at hwrite
  dsimp only at hwrite
  cases hwriter : t.writer with
  | idle =>
    rw [hwriter, hended] at hwrite
    exact .inl (List.isEmpty_iff.mp (by simpa using hwrite))
  | writing item rest =>
    rw [hwriter, hended] at hwrite
    have hfull : link.outbound.isFull = true := by
      have hboth := (Bool.or_eq_false_iff.mp hwrite).2
      simpa using hboth
    exact .inr ⟨t, link, item, rest, ht, hthere, hwriter, hfull⟩
  | closed clean =>
    -- the writing half ends only once the link is to end
    cases (hsane.writer clean hwriter).symm.trans hended

/-- What is taken on one link only is taken on that link. -/
theorem takes_of_on {hs : List Happening} (hon : ∀ x ∈ hs, x.On n) :
    (hs.flatMap Happening.takes).map Prod.snd = hs.flatMap (Happening.takenOn n) := by
  rw [List.map_flatMap]
  refine List.flatMap_congr ?_
  intro x hx
  cases x with
  | taken m item =>
    have hm : m = n := hon _ hx m rfl
    show [item] = if m = n then [item] else []
    rw [if_pos hm]
  | _ => rfl

/-- **While a supervisor goes on with a link, this link takes what is queued**, in
order: what was queued before, and what has been queued since. -/
theorem Outgoing.taken_since {es' : List Influence} {ds ds' : List Delivery}
    {lost lost' : List Outbound} {hs : List Happening} (h : Outgoing es s ds lost)
    (h' : Outgoing es' s' ds' lost') (going : s.isOver = false) (going' : s'.isOver = false)
    (hup : s.linkIsOver = false) (hup' : s'.linkIsOver = false)
    (hrecord : s'.happenings = s.happenings ++ hs) (hon : ∀ x ∈ hs, x.On n) :
    s.queue ++ queuedItems hs = hs.flatMap (Happening.takenOn n) ++ s'.queue := by
  have hbefore := h.entries
  have hafter := h'.entries
  rw [h.lost_eq_nil going (isForsaken_of_up hup), List.append_nil] at hbefore
  rw [h'.lost_eq_nil going' (isForsaken_of_up hup'), List.append_nil, hrecord, queuedItems_append,
    hbefore] at hafter
  -- the deliveries since then are those of what has been taken since then
  have htakes : ds'.map (fun d => (d.link, d.item))
      = ds.map (fun d => (d.link, d.item)) ++ hs.flatMap Happening.takes := by
    rw [← h'.deliveries.takes_eq, ← h.deliveries.takes_eq, hrecord, List.flatMap_append]
  have hitems : ds'.map Delivery.item
      = ds.map Delivery.item ++ hs.flatMap (Happening.takenOn n) := by
    have hmap := congrArg (List.map Prod.snd) htakes
    rw [List.map_append, List.map_map, List.map_map, takes_of_on hon] at hmap
    exact hmap
  rw [hitems, List.append_assoc, List.append_assoc] at hafter
  exact List.append_cancel_left hafter

/-! ## §4. Runs. -/

variable {pace : Pace} {config : SupervisorConfig} {endpoint : Endpoint} {actions : List Action}

/-- A run that nobody ends, and in which no read on the link fails. -/
theorem run_patient (hshutdown : .shutdown ∉ actions) (hdrop : .drop ∉ actions)
    (hread : ∀ kind, .fail n .read kind ∈ actions → kind = .interrupted) :
    ((start pace config endpoint).run actions).Patient n := by
  have hstart := start_steady pace config endpoint
  obtain ⟨es, hmoves, htold⟩ := run_moves hstart.tidy actions
  have hspares := Told.spares htold hshutdown hdrop hread
  exact hmoves.patient hstart hspares (start_patient pace config endpoint)

/-- Until the caller lets go of it, an active supervisor is not at its end. -/
theorem run_going (hshutdown : .shutdown ∉ actions) (hdrop : .drop ∉ actions)
    (hactive : ((start pace config endpoint).run actions).lifecycle = .active) :
    ((start pace config endpoint).run actions).isOver = false := by
  have hheld : Held ((start pace config endpoint).run actions) :=
    run_held (start_waiting pace config endpoint) ⟨rfl, fun h => nomatch h⟩ hshutdown hdrop
  unfold isOver
  rw [hactive, hheld.kept]
  rfl

/-- **Failed writes end nothing.**  Take any moment of a run at which the
supervisor is active on a link, and any later one, and let nobody end the
supervisor and no read on the link fail by then.  Whatever writes and flushes
fail, the link is lost only if the receiver has closed its side.  If it has not,
the supervisor is still active on that link, has published no state and made no
attempt since; and the link has taken all that was queued, in order, unless its
pipe is full. -/
theorem failed_writes_end_nothing (pace : Pace) (config : SupervisorConfig) (endpoint : Endpoint)
    (before after : List Action) (n : Nat)
    (hshutdown : .shutdown ∉ before ++ after) (hdrop : .drop ∉ before ++ after)
    (hread : ∀ kind, .fail n .read kind ∈ before ++ after → kind = .interrupted) :
    let s := (start pace config endpoint).run before
    let s' := (start pace config endpoint).run (before ++ after)
    s.lifecycle = .active → s.current? = some n →
      (s'.current? = some n ∧ s'.linkIsOver = false ↔ ¬ s'.Shut n)
      ∧ (¬ s'.Shut n → s'.lifecycle = .active
        ∧ ∃ hs, s'.happenings = s.happenings ++ hs ∧ (∀ x ∈ hs, x.isVital = false)
          ∧ s.queue ++ queuedItems hs = hs.flatMap (Happening.takenOn n) ++ s'.queue
          ∧ (s'.queue = [] ∨ s'.Stalled n)) := by
  intro s s' hactive hcurrent
  have hsteady : s.Steady := run_steady pace config endpoint before
  have hsteady' : s'.Steady := run_steady pace config endpoint (before ++ after)
  have hpatient : s'.Patient n := run_patient hshutdown hdrop hread
  -- a link that is let go while nobody is told to go has been closed by the receiver
  have hendures : ¬ s'.Shut n → Endures n s s' := by
    intro hopen
    have hwaiting : Waiting _ s := run_waiting (start_waiting pace config endpoint) before
    have hevolves : Evolves s s' := by
      rw [show s' = s.run after from run_append _ _ _]
      exact run_evolves hwaiting after
    exact hevolves.endures hwaiting.living hcurrent (mt hpatient.shut_of_letGo hopen)
  have hgoes : ¬ s'.Shut n → s'.linkIsOver = false := fun hopen =>
    hpatient.goes hsteady' (hendures hopen).current hopen
  refine ⟨⟨?_, fun hopen => ⟨(hendures hopen).current, hgoes hopen⟩⟩, ?_⟩
  · rintro ⟨hcurrent', hgoing⟩ hshut
    cases hgoing.symm.trans (hsteady'.over_of_shut hcurrent' hshut)
  · intro hopen
    obtain ⟨hlifecycle, hcurrent', hs, hrecord, hplain⟩ := hendures hopen
    have hactive' : s'.lifecycle = .active := hlifecycle.trans hactive
    have going : s.isOver = false := run_going (fun h => hshutdown (List.mem_append_left _ h))
      (fun h => hdrop (List.mem_append_left _ h)) hactive
    have going' : s'.isOver = false := run_going hshutdown hdrop hactive'
    obtain ⟨_, _, _, -, hbooks, -⟩ := run_outgoing pace config endpoint before
    obtain ⟨_, _, _, -, hbooks', -⟩ := run_outgoing pace config endpoint (before ++ after)
    have hup : s.linkIsOver = false := by
      obtain ⟨es, hmoves, -⟩ := run_moves hsteady.tidy after
      rw [← show s' = s.run after from run_append _ _ _] at hmoves
      exact hmoves.up_before hsteady.attached hcurrent (mt hpatient.shut_of_letGo hopen)
    have htaken := hbooks.taken_since hbooks' going going' hup (hgoes hopen) hrecord
      fun x hx => (hplain x hx).2
    exact ⟨hactive', hs, hrecord, fun x hx => (hplain x hx).1, htaken,
      hsteady'.taken_or_stalled hcurrent' (hgoes hopen)⟩

/-- The flush of a command fails, and then the write of a keepalive. -/
def failing : List Action :=
  [.fail 0 .flush .timedOut, .send [0x61], .fail 0 .write .connectionReset, .advance 2000]

/-- The link takes the command and both keepalives all the same. -/
theorem failed_writes_end_nothing_failing :
    let s := (start .cooperative {} (.tcp {})).run [.accept 4096 0, .connect]
    let s' := (start .cooperative {} (.tcp {})).run ([.accept 4096 0, .connect] ++ failing)
    s'.lifecycle = .active
      ∧ ∃ hs, s'.happenings = s.happenings ++ hs ∧ (∀ x ∈ hs, x.isVital = false)
        ∧ hs.flatMap (Happening.takenOn 0) = [.command [0x61], .keepalive, .keepalive]
        ∧ .writeFailed (.command [0x61]) ⟨.timedOut, none⟩ ∈ hs
        ∧ .writeFailed .keepalive ⟨.connectionReset, none⟩ ∈ hs := by
  intro s s'
  have hopen : ¬ s'.Shut 0 := by
    rintro ⟨link, hlink, hshut⟩
    cases hlink
    revert hshut
    decide +kernel
  have hread : ∀ kind, .fail 0 .read kind ∈ [.accept 4096 0, .connect] ++ failing →
      kind = .interrupted := by
    intro kind hmem
    simp [failing] at hmem
  obtain ⟨-, hlasts⟩ := failed_writes_end_nothing .cooperative {} (.tcp {})
    [.accept 4096 0, .connect] failing 0 (by decide) (by decide) hread (by decide +kernel)
    (by decide +kernel)
  obtain ⟨hactive, hs, hrecord, hplain, -⟩ := hlasts hopen
  have hsince : hs = s'.happenings.drop s.happenings.length := by
    rw [hrecord, List.drop_left]
  refine ⟨hactive, hs, hrecord, hplain, ?_⟩
  rw [hsince]
  decide +kernel

/-- A write of a keepalive fails.  One interval later the supervisor is still
active, has made no other attempt, and the link takes the next keepalive. -/
theorem failed_write_unnoticed :
    let s := (start .cooperative {} (.tcp {})).run
      [.accept 4096 0, .connect, .fail 0 .write .connectionReset, .advance 1000]
    let s' := s.run [.advance 1000]
    (1000, .writeFailed .keepalive ⟨.connectionReset, none⟩) ∈ s.record.toList
      ∧ s'.lifecycle = .active ∧ s'.tally.begun = 1
      ∧ (2000, .taken 0 .keepalive) ∈ s'.record.toList := by
  decide +kernel

end Simulation

end ReceiverLink
