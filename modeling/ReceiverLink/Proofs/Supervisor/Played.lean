/-
  ReceiverLink.Proofs.Supervisor.Played
  ────────────────────────────────
  **A recording is played, however slowly it is read.**

  What a recording holds comes bit by bit, and all of it is taken as it comes.
  Until its end is reached every look of the watchdog finds the link up, and
  nothing is made known.  The first look after that finds the recording at its
  end, and by then all its telegrams have been handed over.  Commands that are
  sent change nothing of this.

  Main statements:
    * `Feeding.advance`, `Feeding.write`, `Feeding.finish` — what keeps a link
      going, and what brings it to its end;
    * `Feeding.send`, `Complete.send` — commands change nothing;
    * `Complete.elapse` — what the first look finds after the end;
    * `played_whole` — what has been handed over.
-/
import ReceiverLink.Proofs.Supervisor.Alike
import ReceiverLink.Proofs.Supervisor.Drained
import ReceiverLink.Proofs.Supervisor.Timeline

namespace ReceiverLink

/-- The receiver's side of the link is there, and all that is put there fits. -/
structure Link.Feeds (l : Link) : Prop where
  receiver : l.receiverOpen = true
  writer : l.inbound.writerOpen = true
  wide : l.inbound.capacity = none

theorem Working.Works.feeds {w w' : Working} (hworks : Works w w') (h : w.link.Feeds) :
    w'.link.Feeds :=
  ⟨hworks.same.receiver.trans h.receiver, hworks.inflow.1.trans h.writer,
    hworks.capacity.trans h.wide⟩

namespace Simulation

variable {s s' : Simulation} {n : Nat}

/-! ## §1. A link, before and after its end. -/

/-- The receiver's side of the link is closed. -/
def Shut (s : Simulation) (n : Nat) : Prop :=
  ∃ link, s.links[n]? = some link ∧ link.inbound.writerOpen = false

/-- The receiver's side of the link is there, and all that is put there fits. -/
def Fed (s : Simulation) (n : Nat) : Prop :=
  ∃ link, s.links[n]? = some link ∧ link.Feeds

/-- A transfer does not open the receiver's side. -/
theorem settle_shut (h : s.Shut n) : s.settle.Shut n :=
  settle_link (fun hworks => hworks.inflow.1.trans) h

theorem settle_fed (h : s.Fed n) : s.settle.Fed n :=
  settle_link (fun hworks => hworks.feeds) h

theorem Fed.not_shut (h : s.Fed n) : ¬ s.Shut n := by
  obtain ⟨link, hlink, hfeeds⟩ := h
  rintro ⟨link', hlink', hclosed⟩
  cases hlink.symm.trans hlink'
  cases hfeeds.writer.symm.trans hclosed

/-- A transfer at rest has read a closed link to its end. -/
theorem Steady.ended_of_shut (hs : s.Steady) {t : Transfer} (ht : s.transfer = some t)
    (hshut : s.Shut t.number) : t.ended = true := by
  obtain ⟨link, hlink, hclosed⟩ := hshut
  obtain ⟨hsane, -⟩ := hs.attached t ht
  have hrest := hs.resting t link ht hlink
  obtain ⟨hdone, hreading⟩ := Working.isDone_of_rest hsane hrest
  by_contra hgoes
  have hgoes : (s.working t link).transfer.ended = false := eq_false_of_ne_true hgoes
  -- otherwise it could read: bytes, or the end
  rw [hgoes] at hdone hreading
  have hread : (s.working t link).canRead = true := by
    unfold Working.canRead
    rw [hreading, hgoes]
    have hsome : (!link.inbound.buffer.isEmpty || link.inbound.atEnd) = true := by
      unfold Pipe.atEnd
      rw [hclosed]
      cases link.inbound.buffer.isEmpty <;> rfl
    show (true && (_ || !link.inbound.buffer.isEmpty || link.inbound.atEnd)) = true
    rw [Bool.true_and, Bool.or_assoc, hsome, Bool.or_true]
  rw [Working.isReady_eq, hdone, hread] at hrest
  simp at hrest

/-- Once the receiver has closed its side, the link is over. -/
theorem Steady.over_of_shut (h : s.Steady) (hcurrent : s.current? = some n) (hshut : s.Shut n) :
    s.linkIsOver = true := by
  obtain ⟨t, ht, rfl⟩ := Option.map_eq_some_iff.mp hcurrent
  rw [h.linkIsOver_eq, ht]
  exact h.ended_of_shut ht hshut

theorem Attached.letGo_of_current (h : s.Attached) (hcurrent : s.current? = some n)
    (hover : s.linkIsOver = true) : s.LetGo n := by
  obtain ⟨t, ht, rfl⟩ := Option.map_eq_some_iff.mp hcurrent
  exact h.letGo_of_over ht hover

/-- A link let go that has ended by itself is one that the receiver has closed. -/
theorem Patient.shut_of_letGo (h : s.Patient n) (hgone : s.LetGo n) : s.Shut n := by
  obtain ⟨link, hlink, hend⟩ := h.gone hgone
  exact ⟨link, hlink, by simpa using (Bool.and_eq_true_iff.mp hend).2⟩

/-- While the receiver keeps its side open, the link is not over. -/
theorem Patient.goes (h : s.Patient n) (hsteady : s.Steady) (hcurrent : s.current? = some n)
    (hopen : ¬ s.Shut n) : s.linkIsOver = false := by
  by_contra hover
  have hgone := hsteady.attached.letGo_of_current hcurrent (by simpa using hover)
  exact hopen (h.shut_of_letGo hgone)

/-! ## §2. A recording that plays. -/

/-- The link is up, nothing is written on it unasked, and the watchdog looks at
it within its interval. -/
structure Plays (n : Nat) (s : Simulation) : Prop where
  active : s.lifecycle = .active
  replays : s.replays = true
  unasked : s.keepsAlive = false
  kept : s.released = false
  current : s.current? = some n
  watch : ∃ moment, s.watch = .looking moment ∧ s.clock < moment
    ∧ moment ≤ s.clock + s.config.watchdog

theorem Plays.alive (h : s.Plays n) : s.watch.hasFailed = false := by
  obtain ⟨moment, hwatch, -⟩ := h.watch
  rw [hwatch]
  rfl

/-- What leaves the life of the supervisor alone does so at a moment. -/
theorem Plays.beside (h : s.Plays n) (hbeside : Beside s s') (hclock : s'.clock = s.clock) :
    s'.Plays n := by
  refine ⟨hbeside.lifecycle.trans h.active, ?_, ?_, hbeside.released.trans h.kept,
    hbeside.current.trans h.current, ?_⟩
  · have hreplays := h.replays
    unfold Simulation.replays at hreplays ⊢
    rw [hbeside.config, hbeside.kind]
    exact hreplays
  · have hunasked := h.unasked
    unfold keepsAlive at hunasked ⊢
    rw [hbeside.config, hbeside.kind]
    exact hunasked
  · rw [hbeside.watch, hclock, hbeside.config]
    exact h.watch

/-- A recording that is brought up plays. -/
theorem linkUp_plays (hreplays : s.replays = true) (hunasked : s.keepsAlive = false)
    (hkept : s.released = false) (interval : 0 < s.config.watchdog) : (s.linkUp n).Plays n := by
  have happart := (Apart.refl s).publish .active
  have hclock := ((Instant.refl s).publish .active).clock
  -- the transfer is there, and then does what it can
  have hopening : (s.opening n).Plays n := by
    refine ⟨publish_lifecycle _ _, ?_, ?_, (publish_released _ _).trans hkept, rfl, ?_⟩
    · show (_ || (s.publish .active).endpoint.kind == .replay) = true
      rw [publish_endpoint, show (s.opening n).config = s.config from happart.config]
      exact hreplays
    · show (_ && (s.publish .active).endpoint.kind.needsKeepalive) = false
      rw [publish_endpoint, show (s.opening n).config = s.config from happart.config]
      exact hunasked
    · show ∃ moment, s.firstLook = _ ∧ (s.publish .active).clock < moment
        ∧ moment ≤ (s.publish .active).clock + (s.publish .active).config.watchdog
      rw [firstLook_of_pos interval, hclock, happart.config]
      exact ⟨_, rfl, by omega, Nat.le_refl _⟩
  have hinstant : Instant (s.opening n) (s.linkUp n) := (Instant.refl (s.opening n)).settle
  exact hopening.beside (linkUp_beside s n) hinstant.clock

/-! ## §3. The watchdog. -/

/-- A look that finds the link up is followed by the next one, and nothing is
written on a link that is not to be kept alive. -/
theorem wake_of_up {moment : Nat} (hwatch : s.watch = .looking moment)
    (hunasked : s.keepsAlive = false) (hgoes : s.linkIsOver = false)
    (hsound : s.linkHasFailed = false) :
    s.wake = { s with watch := .looking (s.clock + s.config.watchdog) } :=
  (wake_of_looking hwatch).trans (look_of_unasked hsound hgoes hunasked)

/-- A look that is due is the next thing that happens. -/
theorem runUntil_of_due {next moment count : Nat} (hwatch : s.watch = .looking next)
    (hahead : s.clock < next) (hdue : next ≤ moment) :
    runUntil moment (count + 1) s = runUntil moment count { s with clock := next }.wake := by
  conv_lhs => unfold runUntil
  rw [deadline?_of_looking hwatch]
  dsimp only
  rw [if_pos hdue, Nat.max_eq_right (Nat.le_of_lt hahead)]

/-- While the link is up, only the clock goes on, and the next look is due within an interval. -/
theorem Plays.runUntil_up {moment : Nat} (count : Nat) (h : s.Plays n)
    (hgoes : s.linkIsOver = false) (hsound : s.linkHasFailed = false) (hlater : s.clock ≤ moment)
    (hcount : moment ≤ s.clock + count) :
    ∃ next, runUntil moment count s = { s with clock := moment, watch := .looking next }
      ∧ moment < next ∧ next ≤ moment + s.config.watchdog := by
  obtain ⟨next, hwatch, hahead, hsoon⟩ := h.watch
  have hwaits : { s with clock := moment }
      = { s with clock := moment, watch := .looking next } := by rw [← hwatch]
  induction count generalizing s next with
  | zero => exact ⟨next, hwaits, by omega, by omega⟩
  | succ count ih =>
    by_cases hdue : next ≤ moment
    · -- the look is due, and the next one comes an interval later
      let due : Simulation := { s with clock := next }
      let kept : Simulation := { due with watch := .looking (next + s.config.watchdog) }
      have hwake : due.wake = kept := wake_of_up hwatch h.unasked hgoes hsound
      have hnext : next < next + s.config.watchdog := by omega
      have hplays : kept.Plays n :=
        ⟨h.active, h.replays, h.unasked, h.kept, h.current, _, rfl, hnext, Nat.le_refl _⟩
      have hleft : moment ≤ next + count := by omega
      rw [runUntil_of_due hwatch hahead hdue, hwake]
      exact ih hplays hgoes hsound hdue hleft _ rfl hnext (Nat.le_refl _) rfl
    · refine ⟨next, ?_, by omega, by omega⟩
      unfold runUntil
      rw [deadline?_of_looking hwatch]
      dsimp only
      rw [if_neg hdue]
      exact hwaits

/-- **While the link is up**, the passing of time makes nothing known. -/
theorem Plays.elapse_up (h : s.Plays n) (hgoes : s.linkIsOver = false)
    (hsound : s.linkHasFailed = false) (ms : Nat) :
    (s.elapse ms).Plays n ∧ (s.elapse ms).links = s.links := by
  obtain ⟨next, helapse, hahead, hsoon⟩ :=
    h.runUntil_up ms hgoes hsound (Nat.le_add_right _ _) (Nat.le_refl _)
  unfold elapse
  rw [helapse]
  exact ⟨⟨h.active, h.replays, h.unasked, h.kept, h.current, next, rfl, hahead, hsoon⟩, rfl⟩

/-- **Once the link is over**, the first look finds the recording at its end. -/
theorem Plays.elapse_over (h : s.Plays n) (hover : s.linkIsOver = true)
    (hsound : s.linkHasFailed = false) :
    (s.elapse s.config.watchdog).happenings = s.happenings
      ++ [.replayFinished s.endpoint.text, .stateChanged .active .drained] := by
  obtain ⟨next, hwatch, hahead, hsoon⟩ := h.watch
  let due : Simulation := { s with clock := next }
  have hwake : due.wake = due.drained :=
    (wake_of_looking (s := due) hwatch).trans (look_eq_drained (s := due) hsound hover h.replays)
  obtain ⟨ms, hms⟩ := Nat.exists_eq_succ_of_ne_zero (show s.config.watchdog ≠ 0 by omega)
  have helapse : s.elapse s.config.watchdog
      = { due.drained with clock := s.clock + s.config.watchdog } := by
    show runUntil (s.clock + s.config.watchdog) s.config.watchdog s = _
    generalize s.clock + s.config.watchdog = moment at hsoon ⊢
    rw [hms, runUntil_of_due hwatch hahead hsoon]
    exact (congrArg _ hwake).trans (runUntil_of_off rfl _ _)
  rw [helapse]
  exact drained_happenings (s := due) h.active

/-! ## §4. More is to come. -/

/-- A recording plays, and its end is not reached. -/
structure Feeding (n : Nat) (s : Simulation) : Prop where
  plays : s.Plays n
  steady : s.Steady
  patient : s.Patient n
  fed : s.Fed n

theorem Feeding.goes (h : s.Feeding n) : s.linkIsOver = false :=
  h.patient.goes h.steady h.plays.current h.fed.not_shut

/-- A step that does not end the link. -/
theorem Feeding.step (h : s.Feeding n) {a : Action} (hshutdown : a ≠ .shutdown)
    (hdrop : a ≠ .drop) (hread : ∀ kind, a ≠ .fail n .read kind) (hplays : (s.step a).1.Plays n)
    (hfed : (s.step a).1.Fed n) : (s.step a).1.Feeding n := by
  obtain ⟨es, hmoves, htold⟩ := step_moves h.steady.tidy a
  refine ⟨hplays, hmoves.steady h.steady, hmoves.patient h.steady ?_ h.patient, hfed⟩
  change Told (s.answers [a]) es at htold
  refine Told.spares htold ?_ ?_ ?_
  · simpa using hshutdown.symm
  · simpa using hdrop.symm
  · intro kind hmem
    exact absurd (List.mem_singleton.mp hmem).symm (hread kind)

theorem Feeding.advance (h : s.Feeding n) (ms : Nat) : (s.step (.advance ms)).1.Feeding n := by
  obtain ⟨hplays, hlinks⟩ := h.plays.elapse_up h.goes h.steady.tidy.sound ms
  refine h.step nofun nofun nofun hplays ?_
  show (s.elapse ms).Fed n
  unfold Fed
  rw [hlinks]
  exact h.fed

theorem linkUp_fed (h : s.Fed n) (link : Nat) : (s.linkUp link).Fed n := by
  have happart := (Apart.refl s).publish .active
  have hopening : (s.opening link).Fed n := by
    unfold Fed
    rw [show (s.opening link).links = s.links from happart.links]
    exact h
  exact settle_fed hopening

/-- A change of the link that feeds it on. -/
theorem Fed.onLink (h : s.Fed n) {f : Link → Link} (hf : ∀ l : Link, l.Feeds → (f l).Feeds) :
    (s.onLink n f).Fed n := by
  obtain ⟨link, hlink, hfeeds⟩ := h
  refine settle_fed ⟨f link, ?_, hf link hfeeds⟩
  show (s.links.modify n f)[n]? = _
  rw [Array.getElem?_modify, if_pos rfl, hlink]
  rfl

/-- Without bytes there is nothing to do. -/
theorem Fed.writeNothing (h : s.Fed n) (tries count : Nat) :
    receiverWrite n (tries + 1) count [] s = (s, .written count false) := by
  obtain ⟨link, hlink, hfeeds⟩ := h
  unfold receiverWrite
  rw [hlink]
  dsimp only
  rw [hfeeds.receiver]
  rfl

/-- All bytes fit, so they are put on the link at once. -/
theorem Fed.writeAll (h : s.Fed n) (hheld : ¬ s.LetGo n) {bytes : List UInt8} (hsome : bytes ≠ [])
    (tries : Nat) :
    ∃ s', receiverWrite n (tries + 2) 0 bytes s = (s', .written bytes.length false) ∧ s'.Fed n := by
  obtain ⟨link, hlink, hfeeds⟩ := id h
  have hopen : link.inbound.readerOpen = true := by
    by_contra hgone
    exact hheld ⟨link, hlink, eq_false_of_ne_true hgone⟩
  have hsound : link.inbound.isBroken = false := by
    unfold Pipe.isBroken
    rw [hopen, hfeeds.writer]
    rfl
  have hroom : link.inbound.isFull = false := by
    unfold Pipe.isFull
    rw [hfeeds.wide]
  have hfits : link.inbound.fitting bytes = bytes := by
    unfold Pipe.fitting
    rw [hfeeds.wide]
  let fed : Simulation := s.onLink n fun l => { l with inbound := l.inbound.put bytes }
  have hfed : fed.Fed n := h.onLink fun l hl => ⟨hl.receiver, hl.writer, hl.wide⟩
  refine ⟨fed, ?_, hfed⟩
  unfold receiverWrite
  rw [hlink]
  dsimp only
  rw [hfeeds.receiver, if_neg hsome, hsound, hroom, hfits, List.drop_length, Nat.zero_add]
  exact hfed.writeNothing tries bytes.length

/-- **More comes**, all of it. -/
theorem Feeding.write (h : s.Feeding n) (bytes : List UInt8) :
    (s.step (.receiverWrite n bytes)).2 = .written bytes.length false
      ∧ (s.step (.receiverWrite n bytes)).1.Feeding n := by
  have hfed : (s.step (.receiverWrite n bytes)).2 = .written bytes.length false
      ∧ (s.step (.receiverWrite n bytes)).1.Fed n := by
    show (receiverWrite n (bytes.length + 1) 0 bytes s).2 = _
      ∧ (receiverWrite n (bytes.length + 1) 0 bytes s).1.Fed n
    cases bytes with
    | nil =>
      rw [h.fed.writeNothing]
      exact ⟨rfl, h.fed⟩
    | cons byte rest =>
      have hheld : ¬ s.LetGo n := fun hgone => h.fed.not_shut (h.patient.shut_of_letGo hgone)
      obtain ⟨s', hwritten, hfed⟩ := h.fed.writeAll hheld (List.cons_ne_nil byte rest) rest.length
      rw [List.length_cons, hwritten]
      exact ⟨rfl, hfed⟩
  refine ⟨hfed.1, h.step nofun nofun nofun ?_ hfed.2⟩
  have hinstant : Instant s (s.step (.receiverWrite n bytes)).1 := step_instant s rfl
  exact h.plays.beside (.receiverWrite n _ 0 bytes s) hinstant.clock

/-- A recording plays, and its end is reached: the next look will find it. -/
structure Complete (n : Nat) (s : Simulation) : Prop where
  plays : s.Plays n
  steady : s.Steady
  shut : s.Shut n

/-- **Its end is reached.** -/
theorem Feeding.finish (h : s.Feeding n) : (s.step (.receiverShutdown n)).1.Complete n := by
  have hinstant : Instant s (s.step (.receiverShutdown n)).1 := step_instant s rfl
  obtain ⟨es, hmoves, -⟩ := step_moves h.steady.tidy (.receiverShutdown n)
  refine ⟨h.plays.beside (.receiverDoes s n fun _ => rfl) hinstant.clock,
    hmoves.steady h.steady, ?_⟩
  obtain ⟨link, hlink, hfeeds⟩ := h.fed
  have hstep : (s.step (.receiverShutdown n)).1
      = s.onLink n fun l => { l with inbound := l.inbound.closeWriter } := by
    show (s.receiverDoes n _).1 = _
    unfold receiverDoes
    rw [hlink]
    dsimp only
    rw [if_pos hfeeds.receiver]
  rw [hstep]
  refine settle_shut ⟨{ link with inbound := link.inbound.closeWriter }, ?_, rfl⟩
  show (s.links.modify n _)[n]? = _
  rw [Array.getElem?_modify, if_pos rfl, hlink]
  rfl

/-- A command is queued, and the transfer does what it can. -/
theorem Plays.send (h : s.Plays n) {command : List UInt8} (hsome : command ≠ []) :
    s.send command = ((s.step (.send command)).1, .ok ())
      ∧ (s.step (.send command)).1 = (s.enqueue (.command command)).settle
      ∧ (s.step (.send command)).1.Plays n := by
  have hsend : s.send command = ((s.enqueue (.command command)).settle, .ok ()) := by
    unfold Simulation.send
    rw [if_neg hsome, h.active]
    dsimp only
    rw [isForsaken_of_alive h.alive, if_neg Bool.false_ne_true]
  have hstep : (s.step (.send command)).1 = (s.send command).1 :=
    congrArg Prod.fst (call_of_kept h.kept (Simulation.send · command))
  have hdone : (s.send command).2 = .ok () := congrArg Prod.snd hsend
  refine ⟨Prod.ext hstep.symm hdone, hstep.trans (congrArg Prod.fst hsend), ?_⟩
  rw [hstep]
  exact h.beside (.send s command) (send_instant s command).clock

/-- **Commands are accepted**, before the end of a recording and after it. -/
theorem Feeding.send (h : s.Feeding n) {command : List UInt8} (hsome : command ≠ []) :
    s.send command = ((s.step (.send command)).1, .ok ())
      ∧ (s.step (.send command)).1.Feeding n := by
  obtain ⟨hsend, hstep, hplays⟩ := h.plays.send hsome
  refine ⟨hsend, h.step nofun nofun nofun hplays ?_⟩
  rw [hstep]
  exact settle_fed h.fed

theorem Complete.send (h : s.Complete n) {command : List UInt8} (hsome : command ≠ []) :
    s.send command = ((s.step (.send command)).1, .ok ())
      ∧ (s.step (.send command)).1.Complete n := by
  obtain ⟨hsend, hstep, hplays⟩ := h.plays.send hsome
  obtain ⟨es, hmoves, -⟩ := step_moves h.steady.tidy (.send command)
  refine ⟨hsend, hplays, hmoves.steady h.steady, ?_⟩
  rw [hstep]
  exact settle_shut h.shut

/-- **The first look finds the recording at its end.** -/
theorem Complete.elapse (h : s.Complete n) :
    (s.elapse s.config.watchdog).happenings = s.happenings
      ++ [.replayFinished s.endpoint.text, .stateChanged .active .drained] :=
  h.plays.elapse_over (h.steady.over_of_shut h.plays.current h.shut) h.steady.tidy.sound

/-! ## §5. What has been handed over. -/

variable {pace : Pace} {config : SupervisorConfig} {endpoint : Endpoint} {links : List Link}

/-- No read on an untouched link fails. -/
theorem equipped_patient (h : Untouched links) :
    (equipped pace config endpoint links).Patient n := by
  refine ⟨?_, fun _ ht => (nomatch ht), fun hgone => absurd hgone h.holds⟩
  intro link hlink kind hkind
  rw [(h.of_getElem? hlink).2] at hkind
  cases hkind

/-- **The call to connect** brings up the recording, of which all is still to come. -/
theorem equipped_feeding (hreplay : (config.settings.isReplay || endpoint.kind == .replay) = true)
    (hunasked : (config.keepalive && endpoint.kind.needsKeepalive) = false)
    (interval : 0 < config.watchdog) :
    (equipped pace config endpoint [.unread]).connect
        = (((equipped pace config endpoint [.unread]).step .connect).1, .ok ())
      ∧ ((equipped pace config endpoint [.unread]).step .connect).1.Feeding 0 := by
  let idle : Simulation := equipped pace config endpoint [.unread]
  have huntouched : Untouched [.unread] := by
    intro link hlink
    rw [List.mem_singleton.mp hlink]
    exact ⟨rfl, rfl⟩
  have hconnect : idle.connect = ((idle.note .attempt).connected 0, .ok ()) :=
    connect_of_ok rfl rfl
  have hstep : (idle.step .connect).1 = idle.connect.1 :=
    congrArg Prod.fst (call_of_kept rfl Simulation.connect)
  have hplays : ((idle.note .attempt).connected 0).Plays 0 :=
    linkUp_plays hreplay hunasked rfl interval
  have hfed : ((idle.note .attempt).connected 0).Fed 0 :=
    linkUp_fed ⟨.unread, rfl, rfl, rfl, rfl⟩ 0
  have hsteady : idle.Steady := equipped_steady huntouched
  obtain ⟨es, hmoves, htold⟩ := step_moves hsteady.tidy .connect
  change Told (idle.answers [.connect]) es at htold
  have hspares : ∀ x ∈ es, x.Spares 0 := Told.spares htold (by decide) (by decide) (by simp)
  refine ⟨Prod.ext hstep.symm (congrArg Prod.snd hconnect), ?_, hmoves.steady hsteady,
    hmoves.patient hsteady hspares (equipped_patient huntouched), ?_⟩
  · rw [hstep, hconnect]
    exact hplays
  · rw [hstep, hconnect]
    exact hfed

/-- **All telegrams of a recording have been handed over** once its end is reached. -/
theorem played_whole (hreplay : (config.settings.isReplay || endpoint.kind == .replay) = true)
    (huntouched : Untouched links) {actions : List Action} (hshutdown : .shutdown ∉ actions)
    (hdrop : .drop ∉ actions) (hstays : .dropConsumer ∉ actions)
    (hread : ∀ kind, .fail n .read kind ∈ actions → kind = .interrupted)
    (hcurrent : ((equipped pace config endpoint links).run actions).current? = some n)
    (hshut : ((equipped pace config endpoint links).run actions).Shut n) :
    ∃ ts : List Telegram,
      ((equipped pace config endpoint links).run actions).handed = ts.map .received
        ∧ ts.map Telegram.frame
          = framesOf config.maxBlock ((equipped pace config endpoint links).waiting n
            ++ ((equipped pace config endpoint links).answers actions).flatMap (putBy n)) := by
  obtain ⟨t, ht, rfl⟩ := Option.map_eq_some_iff.mp hcurrent
  have hstart : Waiting true (equipped pace config endpoint links) :=
    hreplay ▸ equipped_live huntouched
  obtain ⟨es, hmoves, htold⟩ := run_moves hstart.living.steady.tidy actions
  have hsteady := hmoves.steady hstart.living.steady
  have hsole := (run_playing hstart equipped_playing actions).sole hcurrent
  -- nothing ended the link but the recording itself
  have hspares := Told.spares htold hshutdown hdrop hread
  have hspent := (hmoves.patient hstart.living.steady hspares
    (equipped_patient huntouched)).ended t ht rfl (hsteady.ended_of_shut ht hshut)
  obtain ⟨leaving, ts, hleaves, hhanded, hframes⟩ :=
    run_complete huntouched actions hsole.past (hsole.alone hcurrent) hspent
  rw [hleaves.eq_none hstays] at hhanded
  exact ⟨ts, hhanded, hframes⟩

/-- What is played is not drained yet. -/
theorem played_undrained (huntouched : Untouched links) {actions : List Action}
    (hcurrent : ((equipped pace config endpoint links).run actions).current? = some n)
    (old : Lifecycle) :
    .stateChanged old .drained
      ∉ ((equipped pace config endpoint links).run actions).happenings := by
  intro hmem
  obtain ⟨earlier, later, hsplit⟩ := List.append_of_mem hmem
  have hfinished :=
    run_ends (equipped_live huntouched) equipped_ends actions earlier old later hsplit
  rw [current_eq_none_iff.mpr hfinished.ended.free] at hcurrent
  cases hcurrent

end Simulation

end ReceiverLink
