/-
  ReceiverLink.Proofs.Supervisor.Timeline
  ────────────────────────────────
  **What is seen of a supervisor over time.**

  The record of a supervisor tells what it did, and when.  Two things it does
  not tell: that the watchdog has looked at a link that is up, and what an
  attempt will come to.  A timeline is the record with both of them put in.
  All that a supervisor does between two moments takes no time (`Instant`), so
  a timeline is put together from what each call and each waking of the
  watchdog adds to the record.

  Main statements:
    * `wake_instant`, `step_instant` — only `connect` and `advance` take time;
    * `told_timeline` — without what it adds, a timeline is the record.
-/
import ReceiverLink.Proofs.Supervisor.Lifecycle

namespace ReceiverLink

/-! ## §1. Marks. -/

instance : DecidableEq Attempt
  | ⟨.ok link, delay⟩, ⟨.ok link', delay'⟩ =>
      decidable_of_iff (link = link' ∧ delay = delay') (by simp)
  | ⟨.error kind, delay⟩, ⟨.error kind', delay'⟩ =>
      decidable_of_iff (kind = kind' ∧ delay = delay') (by simp)
  | ⟨.ok _, _⟩, ⟨.error _, _⟩ => isFalse nofun
  | ⟨.error _, _⟩, ⟨.ok _, _⟩ => isFalse nofun

/-- What a timeline tells. -/
inductive Mark where
  /-- The watchdog looks at the link, which is over or not. -/
  | look (lost : Bool)
  /-- An attempt begins, and will go like this. -/
  | attempt (a : Attempt)
  /-- Anything else that is recorded. -/
  | told (h : Happening)
  deriving DecidableEq

namespace Mark

/-- What is recorded of it. -/
def happening? : Mark → Option Happening
  | .look _ => none
  | .attempt _ => some .attempt
  | .told h => some h

/-- It tells of the life of the supervisor. -/
def isVital : Mark → Bool
  | .look _ => true
  | .attempt _ => true
  | .told h => h.isVital

end Mark

/-- The attempt that is made when none is planned. -/
def Attempt.unplanned : Attempt :=
  ⟨.error .connectionRefused, 0⟩

/-- The marks of what is recorded: the attempts are those of a plan, in
order. -/
def marks : List Attempt → List (Nat × Happening) → List (Nat × Mark)
  | _, [] => []
  | plan, (t, .attempt) :: later => (t, .attempt (plan.headD .unplanned)) :: marks plan.tail later
  | plan, (t, h) :: later => (t, .told h) :: marks plan later

theorem marks_cons_of_ne (plan : List Attempt) (t : Nat) {h : Happening} (hne : h ≠ .attempt)
    (later : List (Nat × Happening)) :
    marks plan ((t, h) :: later) = (t, .told h) :: marks plan later := by
  cases h <;> first | rfl | exact absurd rfl hne

/-- Marks of things recorded, as they are recorded. -/
def told (xs : List (Nat × Mark)) : List (Nat × Happening) :=
  xs.filterMap fun x => x.2.happening?.map (x.1, ·)

theorem told_append (xs ys : List (Nat × Mark)) : told (xs ++ ys) = told xs ++ told ys :=
  List.filterMap_append

theorem told_marks (plan : List Attempt) (es : List (Nat × Happening)) :
    told (marks plan es) = es := by
  induction es generalizing plan with
  | nil => rfl
  | cons x later ih =>
    obtain ⟨t, h⟩ := x
    cases h
    case attempt => exact congrArg ((t, Happening.attempt) :: ·) (ih plan.tail)
    all_goals exact congrArg ((t, _) :: ·) (ih plan)

/-- Those that tell of the life of a supervisor. -/
def vitalMarks (xs : List (Nat × Mark)) : List (Nat × Mark) :=
  xs.filter (·.2.isVital)

theorem vitalMarks_append (xs ys : List (Nat × Mark)) :
    vitalMarks (xs ++ ys) = vitalMarks xs ++ vitalMarks ys :=
  List.filter_append ..

/-- Attempts tell of it, so that none of the plan is left out. -/
theorem vitalMarks_marks (plan : List Attempt) (es : List (Nat × Happening)) :
    vitalMarks (marks plan es) = marks plan (es.filter (·.2.isVital)) := by
  induction es generalizing plan with
  | nil => rfl
  | cons x later ih =>
    obtain ⟨t, h⟩ := x
    -- only an attempt takes something from the plan, and it is never left out
    by_cases hattempt : h = .attempt
    · subst hattempt
      exact congrArg (_ :: ·) (ih plan.tail)
    · rw [marks_cons_of_ne plan t hattempt]
      by_cases hvital : h.isVital = true
      · rw [List.filter_cons_of_pos (a := (t, h)) hvital, marks_cons_of_ne plan t hattempt,
          ← ih plan]
        exact List.filter_cons_of_pos (a := (t, Mark.told h)) hvital
      · rw [List.filter_cons_of_neg (a := (t, h)) hvital, ← ih plan]
        exact List.filter_cons_of_neg (a := (t, Mark.told h)) hvital

/-- Steps that can take time. -/
def Action.takesTime : Action → Bool
  | .connect => true
  | .advance _ => true
  | _ => false

namespace Simulation

variable {s s' s'' : Simulation}

/-! ## §2. What takes no time. -/

/-- All that was done was done at one moment. -/
structure Instant (s s' : Simulation) : Prop where
  clock : s'.clock = s.clock
  record : ∃ hs : List Happening,
    s'.record.toList = s.record.toList ++ hs.map fun h => (s.clock, h)

namespace Instant

/-- Nothing is recorded. -/
theorem silent (clock : s'.clock = s.clock) (record : s'.record = s.record) : Instant s s' := by
  refine ⟨clock, [], ?_⟩
  rw [record]
  exact (List.append_nil _).symm

theorem refl (s : Simulation) : Instant s s :=
  .silent rfl rfl

theorem trans (h : Instant s s') (h' : Instant s' s'') : Instant s s'' := by
  obtain ⟨hs, hrecord⟩ := h.record
  obtain ⟨hs', hrecord'⟩ := h'.record
  refine ⟨h'.clock.trans h.clock, hs ++ hs', ?_⟩
  rw [hrecord', hrecord, h.clock, List.map_append, List.append_assoc]

theorem note (h : Instant s s') (x : Happening) : Instant s (s'.note x) :=
  h.trans ⟨rfl, [x], Array.toList_push⟩

theorem publish (h : Instant s s') (new : Lifecycle) : Instant s (s'.publish new) := by
  unfold Simulation.publish
  split
  next => exact h
  next =>
    have hnew : Instant s { s' with lifecycle := new } := h.trans (.silent rfl rfl)
    exact hnew.note _

theorem settle (h : Instant s s') : Instant s s'.settle := by
  apply h.trans
  -- the happenings of a transfer are put down with the time at which it settles
  refine settle_rule (refl s') ?_
  intro t link w _ _ _
  refine ⟨rfl, w.record.toList, ?_⟩
  show (s'.record ++ w.record.map _).toList = _
  rw [Array.toList_append, Array.toList_map]

theorem enqueue (h : Instant s s') (item : Outbound) : Instant s (s'.enqueue item) := by
  have hqueued : Instant s { s' with queue := s'.queue ++ [item] } := h.trans (.silent rfl rfl)
  exact hqueued.note _

theorem dismiss (h : Instant s s') : Instant s s'.dismiss :=
  h.trans (.silent rfl rfl)

theorem linkUp (h : Instant s s') (link : Nat) : Instant s (s'.linkUp link) := by
  have hopening : Instant s (s'.opening link) := (h.publish .active).trans (.silent rfl rfl)
  exact hopening.settle

theorem reconnected (h : Instant s s') (link : Nat) : Instant s (s'.reconnected link) :=
  (h.note _).linkUp link

theorem reconnectFailed (h : Instant s s') (number : Nat) (kind : IoKind) (pause : Nat) :
    Instant s (s'.reconnectFailed number kind pause) :=
  (h.note _).trans (.silent rfl rfl)

/-- However many attempts fail at once, they fail at one moment. -/
theorem reconnect (h : Instant s s') (number : Nat) (plan : List Attempt) :
    Instant s (s'.reconnect number plan) := by
  -- an attempt that fails at once, and no pause, is followed by the next one
  induction plan generalizing s' number with
  | nil =>
    have hbegun : Instant s { s' with plan := [] } := h.trans (.silent rfl rfl)
    exact (hbegun.note .attempt).reconnectFailed number .connectionRefused _
  | cons a plan ih =>
    have hplan : Instant s { s' with plan := plan } := h.trans (.silent rfl rfl)
    have hbegun := hplan.note .attempt
    unfold Simulation.reconnect
    dsimp only
    split
    next => exact hbegun.trans (.silent rfl rfl)
    next =>
      split
      next link _ => exact hbegun.reconnected link
      next kind _ =>
        have hfailed := hbegun.reconnectFailed number kind s'.config.reconnect
        split
        next => exact ih hfailed (number + 1)
        next => exact hfailed

theorem inspect (h : Instant s s') : Instant s s'.inspect := by
  unfold Simulation.inspect
  dsimp only
  split
  next =>
    have hfree : Instant s { s' with transfer := none } := h.trans (.silent rfl rfl)
    split
    next => exact ((hfree.note _).publish .drained).dismiss
    next => exact ((hfree.note _).publish .reconnecting).reconnect 1 _
  next =>
    have hkept : Instant s { s' with watch := .looking (s'.clock + s'.config.watchdog) } :=
      h.trans (.silent rfl rfl)
    split
    next => exact ((hkept.enqueue .keepalive).note .ping).settle
    next => exact hkept

theorem look (h : Instant s s') : Instant s s'.look := by
  unfold Simulation.look
  split
  next =>
    have hfree : Instant s { s' with transfer := none } := h.trans (.silent rfl rfl)
    exact ((hfree.note _).publish .stopped).dismiss
  next => exact h.inspect

/-- The link is to end. -/
theorem endLink (h : Instant s s') : Instant s s'.endLink := by
  have hending : Instant s s'.ending := h.trans (.silent rfl rfl)
  exact hending.settle

theorem stop (h : Instant s s') : Instant s s'.stop :=
  (h.publish .stopped).note _

end Instant

/-- **The watchdog acts in no time.** -/
theorem wake_instant (s : Simulation) : Instant s s.wake := by
  unfold wake
  split
  next => exact .refl s
  next => exact (Instant.refl s).look
  next => exact (Instant.refl s).reconnected _
  next =>
    have hfailed := fun number kind =>
      (Instant.refl s).reconnectFailed number kind s.config.reconnect
    dsimp only
    split
    next => exact (hfailed _ _).reconnect _ _
    next => exact hfailed _ _
  next => exact (Instant.refl s).reconnect _ _
  next => exact .refl s

theorem cancel_instant (s : Simulation) : Instant s s.cancel :=
  (Instant.refl s).endLink.dismiss

theorem shutdown_instant (s : Simulation) : Instant s s.shutdown := by
  unfold shutdown
  split
  next => exact ((Instant.refl s).dismiss.note _).stop.endLink
  next => exact (cancel_instant s).stop

theorem onLink_instant (s : Simulation) (number : Nat) (f : Link → Link) :
    Instant s (s.onLink number f) := by
  have hchanged : Instant s { s with links := s.links.modify number f } := .silent rfl rfl
  exact hchanged.settle

theorem receiverWrite_instant (number n count : Nat) (bytes : List UInt8) (s : Simulation) :
    Instant s (receiverWrite number n count bytes s).1 := by
  induction n generalizing s count bytes with
  | zero => exact .refl s
  | succ n ih =>
    unfold receiverWrite
    split
    next => exact .refl s
    next =>
      repeat' split
      · exact .refl s
      · exact .refl s
      · exact .refl s
      · exact .refl s
      · exact (onLink_instant s number _).trans (ih _ _ _)

theorem receiverRead_instant (number n : Nat) (before : List UInt8) (s : Simulation) :
    Instant s (receiverRead number n before s).1 := by
  induction n generalizing s before with
  | zero => exact .refl s
  | succ n ih =>
    unfold receiverRead
    split
    next => exact .refl s
    next =>
      repeat' split
      · exact .refl s
      · exact .refl s
      · exact (onLink_instant s number _).trans (ih _ _)

theorem receiverDoes_instant (s : Simulation) (number : Nat) (f : Link → Link) :
    Instant s (s.receiverDoes number f).1 := by
  unfold receiverDoes
  repeat' split
  · exact onLink_instant s number f
  · exact .refl s
  · exact .refl s

theorem send_instant (s : Simulation) (command : List UInt8) : Instant s (s.send command).1 := by
  unfold send
  repeat' split
  · exact (Instant.refl s).note _
  · exact .refl s
  · exact .refl s
  · exact .refl s
  · exact ((Instant.refl s).enqueue _).settle

theorem setPort_instant (s : Simulation) (text : String) : Instant s (s.setPort text).1 := by
  have hchanged : ∀ endpoint, Instant s { s with endpoint := endpoint } := fun _ => .silent rfl rfl
  unfold setPort
  repeat' split
  · exact .refl s
  · exact (hchanged _).note _
  · exact .refl s

theorem call_instant {f : Simulation → Simulation × Except SupervisorError Unit}
    (h : Instant s (f s).1) : Instant s (s.call f).1 := by
  unfold call
  split
  next => exact .refl s
  next => exact h

/-- **Only connecting and the passing of time take time.** -/
theorem step_instant (s : Simulation) {a : Action} (h : a.takesTime = false) :
    Instant s (s.step a).1 := by
  cases a with
  | accept | refuse | dropConsumer => exact .silent rfl rfl
  | connect => cases h
  | advance => cases h
  | send command => exact call_instant (send_instant s command)
  | setPort text => exact call_instant (setPort_instant s text)
  | shutdown => exact call_instant (shutdown_instant s)
  | drop => exact call_instant ((cancel_instant s).trans (.silent rfl rfl))
  | fail number operation kind => exact onLink_instant s number _
  | receiverWrite number bytes => exact receiverWrite_instant _ _ _ _ s
  | receiverRead number => exact receiverRead_instant _ _ _ s
  | receiverShutdown number => exact receiverDoes_instant s number _
  | receiverClose number => exact receiverDoes_instant s number _

/-! ## §3. What is added to the record. -/

/-- The record goes on. -/
def Grows (s s' : Simulation) : Prop :=
  s.record.toList <+: s'.record.toList

/-- What has been recorded in between. -/
def since (s s' : Simulation) : List (Nat × Happening) :=
  s'.record.toList.drop s.record.size

theorem since_of_append {es : List (Nat × Happening)}
    (h : s'.record.toList = s.record.toList ++ es) : s.since s' = es := by
  unfold since
  rw [h, ← Array.length_toList, List.drop_left]

theorem Grows.eq_append (h : Grows s s') : s'.record.toList = s.record.toList ++ s.since s' := by
  obtain ⟨es, hes⟩ := h
  rw [since_of_append hes.symm]
  exact hes.symm

theorem Grows.since_trans (h : Grows s s') (h' : Grows s' s'') :
    s.since s'' = s.since s' ++ s'.since s'' := by
  apply since_of_append
  rw [h'.eq_append, h.eq_append, List.append_assoc]

theorem Instant.grows (h : Instant s s') : Grows s s' := by
  obtain ⟨hs, hrecord⟩ := h.record
  exact ⟨_, hrecord.symm⟩

/-- What is recorded of one kind in a moment. -/
theorem Instant.since_filter (h : Instant s s') {p : Happening → Bool} {hs : List Happening}
    (hmore : s'.happenings.filter p = s.happenings.filter p ++ hs) :
    (s.since s').filter (fun x => p x.2) = hs.map fun x => (s.clock, x) := by
  obtain ⟨es, hrecord⟩ := h.record
  have hhappenings : s'.happenings = s.happenings ++ es := by
    unfold happenings
    rw [hrecord, List.map_append, List.map_map]
    exact congrArg (_ ++ ·) (List.map_id es)
  -- what is seen of the kind tells which of the happenings they are
  have hsame : es.filter p = hs := by
    rw [hhappenings, List.filter_append] at hmore
    exact List.append_cancel_left hmore
  rw [since_of_append hrecord, ← hsame, List.filter_map]
  rfl

/-- What tells of the life in a moment. -/
theorem Instant.since_vital (h : Instant s s') {vs : List Happening}
    (hvitals : s'.vitals = s.vitals ++ vs) :
    (s.since s').filter (·.2.isVital) = vs.map fun v => (s.clock, v) :=
  h.since_filter hvitals

/-- The caller has made an attempt, and is waiting no more. -/
def tried (s : Simulation) : Simulation :=
  { s.note .attempt with plan := s.nextAttempt.2, clock := s.clock + s.nextAttempt.1.delay }

theorem tried_grows (s : Simulation) : Grows s s.tried :=
  ((Instant.refl s).note .attempt).grows

/-- A call to connect records the attempt when it begins, and the rest when it
is over. -/
theorem connect_instant (fresh : s.lifecycle = .disconnected) : Instant s.tried s.connect.1 := by
  cases houtcome : s.nextAttempt.1.outcome with
  | error kind =>
    rw [connect_of_error fresh houtcome]
    exact (Instant.refl s.tried).note _
  | ok link =>
    rw [connect_of_ok fresh houtcome]
    let brought : Simulation := { s.tried.note (.connected s.endpoint.text s.endpoint.kind) with
      handedOver := true }
    have hbrought : Instant s.tried brought :=
      ((Instant.refl s.tried).note _).trans (.silent rfl rfl)
    exact hbrought.linkUp link

theorem connect_since (fresh : s.lifecycle = .disconnected) :
    s.since s.connect.1 = (s.clock, .attempt) :: s.tried.since s.connect.1 := by
  have hbegun : s.since s.tried = [(s.clock, .attempt)] := since_of_append Array.toList_push
  rw [s.tried_grows.since_trans (connect_instant fresh).grows, hbegun]
  rfl

theorem connect_grows (s : Simulation) : Grows s s.connect.1 := by
  by_cases fresh : s.lifecycle = .disconnected
  · exact s.tried_grows.trans (connect_instant fresh).grows
  · rw [connect_of_begun fresh]
    exact List.prefix_rfl

theorem runUntil_grows (moment n : Nat) (s : Simulation) : Grows s (runUntil moment n s) := by
  induction n generalizing s with
  | zero => exact List.prefix_rfl
  | succ n ih =>
    unfold runUntil
    repeat' split
    · exact List.prefix_rfl
    · exact (wake_instant { s with clock := max s.clock _ }).grows.trans (ih _)
    · exact List.prefix_rfl

theorem step_grows (s : Simulation) (a : Action) : Grows s (s.step a).1 := by
  cases a with
  | connect =>
    show Grows s (s.call connect).1
    unfold call
    split
    next => exact List.prefix_rfl
    next => exact connect_grows s
  | advance ms => exact runUntil_grows _ ms s
  | _ => exact (step_instant s rfl).grows

/-! ## §4. Timelines. -/

/-- The watchdog is about to look at the link. -/
def looks (s : Simulation) : List (Nat × Mark) :=
  match s.watch with
  | .looking _ => [(s.clock, .look s.linkIsOver)]
  | _ => []

/-- What is seen when the watchdog acts. -/
def wakeMarks (s : Simulation) : List (Nat × Mark) :=
  s.looks ++ marks s.plan (s.since s.wake)

/-- What is seen while time passes until the given moment; at most `n` times the
watchdog has something to do. -/
def marksUntil (moment : Nat) : Nat → Simulation → List (Nat × Mark)
  | 0, _ => []
  | n + 1, s =>
      match s.deadline? with
      | none => []
      | some t =>
          if t ≤ moment then
            let s := { s with clock := max s.clock t }
            s.wakeMarks ++ marksUntil moment n s.wake
          else []

/-- What is seen in a step. -/
def stepMarks (s : Simulation) : Action → List (Nat × Mark)
  | .advance ms => marksUntil (s.clock + ms) ms s
  | a => marks s.plan (s.since (s.step a).1)

/-- What is seen while steps are done. -/
def timeline (s : Simulation) : List Action → List (Nat × Mark)
  | [] => []
  | a :: later => s.stepMarks a ++ (s.step a).1.timeline later

theorem looks_of_looking {moment : Nat} (h : s.watch = .looking moment) :
    s.looks = [(s.clock, .look s.linkIsOver)] := by
  unfold looks
  rw [h]

theorem looks_of_trying (h : s.watch.isTrying = true) : s.looks = [] := by
  unfold looks
  split
  next hwatch =>
    rw [hwatch] at h
    cases h
  next => rfl

theorem told_looks (s : Simulation) : told s.looks = [] := by
  unfold looks
  split
  next => rfl
  next => rfl

theorem told_wakeMarks (s : Simulation) : told s.wakeMarks = s.since s.wake := by
  unfold wakeMarks
  rw [told_append, told_looks, told_marks]
  rfl

theorem told_marksUntil (moment n : Nat) (s : Simulation) :
    told (marksUntil moment n s) = s.since (runUntil moment n s) := by
  have hnone : ∀ {s s' : Simulation}, s'.record = s.record → s.since s' = [] := by
    intro s s' hrecord
    apply since_of_append
    rw [hrecord, List.append_nil]
  induction n generalizing s with
  | zero => exact (hnone rfl).symm
  | succ n ih =>
    unfold marksUntil runUntil
    cases hdeadline : s.deadline? with
    | none => exact (hnone rfl).symm
    | some t =>
      dsimp only
      split
      next =>
        rw [told_append, told_wakeMarks, ih]
        exact ((wake_instant { s with clock := max s.clock t }).grows.since_trans
          (runUntil_grows moment n _)).symm
      next => exact (hnone rfl).symm

theorem told_stepMarks (s : Simulation) (a : Action) :
    told (s.stepMarks a) = s.since (s.step a).1 := by
  cases a with
  | advance ms => exact told_marksUntil _ ms s
  | _ => exact told_marks _ _

theorem run_grows (s : Simulation) (actions : List Action) : Grows s (s.run actions) := by
  induction actions generalizing s with
  | nil => exact List.prefix_rfl
  | cons a later ih => exact (step_grows s a).trans (ih _)

/-- **Without what it adds, a timeline is the record.** -/
theorem told_timeline (s : Simulation) (actions : List Action) :
    told (s.timeline actions) = s.since (s.run actions) := by
  induction actions generalizing s with
  | nil =>
    symm
    apply since_of_append
    exact (List.append_nil _).symm
  | cons a later ih =>
    unfold timeline
    rw [told_append, told_stepMarks, ih]
    exact ((step_grows s a).since_trans (run_grows _ later)).symm

theorem told_timeline_start (pace : Pace) (config : SupervisorConfig) (endpoint : Endpoint)
    (actions : List Action) :
    told ((start pace config endpoint).timeline actions)
      = ((start pace config endpoint).run actions).record.toList :=
  told_timeline _ actions

end Simulation

end ReceiverLink
