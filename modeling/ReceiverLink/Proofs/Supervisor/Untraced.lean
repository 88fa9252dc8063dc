/-
  ReceiverLink.Proofs.Supervisor.Untraced
  ────────────────────────────────
  **A failed connect leaves no trace.**

  Until a call to connect succeeds a supervisor is `Fresh`: nothing of it runs.
  Calls, what the receiver does at links that are planned, and the passing of
  time leave it so (`Waits`), and whatever else is planned before makes no
  difference to them (`step_ahead`).  A call to connect that fails takes the
  attempt that it was planned with, the time that this took, and an entry in
  the record; so a run with such calls goes on as one in which neither they nor
  their attempts were there, so much later (`Follows`).

  Main statements:
    * `Follows.course` — what follows another simulation goes on as that does;
    * `run_kept` — a run without the calls that failed;
    * `run_withoutRefusals` — a run without the attempts that they took;
    * `failed_connect_untraced` — both, and what holds until a call succeeds.
-/
import ReceiverLink.Proofs.Supervisor.Account
import ReceiverLink.Proofs.Supervisor.Circumstances
import ReceiverLink.Proofs.Supervisor.Timeline

namespace ReceiverLink

/-! ## §1. What is done before a link is up. -/

/-- Steps that neither connect nor end anything. -/
def Action.isPreparing : Action → Bool
  | .connect => false
  | .shutdown => false
  | .drop => false
  | _ => true

/-- A step plans an attempt. -/
def Action.plans : Action → Bool
  | .accept _ _ => true
  | .refuse _ _ => true
  | _ => false

/-- The text of a call to change the port. -/
def Action.port? : Action → Option String
  | .setPort text => some text
  | _ => none

/-- The endpoint after its port was changed by a text, which may be refused. -/
def Endpoint.moved (e : Endpoint) (text : String) : Endpoint :=
  match e.setPort text with
  | .ok e' => e'
  | .error _ => e

/-- The answer to a call to change the port, as far as the endpoint decides it. -/
def Endpoint.judges (e : Endpoint) (text : String) : Answer :=
  match e.setPort text with
  | .ok _ => .done
  | .error error => .refused (.transport error)

/-- A step, unless it is a call to connect or to change the port that was
refused. -/
def unrefused : Action × Answer → Option Action
  | (.connect, .refused _) => none
  | (.setPort _, .refused _) => none
  | (a, _) => some a

/-- The steps without the first so many attempts that are planned to fail. -/
def withoutRefusals : Nat → List Action → List Action
  | 0, actions => actions
  | _ + 1, [] => []
  | n + 1, .refuse _ _ :: rest => withoutRefusals n rest
  | n + 1, a :: rest => a :: withoutRefusals (n + 1) rest

namespace Simulation

variable {s s' s'' t : Simulation} {told told' : List (Action × Answer)} {delay : Nat}
  {q : List Attempt}

/-! ## §2. One simulation follows another. -/

/-- The first is the second, so much later and with a record of its own. -/
def Follows (delay : Nat) (s t : Simulation) : Prop :=
  s.unlogged = t.unlogged.under { delay := delay } #[]

/-- The same steps are answered alike, and lead to the same; what the second
records from now on, the first records so much later. -/
structure Course (delay : Nat) (s t : Simulation) (actions : List Action) : Prop where
  answers : s.answers actions = t.answers actions
  course : ∃ since, (t.run actions).record = t.record ++ since
    ∧ s.run actions = { (t.run actions).under { delay := delay } #[] with
      record := s.record ++ recordUnder { delay := delay } since }

/-- A step takes no account of the record. -/
theorem step_unlogged (s : Simulation) (a : Action) :
    (s.step a).1 = (s.unlogged.step a).1.under {} s.record
      ∧ (s.step a).2 = (s.unlogged.step a).2 := by
  have hstep : (s.unlogged.under {} s.record).step a = _ := s.unlogged.step_under a
  rw [unlogged_under] at hstep
  exact Prod.ext_iff.mp hstep

/-- Nor does a run. -/
theorem run_unlogged (s : Simulation) (actions : List Action) :
    s.run actions = { s.unlogged.run actions with
      record := s.record ++ (s.unlogged.run actions).record } := by
  have hrun : (s.unlogged.under {} s.record).run actions = _ := s.unlogged.run_under actions
  rwa [unlogged_under, under_same] at hrun

theorem answers_unlogged (s : Simulation) (actions : List Action) :
    s.answers actions = s.unlogged.answers actions := by
  have hanswers : (s.unlogged.under {} s.record).answers actions = _ :=
    s.unlogged.answers_under actions
  rwa [unlogged_under] at hanswers

namespace Follows

theorem refl (s : Simulation) : Follows 0 s s := by
  unfold Follows
  rw [show ({ delay := 0 } : Circumstances) = {} from rfl, under_same]
  rfl

/-- The same step is done by both, with the same answer. -/
theorem step (h : Follows delay s t) (a : Action) :
    Follows delay (s.step a).1 (t.step a).1 ∧ (s.step a).2 = (t.step a).2 := by
  obtain ⟨hs, hanswer⟩ := s.step_unlogged a
  obtain ⟨ht, hanswer'⟩ := t.step_unlogged a
  rw [h, step_under] at hs hanswer
  refine ⟨?_, hanswer.trans hanswer'.symm⟩
  unfold Follows
  rw [hs, ht, under_same, under_same]
  exact under_unlogged (t.unlogged.step a).1 #[]

/-- **What follows goes on alike.** -/
theorem course (h : Follows delay s t) (actions : List Action) : Course delay s t actions := by
  refine ⟨?_, (t.unlogged.run actions).record, ?_, ?_⟩
  · rw [answers_unlogged, answers_unlogged t, h, answers_under]
  · rw [run_unlogged]
  · have hrecord : ((t.unlogged.run actions).under { delay := delay } #[]).record
        = recordUnder { delay := delay } (t.unlogged.run actions).record := Array.empty_append
    rw [run_unlogged, run_unlogged t, h, run_under, hrecord]
    rfl

end Follows

/-! ## §3. More attempts planned before. -/

/-- The same with other attempts planned before. -/
def ahead (q : List Attempt) (s : Simulation) : Simulation :=
  { s with plan := q ++ s.plan }

/-- The transfer does not look at the plan. -/
theorem settle_ahead (s : Simulation) : (s.ahead q).settle = s.settle.ahead q := by
  cases htransfer : s.transfer with
  | none => rw [settle_of_none htransfer, settle_of_none (s := s.ahead q) htransfer]
  | some t =>
    cases hlink : s.links[t.number]? with
    | none =>
      rw [settle_of_missing htransfer hlink, settle_of_missing (s := s.ahead q) htransfer hlink]
    | some link =>
      rw [settle_of_there htransfer hlink, settle_of_there (s := s.ahead q) htransfer hlink]
      rfl

theorem hidden_ahead : Hidden (ahead q) :=
  ⟨fun _ => rfl, fun _ => rfl, fun _ => rfl,
    fun s number f => settle_ahead { s with links := s.links.modify number f }⟩

theorem setPort_ahead (s : Simulation) (text : String) :
    (s.ahead q).setPort text = ((s.setPort text).1.ahead q, (s.setPort text).2) := by
  unfold setPort
  rw [show (s.ahead q).handedOver = s.handedOver from rfl,
    show (s.ahead q).endpoint = s.endpoint from rfl]
  split
  next => rfl
  next => split <;> rfl

theorem send_ahead (s : Simulation) (command : List UInt8) :
    (s.ahead q).send command = ((s.send command).1.ahead q, (s.send command).2) := by
  unfold send
  rw [show (s.ahead q).lifecycle = s.lifecycle from rfl,
    show (s.ahead q).enqueue (.command command) = (s.enqueue (.command command)).ahead q from rfl,
    show (s.ahead q).isForsaken = s.isForsaken from rfl, settle_ahead]
  split
  next => rfl
  next =>
    split
    next => rfl
    next => rfl
    next => split <;> rfl

/-- Without a watchdog time passes, and nothing else. -/
theorem runUntil_of_off (hoff : s.watch = .off) (moment n : Nat) :
    runUntil moment n s = { s with clock := moment } := by
  cases n with
  | zero => rfl
  | succ n =>
    unfold runUntil
    rw [deadline?_of_off hoff]

theorem elapse_of_off (hoff : s.watch = .off) (ms : Nat) :
    s.elapse ms = { s with clock := s.clock + ms } :=
  runUntil_of_off hoff _ ms

/-- **Attempts planned before** make no difference until there is a call to connect. -/
theorem step_ahead (hoff : s.watch = .off) {a : Action} (ha : a.isPreparing = true) :
    (s.ahead q).step a = ((s.step a).1.ahead q, (s.step a).2) := by
  have hcall : ∀ {f : Simulation → Simulation × Except SupervisorError Unit},
      f (s.ahead q) = ((f s).1.ahead q, (f s).2) →
      (s.ahead q).call f = ((s.call f).1.ahead q, (s.call f).2) :=
    hidden_ahead.call
  cases a with
  | accept capacity delay =>
    refine congrArg (fun plan => (({ s with
      links := s.links.push (.new capacity), plan := plan } : Simulation), _)) ?_
    exact List.append_assoc ..
  | refuse kind delay =>
    refine congrArg (fun plan => (({ s with plan := plan } : Simulation), _)) ?_
    exact List.append_assoc ..
  | send command => exact hcall (f := (send · command)) (s.send_ahead command)
  | setPort text => exact hcall (f := (setPort · text)) (s.setPort_ahead text)
  | dropConsumer => rfl
  | advance ms =>
    show ((s.ahead q).elapse ms, Answer.done) = ((s.elapse ms).ahead q, Answer.done)
    rw [elapse_of_off hoff, elapse_of_off (s := s.ahead q) hoff]
    rfl
  | connect => cases ha
  | shutdown => cases ha
  | drop => cases ha
  | _ => exact hidden_ahead.step_outside s rfl

/-! ## §4. Until a call to connect succeeds. -/

/-- No call to connect has succeeded, and the caller still has the supervisor. -/
structure Fresh (s : Simulation) : Prop where
  lifecycle : s.lifecycle = .disconnected
  handedOver : s.handedOver = false
  released : s.released = false
  watch : s.watch = .off
  transfer : s.transfer = none

theorem start_fresh (pace : Pace) (config : SupervisorConfig) (endpoint : Endpoint) :
    Fresh (start pace config endpoint) :=
  ⟨rfl, rfl, rfl, rfl, rfl⟩

theorem Fresh.isOver (h : s.Fresh) : s.isOver = false := by
  unfold Simulation.isOver
  rw [h.released, h.lifecycle]
  rfl

theorem Fresh.isForsaken (h : s.Fresh) : s.isForsaken = false := by
  refine isForsaken_of_alive ?_
  rw [h.watch]
  rfl

/-- A call to connect that fails: what it takes of the plan, and of the time. -/
structure Fails (s s' : Simulation) (q : List Attempt) (ms : Nat) : Prop where
  /-- No attempt that it takes would have brought a link. -/
  barren : ∀ a ∈ q, a.link? = none
  plan : s.plan = q ++ s'.plan
  clock : s'.clock = s.clock + ms
  /-- There is nothing else that it changes, except for the record. -/
  unlogged : s'.unlogged = { s.unlogged with plan := s'.plan, clock := s'.clock }

/-- Steps after which no call to connect has succeeded either: what they do. -/
structure Waits (told : List (Action × Answer)) (s s' : Simulation) : Prop where
  fresh : s'.Fresh
  config : s'.config = s.config
  /-- The endpoint is moved by calls to change the port. -/
  endpoint : s'.endpoint = (told.filterMap (·.1.port?)).foldl Endpoint.moved s.endpoint
  /-- Commands that are accepted are queued. -/
  queue : s'.queue = s.queue ++ (told.filterMap acceptedBy).map .command
  /-- Nothing is read or written or handed over, and no state is published. -/
  record : ∃ hs, s'.happenings = s.happenings ++ hs
    ∧ ∀ x ∈ hs, x.side.ofTransfer = false ∧ x.published? = none

/-- Without a transfer a change of a link changes nothing else. -/
theorem onLink_of_none (hfree : s.transfer = none) (number : Nat) (f : Link → Link) :
    s.onLink number f = { s with links := s.links.modify number f } :=
  settle_of_none hfree

section Outside

variable {P : Simulation → Prop}

theorem receiverWrite_rule (hP : ∀ s number f, P s → P (onLink s number f)) (number n count : Nat)
    (bytes : List UInt8) (h : P s) : P (receiverWrite number n count bytes s).1 := by
  induction n generalizing s count bytes with
  | zero => exact h
  | succ n ih =>
    unfold receiverWrite
    split
    next => exact h
    next link _ =>
      repeat' split
      · exact h
      · exact h
      · exact h
      · exact h
      · exact ih _ _ (hP s number _ h)

theorem receiverRead_rule (hP : ∀ s number f, P s → P (onLink s number f)) (number n : Nat)
    (got : List UInt8) (h : P s) : P (receiverRead number n got s).1 := by
  induction n generalizing s got with
  | zero => exact h
  | succ n ih =>
    unfold receiverRead
    split
    next => exact h
    next link _ =>
      repeat' split
      · exact h
      · exact h
      · exact ih _ (hP s number _ h)

theorem receiverDoes_rule (hP : ∀ s number f, P s → P (onLink s number f)) (number : Nat)
    (f : Link → Link) (h : P s) : P (s.receiverDoes number f).1 := by
  unfold receiverDoes
  repeat' split
  · exact hP s number f h
  · exact h
  · exact h

/-- What each change of a link keeps, is kept by all that is done from outside. -/
theorem step_outside_rule (hP : ∀ s number f, P s → P (onLink s number f)) {a : Action}
    (ha : a.isOutside = true) (h : P s) : P (s.step a).1 := by
  cases a with
  | fail number operation kind => exact hP s number _ h
  | receiverWrite number bytes => exact receiverWrite_rule hP number _ 0 bytes h
  | receiverRead number => exact receiverRead_rule hP number _ [] h
  | receiverShutdown number => exact receiverDoes_rule hP number _ h
  | receiverClose number => exact receiverDoes_rule hP number _ h
  | _ => cases ha

end Outside

/-- Without a transfer, what is done to links from outside changes links only. -/
theorem step_outside_links (hfree : s.transfer = none) {a : Action} (ha : a.isOutside = true) :
    ∃ links, (s.step a).1 = { s with links := links } := by
  refine step_outside_rule (P := fun x => ∃ links, x = { s with links := links }) ?_ ha ⟨_, rfl⟩
  rintro _ number f ⟨links, rfl⟩
  exact ⟨_, onLink_of_none (s := { s with links := links }) hfree number f⟩

/-- A step of which nothing is recorded. -/
theorem Waits.silent (fresh : s'.Fresh) (config : s'.config = s.config)
    (endpoint : s'.endpoint = (told.filterMap (·.1.port?)).foldl Endpoint.moved s.endpoint)
    (queue : s'.queue = s.queue ++ (told.filterMap acceptedBy).map .command)
    (record : s'.record = s.record) : Waits told s s' := by
  refine ⟨fresh, config, endpoint, queue, [], ?_, fun x hx => absurd hx List.not_mem_nil⟩
  unfold happenings
  rw [record, List.append_nil]

/-- A happening is noted that is no doing of a transfer and publishes nothing. -/
theorem Waits.note (h : Waits told s s') {x : Happening} (hside : x.side.ofTransfer = false)
    (hpublished : x.published? = none) : Waits told s (s'.note x) := by
  obtain ⟨hs, hrecord, hplain⟩ := h.record
  obtain ⟨lifecycle, handedOver, released, watch, transfer⟩ := h.fresh
  refine ⟨⟨lifecycle, handedOver, released, watch, transfer⟩, h.config, h.endpoint, h.queue,
    hs ++ [x], ?_, ?_⟩
  · rw [happenings_note, hrecord, List.append_assoc]
  · intro y hy
    rcases List.mem_append.mp hy with hfirst | hlast
    · exact hplain y hfirst
    · rw [List.mem_singleton.mp hlast]
      exact ⟨hside, hpublished⟩

namespace Fresh

theorem congr (h : s.Fresh) (lifecycle : s'.lifecycle = s.lifecycle)
    (handedOver : s'.handedOver = s.handedOver) (released : s'.released = s.released)
    (watch : s'.watch = s.watch) (transfer : s'.transfer = s.transfer) : s'.Fresh :=
  ⟨lifecycle.trans h.lifecycle, handedOver.trans h.handedOver, released.trans h.released,
    watch.trans h.watch, transfer.trans h.transfer⟩

/-- The caller has the supervisor, so a call is what it does. -/
theorem call (h : s.Fresh) (f : Simulation → Simulation × Except SupervisorError Unit) :
    s.call f = ((f s).1, .ofCall (f s).2) :=
  call_of_kept h.released f

/-- What a call to change the port does. -/
theorem setPort_eq (h : s.Fresh) (text : String) :
    s.step (.setPort text) = match s.endpoint.setPort text with
      | .ok endpoint =>
          ({ s with endpoint := endpoint }.note (.endpointUpdated endpoint), .done)
      | .error e => (s, .refused (.transport e)) := by
  refine (h.call (Simulation.setPort · text)).trans ?_
  unfold Simulation.setPort
  rw [h.handedOver, if_neg Bool.false_ne_true]
  cases s.endpoint.setPort text <;> rfl

/-- **A call to change the port**: the endpoint alone decides. -/
theorem setPort (h : s.Fresh) (text : String) :
    (s.step (.setPort text)).2 = s.endpoint.judges text
      ∧ Waits [(.setPort text, (s.step (.setPort text)).2)] s (s.step (.setPort text)).1
      ∧ (s.step (.setPort text)).1.plan = s.plan := by
  rw [h.setPort_eq]
  unfold Endpoint.judges
  cases hjudged : s.endpoint.setPort text with
  | ok endpoint =>
    have hmoved : s.endpoint.moved text = endpoint := by
      unfold Endpoint.moved
      rw [hjudged]
    refine ⟨rfl, Waits.note ?_ rfl rfl, rfl⟩
    exact .silent (h.congr rfl rfl rfl rfl rfl) rfl hmoved.symm (List.append_nil _).symm rfl
  | error e =>
    have hmoved : s.endpoint.moved text = s.endpoint := by
      unfold Endpoint.moved
      rw [hjudged]
    exact ⟨rfl, .silent h rfl hmoved.symm (List.append_nil _).symm rfl, rfl⟩

/-- **A call to connect** succeeds or fails. -/
theorem connect (h : s.Fresh) (hfailed : (s.step .connect).2 ≠ .done) :
    (∃ e, (s.step .connect).2 = .refused e)
      ∧ Waits [(.connect, (s.step .connect).2)] s (s.step .connect).1
      ∧ ∃ q ms, Fails s (s.step .connect).1 q ms := by
  have hstep : s.step .connect = (s.connect.1, .ofCall s.connect.2) := h.call Simulation.connect
  rw [hstep] at hfailed ⊢
  cases houtcome : s.nextAttempt.1.outcome with
  | ok link =>
    rw [connect_of_ok h.lifecycle houtcome] at hfailed
    exact absurd rfl hfailed
  | error kind =>
    rw [connect_of_error h.lifecycle houtcome]
    refine ⟨⟨_, rfl⟩, Waits.note ?_ rfl rfl, ?_⟩
    · have hattempt : ∀ e, Waits [(.connect, .refused e)] s (s.note .attempt) := fun e =>
        (Waits.silent h rfl rfl (List.append_nil _).symm rfl).note rfl rfl
      obtain ⟨fresh, config, endpoint, queue, record⟩ := hattempt _
      exact ⟨fresh.congr rfl rfl rfl rfl rfl, config, endpoint, queue, record⟩
    · cases hplan : s.plan with
      | nil =>
        rw [nextAttempt_of_nil hplan]
        exact ⟨[], 0, fun a ha => absurd ha List.not_mem_nil, hplan, rfl, rfl⟩
      | cons a plan =>
        rw [nextAttempt_of_cons hplan] at houtcome ⊢
        refine ⟨[a], a.delay, ?_, hplan, rfl, rfl⟩
        intro a' ha'
        rw [List.mem_singleton.mp ha']
        unfold Attempt.link?
        rw [houtcome]
        rfl

/-- What is done to links from outside. -/
theorem outside (h : s.Fresh) {a : Action} (ha : a.isOutside = true) :
    Waits [(a, (s.step a).2)] s (s.step a).1 ∧ (s.step a).1.plan = s.plan := by
  have hport : a.port? = none := by cases a <;> first | rfl | cases ha
  have haccepted : acceptedBy (a, (s.step a).2) = none := by cases a <;> first | rfl | cases ha
  obtain ⟨links, hlinks⟩ := step_outside_links h.transfer ha
  rw [hlinks]
  refine ⟨.silent (h.congr rfl rfl rfl rfl rfl) rfl ?_ ?_ rfl, rfl⟩
  · rw [List.filterMap_cons_none (f := fun p : Action × Answer => p.1.port?) hport]
    rfl
  · rw [List.filterMap_cons_none haccepted]
    exact (List.append_nil _).symm

/-- A command is queued, unless it is empty. -/
theorem send (h : s.Fresh) (command : List UInt8) :
    Waits [(.send command, (s.step (.send command)).2)] s (s.step (.send command)).1
      ∧ (s.step (.send command)).1.plan = s.plan := by
  have hstep : s.step (.send command) = ((s.send command).1, .ofCall (s.send command).2) :=
    h.call (Simulation.send · command)
  rw [hstep]
  unfold Simulation.send
  rw [h.lifecycle]
  split
  next => exact ⟨(Waits.silent h rfl rfl (List.append_nil _).symm rfl).note rfl rfl, rfl⟩
  next =>
    dsimp only
    rw [if_neg (ne_true_of_eq_false h.isForsaken),
      show (s.enqueue (.command command)).settle = _ from settle_of_none h.transfer]
    refine ⟨Waits.note ?_ rfl rfl, rfl⟩
    exact .silent (h.congr rfl rfl rfl rfl rfl) rfl rfl rfl rfl

/-- **Other steps** that neither connect nor end anything. -/
theorem step (h : s.Fresh) {a : Action} (ha : a.isPreparing = true) :
    Waits [(a, (s.step a).2)] s (s.step a).1
      ∧ (s.step a).1.plan.length = s.plan.length + if a.plans then 1 else 0 := by
  cases a with
  | accept capacity delay =>
    exact ⟨.silent (h.congr rfl rfl rfl rfl rfl) rfl rfl (List.append_nil _).symm rfl,
      List.length_append⟩
  | refuse kind delay =>
    exact ⟨.silent (h.congr rfl rfl rfl rfl rfl) rfl rfl (List.append_nil _).symm rfl,
      List.length_append⟩
  | send command => exact (h.send command).imp_right (congrArg List.length)
  | setPort text => exact (h.setPort text).2.imp_right (congrArg List.length)
  | dropConsumer =>
    exact ⟨.silent (h.congr rfl rfl rfl rfl rfl) rfl rfl (List.append_nil _).symm rfl, rfl⟩
  | advance ms =>
    rw [show s.step (.advance ms) = ({ s with clock := s.clock + ms }, .done) from
      congrArg (fun t => (t, Answer.done)) (elapse_of_off h.watch ms)]
    exact ⟨.silent (h.congr rfl rfl rfl rfl rfl) rfl rfl (List.append_nil _).symm rfl, rfl⟩
  | connect => cases ha
  | shutdown => cases ha
  | drop => cases ha
  | _ => exact (h.outside rfl).imp_right (congrArg List.length)

/-- **A step** that ends nothing, unless it connects. -/
theorem waits (h : s.Fresh) {a : Action} (hshutdown : a ≠ .shutdown) (hdrop : a ≠ .drop)
    (hfailed : (a, (s.step a).2) ≠ (.connect, .done)) :
    Waits [(a, (s.step a).2)] s (s.step a).1 := by
  cases a with
  | connect => exact (h.connect fun hdone => hfailed (congrArg (Prod.mk _) hdone)).2.1
  | shutdown => exact absurd rfl hshutdown
  | drop => exact absurd rfl hdrop
  | _ => exact (h.step rfl).1

end Fresh

theorem Waits.trans (h : Waits told s s') (h' : Waits told' s' s'') :
    Waits (told ++ told') s s'' := by
  obtain ⟨hs, hrecord, hplain⟩ := h.record
  obtain ⟨hs', hrecord', hplain'⟩ := h'.record
  refine ⟨h'.fresh, h'.config.trans h.config, ?_, ?_, hs ++ hs', ?_, ?_⟩
  · rw [h'.endpoint, h.endpoint, List.filterMap_append, List.foldl_append]
  · rw [h'.queue, h.queue, List.filterMap_append, List.map_append, List.append_assoc]
  · rw [hrecord', hrecord, List.append_assoc]
  · intro x hx
    rcases List.mem_append.mp hx with hfirst | hlast
    · exact hplain x hfirst
    · exact hplain' x hlast

/-- **A run until a call to connect succeeds.** -/
theorem run_waits (h : s.Fresh) {actions : List Action} (hshutdown : .shutdown ∉ actions)
    (hdrop : .drop ∉ actions) (hfailed : (.connect, .done) ∉ s.answers actions) :
    Waits (s.answers actions) s (s.run actions) := by
  induction actions generalizing s with
  | nil => exact .silent h rfl rfl (List.append_nil _).symm rfl
  | cons a rest ih =>
    rw [List.mem_cons, not_or] at hshutdown hdrop
    have hfailed' : (.connect, .done) ∉ (a, (s.step a).2) :: (s.step a).1.answers rest := hfailed
    rw [List.mem_cons, not_or] at hfailed'
    have hstep := h.waits (Ne.symm hshutdown.1) (Ne.symm hdrop.1) (Ne.symm hfailed'.1)
    exact hstep.trans (ih hstep.fresh hshutdown.2 hdrop.2 hfailed'.2)

/-! ## §5. Without the calls that failed. -/

/-- A supervisor that does not run waits for no moment: later, it is the same. -/
theorem Fresh.under (h : t.Fresh) :
    t.unlogged.under { delay := delay } #[] = { t.unlogged with clock := t.clock + delay } := by
  have hrecord : #[] ++ recordUnder { delay := delay } #[] = (#[] : Array (Nat × Happening)) := by
    unfold recordUnder
    rw [Array.map_empty, Array.empty_append]
  show ({ t with
    clock := t.clock + delay
    watch := t.watch.later delay
    transfer := t.transfer.map (Transfer.later delay)
    consumer := t.consumer && true
    record := #[] ++ recordUnder { delay := delay } #[] } : Simulation) = { t with
      clock := t.clock + delay, record := #[] }
  rw [hrecord, h.watch, h.transfer, Bool.and_true]
  rfl

theorem Follows.fresh (h : Follows delay s t) (hs : s.Fresh) : t.Fresh := by
  have hlifecycle := congrArg Simulation.lifecycle h
  have hhandedOver := congrArg Simulation.handedOver h
  have hreleased := congrArg Simulation.released h
  have hwatch : Watch.off = t.watch.later delay := hs.watch.symm.trans (congrArg Simulation.watch h)
  have htransfer := congrArg Simulation.transfer h
  refine ⟨hlifecycle.symm.trans hs.lifecycle, hhandedOver.symm.trans hs.handedOver,
    hreleased.symm.trans hs.released, ?_,
    Option.map_eq_none_iff.mp (htransfer.symm.trans hs.transfer)⟩
  cases ht : t.watch with
  | off => rfl
  | _ =>
    rw [ht] at hwatch
    cases hwatch

theorem Follows.clock (h : Follows delay s t) : s.clock = t.clock + delay := by
  have hclock := congrArg Simulation.clock h
  exact hclock

theorem Follows.plan (h : Follows delay s t) : s.plan = t.plan := by
  have hplan := congrArg Simulation.plan h
  exact hplan

/-- A call to connect that failed: the other goes on without it, and is sooner by its time. -/
theorem Follows.fails {q' : List Attempt} {ms : Nat} (h : Follows delay (s.ahead q) t)
    (hs : s.Fresh) (hfails : s.Fails s' q' ms) : Follows (delay + ms) (s'.ahead (q ++ q')) t := by
  have hfresh : t.Fresh := h.fresh (hs.congr rfl rfl rfl rfl rfl)
  have hclock : s'.clock = t.clock + (delay + ms) := by
    rw [hfails.clock, show s.clock = t.clock + delay from h.clock, Nat.add_assoc]
  unfold Follows at h ⊢
  rw [hfresh.under] at h ⊢
  calc (s'.ahead (q ++ q')).unlogged
      = { s'.unlogged with plan := q ++ q' ++ s'.plan } := rfl
    _ = { (s.ahead q).unlogged with clock := s'.clock } := by
      rw [hfails.unlogged, List.append_assoc, ← hfails.plan]
      rfl
    _ = { t.unlogged with clock := t.clock + (delay + ms) } := by rw [h, hclock]

/-- What is left of a run without the calls that failed: it ends as the run does, sooner by
some time, and with the attempts still planned that they took. -/
structure Kept (s t : Simulation) (delay ms : Nat) (q q' : List Attempt)
    (actions kept : List Action) : Prop where
  prepares : ∀ a ∈ kept, a.isPreparing = true
  barren : ∀ a ∈ q', a.link? = none
  count : q'.length + (s.run actions).plan.length = s.plan.length + actions.countP Action.plans
  follows : Follows (delay + ms) ((s.run actions).ahead (q ++ q')) (t.run kept)

namespace Kept

variable {ms : Nat} {q' : List Attempt} {a : Action} {rest kept : List Action}

/-- A step that both do. -/
theorem keep (h : Kept (s.step a).1 (t.step a).1 delay ms q q' rest kept) (hs : s.Fresh)
    (ha : a.isPreparing = true) : Kept s t delay ms q q' (a :: rest) (a :: kept) := by
  refine ⟨?_, h.barren, ?_, h.follows⟩
  · intro b hb
    rcases List.mem_cons.mp hb with rfl | hb
    · exact ha
    · exact h.prepares b hb
  · have hcount := h.count
    have hgrown := (hs.step ha).2
    rw [List.countP_cons, show s.run (a :: rest) = (s.step a).1.run rest from rfl]
    omega

/-- A call that changes nothing. -/
theorem pass (h : Kept s t delay ms q q' rest kept) (hsame : (s.step a).1 = s)
    (hplans : a.plans = false) : Kept s t delay ms q q' (a :: rest) kept := by
  have hrun : s.run (a :: rest) = s.run rest := congrArg (run · rest) hsame
  refine ⟨h.prepares, h.barren, ?_, hrun ▸ h.follows⟩
  rw [hrun, List.countP_cons, hplans]
  exact h.count

/-- A call to connect that fails. -/
theorem fail {q₀ : List Attempt} {ms₀ : Nat} (hfails : Fails s (s.step .connect).1 q₀ ms₀)
    (h : Kept (s.step .connect).1 t (delay + ms₀) ms (q ++ q₀) q' rest kept) :
    Kept s t delay (ms₀ + ms) q (q₀ ++ q') (.connect :: rest) kept := by
  refine ⟨h.prepares, ?_, ?_, ?_⟩
  · intro a ha
    rcases List.mem_append.mp ha with hfirst | hlast
    · exact hfails.barren a hfirst
    · exact h.barren a hlast
  · have hcount := h.count
    have hplan := congrArg List.length hfails.plan
    rw [List.length_append] at hplan ⊢
    rw [List.countP_cons, show s.run (.connect :: rest) = (s.step .connect).1.run rest from rfl,
      show (if Action.plans .connect = true then 1 else 0) = 0 from rfl]
    omega
  · rw [← Nat.add_assoc, ← List.append_assoc]
    exact h.follows

end Kept

/-- **A run without the calls that failed.** -/
theorem run_kept (hs : s.Fresh) (hfollows : Follows delay (s.ahead q) t) {actions : List Action}
    (hshutdown : .shutdown ∉ actions) (hdrop : .drop ∉ actions)
    (hfailed : (.connect, .done) ∉ s.answers actions) :
    ∃ ms q', Kept s t delay ms q q' actions ((s.answers actions).filterMap unrefused) := by
  induction actions generalizing s t delay q with
  | nil =>
    refine ⟨0, [], fun a ha => absurd ha List.not_mem_nil, fun a ha => absurd ha List.not_mem_nil,
      Nat.zero_add _, ?_⟩
    rw [List.append_nil]
    exact hfollows
  | cons a rest ih =>
    rw [List.mem_cons, not_or] at hshutdown hdrop
    have htold : s.answers (a :: rest) = (a, (s.step a).2) :: (s.step a).1.answers rest := rfl
    rw [htold] at hfailed ⊢
    rw [List.mem_cons, not_or] at hfailed
    have hfresh := (hs.waits (Ne.symm hshutdown.1) (Ne.symm hdrop.1) (Ne.symm hfailed.1)).fresh
    -- a step that is kept is done by both
    have hkeep : a.isPreparing = true → unrefused (a, (s.step a).2) = some a →
        ∃ ms q', Kept s t delay ms q q' (a :: rest)
          (((a, (s.step a).2) :: (s.step a).1.answers rest).filterMap unrefused) := by
      intro ha hkept
      have hboth := (hfollows.step a).1
      rw [step_ahead hs.watch ha] at hboth
      obtain ⟨ms, q', h⟩ := ih hfresh hboth hshutdown.2 hdrop.2 hfailed.2
      rw [List.filterMap_cons_some hkept]
      exact ⟨ms, q', h.keep hs ha⟩
    cases a with
    | connect =>
      obtain ⟨⟨e, hrefused⟩, -, q₀, ms₀, hfails⟩ :=
        hs.connect fun hdone => hfailed.1 (congrArg (Prod.mk Action.connect) hdone).symm
      obtain ⟨ms, q', h⟩ := ih hfresh (hfollows.fails hs hfails) hshutdown.2 hdrop.2 hfailed.2
      rw [hrefused]
      exact ⟨ms₀ + ms, q₀ ++ q', .fail hfails h⟩
    | setPort text =>
      have hjudged := hs.setPort_eq text
      cases hresult : s.endpoint.setPort text with
      | ok endpoint =>
        rw [hresult] at hjudged
        refine hkeep rfl ?_
        rw [hjudged]
        rfl
      | error e =>
        rw [hresult] at hjudged
        rw [hjudged] at hfailed ⊢
        obtain ⟨ms, q', h⟩ := ih hs hfollows hshutdown.2 hdrop.2 hfailed.2
        exact ⟨ms, q', h.pass (congrArg Prod.fst hjudged) rfl⟩
    | shutdown => exact absurd rfl hshutdown.1
    | drop => exact absurd rfl hdrop.1
    | _ => exact hkeep rfl rfl

/-! ## §6. Without the attempts that they took. -/

theorem run_ahead (hs : s.Fresh) {actions : List Action}
    (hprepares : ∀ a ∈ actions, a.isPreparing = true) :
    (s.ahead q).run actions = (s.run actions).ahead q := by
  induction actions generalizing s with
  | nil => rfl
  | cons a rest ih =>
    have hstep := (hs.step (hprepares a List.mem_cons_self)).1.fresh
    show ((s.ahead q).step a).1.run rest = ((s.step a).1.run rest).ahead q
    rw [step_ahead hs.watch (hprepares a List.mem_cons_self)]
    exact ih hstep fun b hb => hprepares b (List.mem_cons_of_mem a hb)

/-- What is planned stays planned, in its place. -/
theorem plan_prefix (hs : s.Fresh) {actions : List Action}
    (hprepares : ∀ a ∈ actions, a.isPreparing = true) : s.plan <+: (s.run actions).plan := by
  let bare : Simulation := { s with plan := [] }
  have hsame : s = bare.ahead s.plan := by
    unfold ahead
    rw [show bare.plan = [] from rfl, List.append_nil]
  have hbare : bare.Fresh := hs.congr rfl rfl rfl rfl rfl
  have hrun := run_ahead (q := s.plan) hbare hprepares
  rw [← hsame] at hrun
  rw [hrun]
  exact List.prefix_append _ _

/-- A step that plans nothing leaves an empty plan empty. -/
theorem Fresh.plan_nil (h : s.Fresh) (hplan : s.plan = []) {a : Action}
    (ha : a.isPreparing = true) (hplans : a.plans = false) : (s.step a).1.plan = [] := by
  have hlength := (h.step ha).2
  rw [hplans, hplan] at hlength
  exact List.length_eq_zero_iff.mp hlength

/-- **A run without the first attempts that are planned to fail**, while nothing else is
planned before them. -/
theorem run_withoutRefusals {n : Nat} (hs : s.Fresh) (hplan : n = 0 ∨ s.plan = [])
    {actions : List Action} (hprepares : ∀ a ∈ actions, a.isPreparing = true)
    (henough : n ≤ (s.run actions).plan.length)
    (hbarren : ∀ a ∈ (s.run actions).plan.take n, a.link? = none) :
    s.run actions = ahead ((s.run actions).plan.take n) (s.run (withoutRefusals n actions)) := by
  induction actions generalizing s n with
  | nil =>
    have hn : n = 0 := by
      rcases hplan with hn | hplan
      · exact hn
      · rw [show s.run [] = s from rfl, hplan] at henough
        exact Nat.le_zero.mp henough
    subst hn
    rw [withoutRefusals]
    rfl
  | cons a rest ih =>
    cases n with
    | zero =>
      rw [withoutRefusals]
      rfl
    | succ n =>
      have hempty : s.plan = [] := hplan.resolve_left (Nat.succ_ne_zero n)
      have ha := hprepares a List.mem_cons_self
      have hrest : ∀ b ∈ rest, b.isPreparing = true :=
        fun b hb => hprepares b (List.mem_cons_of_mem a hb)
      have hfresh := (hs.step ha).1.fresh
      -- a step that plans nothing is done in both runs
      have hboth : a.plans = false → s.run (a :: rest)
          = ahead ((s.run (a :: rest)).plan.take (n + 1))
            (s.run (a :: withoutRefusals (n + 1) rest)) := fun hplans =>
        ih hfresh (.inr (hs.plan_nil hempty ha hplans)) hrest henough hbarren
      cases a with
      | refuse kind delay =>
        have hstep : (s.step (.refuse kind delay)).1 = s.ahead [⟨.error kind, delay⟩] := by
          show ({ s with plan := s.plan ++ [_] } : Simulation) = { s with plan := [_] ++ s.plan }
          rw [hempty]
          rfl
        have hrun : s.run (.refuse kind delay :: rest)
            = (s.run rest).ahead [⟨.error kind, delay⟩] := by
          show (s.step (.refuse kind delay)).1.run rest = _
          rw [hstep, run_ahead hs hrest]
        rw [withoutRefusals]
        rw [hrun] at henough hbarren ⊢
        have hafter := ih hs (.inr hempty) hrest (Nat.le_of_succ_le_succ henough)
          fun b hb => hbarren b (List.mem_cons_of_mem _ hb)
        exact congrArg (ahead [⟨.error kind, delay⟩]) hafter
      | accept capacity delay =>
        -- the attempt that would bring a link would be among those that took none
        obtain ⟨more, hmore⟩ := plan_prefix hfresh hrest
        have hfirst : (⟨.ok s.links.size, delay⟩ : Attempt)
            ∈ (s.run (.accept capacity delay :: rest)).plan.take (n + 1) := by
          show _ ∈ ((s.step (.accept capacity delay)).1.run rest).plan.take (n + 1)
          have hplanned : (s.step (.accept capacity delay)).1.plan = s.plan ++ [_] := rfl
          rw [← hmore, hplanned, hempty]
          exact List.mem_cons_self
        cases hbarren _ hfirst
      | connect => cases ha
      | shutdown => cases ha
      | drop => cases ha
      | _ => exact hboth rfl

/-! ## §7. No trace. -/

/-- A supervisor of which no call to connect has succeeded, as its calls were answered. -/
structure Unconnected (endpoint : Endpoint) (told : List (Action × Answer)) (s : Simulation) :
    Prop where
  lifecycle : s.lifecycle = .disconnected
  unpublished : s.published = []
  /-- Nothing runs: there is no watchdog and no transfer. -/
  unwatched : s.watch = .off
  unlinked : s.transfer = none
  /-- Nothing has been read, written or handed over. -/
  record : ∀ h ∈ s.happenings, h.side.ofTransfer = false
  /-- The receiver has got nothing, and nothing is on the way to it. -/
  silent : ∀ n, told.flatMap (gotBy n) = [] ∧ s.onTheWay n = []
  /-- The commands accepted are queued, in their order. -/
  queue : s.queue = (told.filterMap acceptedBy).map .command
  /-- The endpoint is the one that the calls to change the port have led to. -/
  endpoint : s.endpoint = (told.filterMap (·.1.port?)).foldl Endpoint.moved endpoint
  /-- Such a call is possible still, and the endpoint alone decides. -/
  port : ∀ text, (s.step (.setPort text)).2 = s.endpoint.judges text
    ∧ (s.step (.setPort text)).1.endpoint = s.endpoint.moved text

/-- The same steps without the calls to connect that failed, the attempts that
these have taken, and the calls to change the port that were refused. -/
def withoutFailures (s : Simulation) (actions : List Action) : List Action :=
  withoutRefusals (actions.countP Action.plans - (s.run actions).plan.length)
    ((s.answers actions).filterMap unrefused)

theorem Follows.of_ahead (h : Follows delay (s.ahead q) (t.ahead q)) : Follows delay s t := by
  have hplan : s.plan = t.plan := List.append_cancel_left h.plan
  have hsame := congrArg (fun x : Simulation => { x with plan := t.plan }) h
  have hfirst : s.unlogged = { (s.ahead q).unlogged with plan := t.plan } := by
    rw [← hplan]
    rfl
  exact hfirst.trans hsame

/-- **A run without the calls that failed, and without their attempts.** -/
theorem run_withoutFailures (hs : s.Fresh) (hplan : s.plan = []) {actions : List Action}
    (hshutdown : .shutdown ∉ actions) (hdrop : .drop ∉ actions)
    (hfailed : (.connect, .done) ∉ s.answers actions) :
    ∃ delay, Follows delay (s.run actions) (s.run (s.withoutFailures actions)) := by
  obtain ⟨ms, q', h⟩ := run_kept (q := []) hs (.refl s) hshutdown hdrop hfailed
  have hcount : actions.countP Action.plans - (s.run actions).plan.length = q'.length := by
    have hcount := h.count
    rw [hplan, List.length_nil] at hcount
    omega
  -- the attempts that were taken are still planned first where the calls are not made
  have hfirst : q' ++ (s.run actions).plan = _ := h.follows.plan
  have htake : (s.run ((s.answers actions).filterMap unrefused)).plan.take q'.length = q' := by
    rw [← hfirst, List.take_left]
  have hspared := run_withoutRefusals (n := q'.length) hs (.inr hplan) h.prepares
    (by rw [← hfirst, List.length_append]; exact Nat.le_add_right _ _)
    (by rw [htake]; exact h.barren)
  rw [htake] at hspared
  refine ⟨0 + ms, Follows.of_ahead (q := q') ?_⟩
  unfold withoutFailures
  rw [hcount, ← hspared]
  exact h.follows

/-- Until a call to connect succeeds, nothing has been taken from the queue. -/
theorem Waits.queued {ds : List Delivery} {lost : List Outbound} {es : List Influence}
    (h : Waits told s s') (hs : s.happenings = []) (hbooks : Outgoing es s' ds lost) :
    queuedItems s'.happenings = s'.queue := by
  obtain ⟨hs', hrecord, hplain⟩ := h.record
  rw [hs, List.nil_append] at hrecord
  have htakes : s'.happenings.flatMap Happening.takes = [] := by
    rw [List.flatMap_eq_nil_iff]
    intro x hx
    have hside := (hplain x (hrecord ▸ hx)).1
    cases x <;> first | rfl | cases hside
  have hnone : ds = [] := by
    rw [hbooks.deliveries.takes_eq] at htakes
    exact List.map_eq_nil_iff.mp htakes
  rw [hbooks.entries, hnone, hbooks.lost_eq_nil h.fresh.isOver h.fresh.isForsaken, List.append_nil]
  rfl

/-- **Nothing has been done** that anybody could notice. -/
theorem start_unconnected (pace : Pace) (config : SupervisorConfig) (endpoint : Endpoint)
    {actions : List Action} (hshutdown : .shutdown ∉ actions) (hdrop : .drop ∉ actions)
    (hfailed : (.connect, .done) ∉ (start pace config endpoint).answers actions) :
    Unconnected endpoint ((start pace config endpoint).answers actions)
      ((start pace config endpoint).run actions) := by
  have hwaits := run_waits (start_fresh pace config endpoint) hshutdown hdrop hfailed
  obtain ⟨hs, hrecord, hplain⟩ := hwaits.record
  have hplain' : ∀ x ∈ ((start pace config endpoint).run actions).happenings,
      x.side.ofTransfer = false ∧ x.published? = none := by
    rw [hrecord]
    exact hplain
  obtain ⟨es, hmoves, htold⟩ := run_moves (start_tidy pace config endpoint) actions
  have hconserved : Conserved ([] ++ es) _ := hmoves.conserved fun n => rfl
  refine ⟨hwaits.fresh.lifecycle, ?_, hwaits.fresh.watch, hwaits.fresh.transfer,
    fun x hx => (hplain' x hx).1, ?_, hwaits.queue, hwaits.endpoint, ?_⟩
  · exact List.filterMap_eq_nil_iff.mpr fun x hx => (hplain' x hx).2
  · intro n
    have hsent : ((start pace config endpoint).run actions).sentOn n = [] := by
      refine sentOn_eq_nil ?_ n
      intro x hx hside
      have hnone := (hplain' x hx).1
      rw [hside] at hnone
      cases hnone
    have hgot := (hconserved n).trans hsent
    rw [List.nil_append, htold.got] at hgot
    exact List.append_eq_nil_iff.mp hgot
  · intro text
    have hport := hwaits.fresh.setPort text
    exact ⟨hport.1, hport.2.1.endpoint⟩

/-- Once a call to connect succeeds, the watchdog looks at the link one interval later; it fails if
there is none. -/
theorem connect_looking (h : s.Fresh) (hdone : (s.step .connect).2 = .done) :
    (s.step .connect).1.watch = if s.config.watchdog = 0 then .failed
      else .looking ((s.step .connect).1.clock + s.config.watchdog) := by
  have hstep : s.step .connect = (s.connect.1, .ofCall s.connect.2) := h.call Simulation.connect
  rw [hstep] at hdone ⊢
  cases houtcome : s.nextAttempt.1.outcome with
  | ok link =>
    rw [connect_of_ok h.lifecycle houtcome]
    let up : Simulation := { { s.note .attempt with
      plan := (s.note .attempt).nextAttempt.2
      clock := s.clock + (s.note .attempt).nextAttempt.1.delay }.note
        (.connected s.endpoint.text s.endpoint.kind) with handedOver := true }
    have hclock : (up.linkUp link).clock = up.clock := ((Instant.refl up).linkUp link).clock
    show (up.linkUp link).watch = if s.config.watchdog = 0 then .failed
      else .looking ((up.linkUp link).clock + s.config.watchdog)
    rw [hclock]
    exact up.linkUp_watch link
  | error kind =>
    rw [connect_of_error h.lifecycle houtcome] at hdone
    cases hdone

/-- **A failed connect leaves no trace.**  Until a call to connect succeeds, nothing has been
done that anybody could notice, and the endpoint is where the calls to change the port have led.
And from then on the run goes on as one without the calls that failed, so much later: the
commands queued before are the first that are written, in their order. -/
theorem failed_connect_untraced (pace : Pace) (config : SupervisorConfig) (endpoint : Endpoint)
    (before : List Action) (hshutdown : .shutdown ∉ before) (hdrop : .drop ∉ before)
    (hfailed : (.connect, .done) ∉ (start pace config endpoint).answers before) :
    let s := (start pace config endpoint).run before
    let t := (start pace config endpoint).run ((start pace config endpoint).withoutFailures before)
    Unconnected endpoint ((start pace config endpoint).answers before) s
      ∧ ((s.step .connect).2 = .done →
        (s.step .connect).1.watch = if config.watchdog = 0 then .failed
          else .looking ((s.step .connect).1.clock + config.watchdog))
      ∧ ∃ delay, s.clock = t.clock + delay ∧ ∀ after, Course delay s t after
        ∧ ∃ ds lost,
          Account (s.run after) ((start pace config endpoint).answers (before ++ after)) ds lost
          ∧ ∀ k d, ds[k]? = some d → k < s.queue.length → s.queue[k]? = some d.item := by
  intro s t
  have hstart := start_steady pace config endpoint
  have hwaits := run_waits (start_fresh pace config endpoint) hshutdown hdrop hfailed
  obtain ⟨delay, hfollows⟩ :=
    run_withoutFailures (start_fresh pace config endpoint) rfl hshutdown hdrop hfailed
  refine ⟨start_unconnected pace config endpoint hshutdown hdrop hfailed, ?_, delay,
    hfollows.clock, ?_⟩
  · intro hdone
    have hlooking := connect_looking hwaits.fresh hdone
    rwa [hwaits.config] at hlooking
  · intro after
    refine ⟨hfollows.course after, ?_⟩
    obtain ⟨esb, hmovesb, -⟩ := run_moves hstart.tidy before
    obtain ⟨dsb, lostb, hbooksb⟩ := hmovesb.outgoing hstart (start_outgoing pace config endpoint)
    have hqueued : queuedItems s.happenings = s.queue := hwaits.queued rfl hbooksb
    obtain ⟨es, hmoves, htold⟩ := run_moves hstart.tidy (before ++ after)
    obtain ⟨ds, lost, hbooks⟩ := hmoves.outgoing hstart (start_outgoing pace config endpoint)
    have haccount := hbooks.account (hmoves.steady hstart) (hmoves.conserved fun n => rfl) htold
    obtain ⟨esr, hrest, -⟩ := run_moves (hmovesb.tidy hstart.tidy) after
    obtain ⟨more, hmore⟩ := hrest.record
    rw [run_append] at haccount hbooks
    refine ⟨ds, lost, haccount, ?_⟩
    -- what was queued by then stands first in all that is ever queued
    intro k d hd hk
    have hitem : (queuedItems (s.run after).happenings)[k]? = s.queue[k]? := by
      rw [show (s.run after).happenings = s.happenings ++ more from hmore, queuedItems_append,
        hqueued, List.getElem?_append_left hk]
    rw [← hitem, show queuedItems (s.run after).happenings = _ from hbooks.entries,
      List.getElem?_append_left, List.getElem?_map, hd]
    · rfl
    · rw [List.length_map]
      exact (List.getElem?_eq_some_iff.mp hd).1

/-- Three calls fail, and a command is queued between them. -/
def retrying : List Action :=
  [.connect, .refuse .timedOut 300, .send [0x61], .setPort " ", .connect,
    .setPort "/dev/ttyACM1", .accept 8 0]

/-- The run goes on as if only the command, the second change of the port and the link had
been there, 300 milliseconds later. -/
theorem failed_connect_untraced_retrying :
    .shutdown ∉ retrying ∧ .drop ∉ retrying
      ∧ (.connect, .done) ∉ (start .cooperative {} (.serial {})).answers retrying
      ∧ ((start .cooperative {} (.serial {})).run retrying).endpoint
        = .serial { device := "/dev/ttyACM1" }
      ∧ (((start .cooperative {} (.serial {})).run retrying).step .connect).1.watch = .looking 1300
      ∧ (start .cooperative {} (.serial {})).withoutFailures retrying
        = [.send [0x61], .setPort "/dev/ttyACM1", .accept 8 0]
      ∧ ∀ after, Course 300 ((start .cooperative {} (.serial {})).run retrying)
        ((start .cooperative {} (.serial {})).run
          [.send [0x61], .setPort "/dev/ttyACM1", .accept 8 0])
        after := by
  have hshutdown : .shutdown ∉ retrying := by decide
  have hdrop : .drop ∉ retrying := by decide
  have hfailed : (.connect, .done) ∉ (start .cooperative {} (.serial {})).answers retrying := by
    decide +kernel
  obtain ⟨hunconnected, hlooking, delay, hclock, hcourse⟩ :=
    failed_connect_untraced .cooperative {} (.serial {}) retrying hshutdown hdrop hfailed
  have hdone : (((start .cooperative {} (.serial {})).run retrying).step .connect).2 = .done := by
    decide +kernel
  have hwithout : (start .cooperative {} (.serial {})).withoutFailures retrying
      = [.send [0x61], .setPort "/dev/ttyACM1", .accept 8 0] := by decide +kernel
  rw [hwithout] at hclock hcourse
  have hdelay : delay = 300 := by
    have hlate : ((start .cooperative {} (.serial {})).run retrying).clock = 300 := by
      decide +kernel
    have hsoon : ((start .cooperative {} (.serial {})).run
        [.send [0x61], .setPort "/dev/ttyACM1", .accept 8 0]).clock = 0 := by decide +kernel
    omega
  subst hdelay
  refine ⟨hshutdown, hdrop, hfailed, ?_, ?_, hwithout, fun after => (hcourse after).1⟩
  · rw [hunconnected.endpoint]
    decide +kernel
  · rw [hlooking hdone]
    have hmoment :
        (((start .cooperative {} (.serial {})).run retrying).step .connect).1.clock = 300 := by
      decide +kernel
    rw [hmoment]
    rfl

end Simulation

end ReceiverLink
