/-
  ReceiverLink.Proofs.Supervisor.Runs
  ────────────────────────────────
  **A run of a scenario, and what its answers tell.**

  Every step of a scenario is a sequence of moves, and so is a whole run.  All
  that comes from outside is known to whoever makes the steps: what the
  receiver has put on a link or got from one is in the answers, and nothing
  fails, ends or goes away that is not in the steps.

  Main statements:
    * `step_moves` — for one step;
    * `run_moves` — for a run.
-/
import ReceiverLink.Proofs.Supervisor.Moves

namespace ReceiverLink

/-! ## §1. What the receiver has put and got. -/

/-- The bytes put on a link. -/
def Influence.putOn (number : Nat) : Influence → List UInt8
  | .put n bytes => if n = number then bytes else []
  | _ => []

/-- The bytes got from a link. -/
def Influence.gotOn (number : Nat) : Influence → List UInt8
  | .got n bytes => if n = number then bytes else []
  | _ => []

/-- The bytes that a step has put on a link, as its answer tells. -/
def putBy (number : Nat) : Action × Answer → List UInt8
  | (.receiverWrite n bytes, .written count _) => if n = number then bytes.take count else []
  | _ => []

/-- The bytes that a step has got from a link, as its answer tells. -/
def gotBy (number : Nat) : Action × Answer → List UInt8
  | (.receiverRead n, .read bytes _) => if n = number then bytes else []
  | _ => []

/-- The command of an influence that is one. -/
def Influence.command? : Influence → Option (List UInt8)
  | .command bytes => some bytes
  | _ => none

/-- The command that a step has put in the queue, as its answer tells. -/
def acceptedBy : Action × Answer → Option (List UInt8)
  | (.send bytes, .done) => some bytes
  | _ => none

/-- The step that something from outside comes with. -/
def Action.Brings (a : Action) : Influence → Prop
  | .put n _ => ∃ bytes, a = .receiverWrite n bytes
  | .got n _ => a = .receiverRead n
  | .command bytes => a = .send bytes
  | .readFault n kind => a = .fail n .read kind
  | .cancelled => a = .shutdown ∨ a = .drop
  | .consumerLeft => a = .dropConsumer

/-- The steps and their answers tell what came from outside. -/
structure Told (told : List (Action × Answer)) (es : List Influence) : Prop where
  put : ∀ n, es.flatMap (Influence.putOn n) = told.flatMap (putBy n)
  got : ∀ n, es.flatMap (Influence.gotOn n) = told.flatMap (gotBy n)
  commands : es.filterMap Influence.command? = told.filterMap acceptedBy
  comes : ∀ x ∈ es, ∃ p ∈ told, p.1.Brings x

namespace Told

variable {told told' : List (Action × Answer)} {es es' : List Influence}

theorem append (h : Told told es) (h' : Told told' es') : Told (told ++ told') (es ++ es') := by
  refine ⟨?_, ?_, ?_, ?_⟩
  · intro n
    rw [List.flatMap_append, List.flatMap_append, h.put, h'.put]
  · intro n
    rw [List.flatMap_append, List.flatMap_append, h.got, h'.got]
  · rw [List.filterMap_append, List.filterMap_append, h.commands, h'.commands]
  · intro x hx
    rcases List.mem_append.mp hx with hfirst | hlast
    · obtain ⟨p, hp, hbrings⟩ := h.comes x hfirst
      exact ⟨p, List.mem_append_left _ hp, hbrings⟩
    · obtain ⟨p, hp, hbrings⟩ := h'.comes x hlast
      exact ⟨p, List.mem_append_right _ hp, hbrings⟩

/-- A step with which no bytes come or go and no command is accepted. -/
theorem of_brings {a : Action} {answer : Answer} (hcomes : ∀ x ∈ es, a.Brings x)
    (hwrite : ∀ n bytes, a ≠ .receiverWrite n bytes) (hread : ∀ n, a ≠ .receiverRead n)
    (hsend : ∀ bytes, a ≠ .send bytes) : Told [(a, answer)] es := by
  refine ⟨?_, ?_, ?_, ?_⟩
  · intro n
    have hput : putBy n (a, answer) = [] := by
      cases a <;> first | rfl | exact absurd rfl (hwrite _ _)
    rw [List.flatMap_singleton, hput, List.flatMap_eq_nil_iff]
    intro x hx
    have hbrings := hcomes x hx
    cases x with
    | put =>
      obtain ⟨bytes, ha⟩ := hbrings
      exact absurd ha (hwrite _ _)
    | _ => rfl
  · intro n
    have hgot : gotBy n (a, answer) = [] := by
      cases a <;> first | rfl | exact absurd rfl (hread _)
    rw [List.flatMap_singleton, hgot, List.flatMap_eq_nil_iff]
    intro x hx
    have hbrings := hcomes x hx
    cases x with
    | got => exact absurd hbrings (hread _)
    | _ => rfl
  · have haccepted : acceptedBy (a, answer) = none := by
      cases a <;> first | rfl | exact absurd rfl (hsend _)
    rw [List.filterMap_cons_none haccepted, List.filterMap_nil, List.filterMap_eq_nil_iff]
    intro x hx
    have hbrings := hcomes x hx
    cases x with
    | command => exact absurd hbrings (hsend _)
    | _ => rfl
  · intro x hx
    exact ⟨_, List.mem_singleton_self _, hcomes x hx⟩

/-- The receiver has put the beginning of the bytes on the link, in parts. -/
theorem puts {number count : Nat} {bytes : List UInt8} {broken : Bool}
    (hputs : ∀ x ∈ es, ∃ part, x = .put number part)
    (htaken : es.flatMap (Influence.putOn number) = bytes.take count) :
    Told [(.receiverWrite number bytes, .written count broken)] es := by
  refine ⟨?_, ?_, ?_, ?_⟩
  · intro n
    rw [List.flatMap_singleton]
    show _ = if number = n then bytes.take count else []
    by_cases hn : number = n
    · subst hn
      rw [if_pos rfl, htaken]
    · rw [if_neg hn, List.flatMap_eq_nil_iff]
      intro x hx
      obtain ⟨part, rfl⟩ := hputs x hx
      exact if_neg hn
  · intro n
    rw [List.flatMap_singleton]
    refine List.flatMap_eq_nil_iff.mpr ?_
    intro x hx
    obtain ⟨part, rfl⟩ := hputs x hx
    rfl
  · refine List.filterMap_eq_nil_iff.mpr ?_
    intro x hx
    obtain ⟨part, rfl⟩ := hputs x hx
    rfl
  · intro x hx
    obtain ⟨part, rfl⟩ := hputs x hx
    exact ⟨_, List.mem_singleton_self _, bytes, rfl⟩

/-- The receiver has got the bytes from the link, in parts. -/
theorem gots {number : Nat} {bytes : List UInt8} {atEnd : Bool}
    (hgots : ∀ x ∈ es, ∃ part, x = .got number part)
    (hbytes : es.flatMap (Influence.gotOn number) = bytes) :
    Told [(.receiverRead number, .read bytes atEnd)] es := by
  refine ⟨?_, ?_, ?_, ?_⟩
  · intro n
    rw [List.flatMap_singleton]
    refine List.flatMap_eq_nil_iff.mpr ?_
    intro x hx
    obtain ⟨part, rfl⟩ := hgots x hx
    rfl
  · intro n
    rw [List.flatMap_singleton]
    show _ = if number = n then bytes else []
    by_cases hn : number = n
    · subst hn
      rw [if_pos rfl, hbytes]
    · rw [if_neg hn, List.flatMap_eq_nil_iff]
      intro x hx
      obtain ⟨part, rfl⟩ := hgots x hx
      exact if_neg hn
  · refine List.filterMap_eq_nil_iff.mpr ?_
    intro x hx
    obtain ⟨part, rfl⟩ := hgots x hx
    rfl
  · intro x hx
    obtain ⟨part, rfl⟩ := hgots x hx
    exact ⟨_, List.mem_singleton_self _, rfl⟩

/-- A step with which nothing comes. -/
theorem nothing {a : Action} {answer : Answer} (hput : ∀ n, putBy n (a, answer) = [])
    (hgot : ∀ n, gotBy n (a, answer) = []) (haccepted : acceptedBy (a, answer) = none) :
    Told [(a, answer)] [] := by
  refine ⟨?_, ?_, ?_, ?_⟩
  · intro n
    rw [List.flatMap_singleton, hput]
    rfl
  · intro n
    rw [List.flatMap_singleton, hgot]
    rfl
  · rw [List.filterMap_cons_none haccepted]
    rfl
  · intro x hx
    cases hx

end Told

/-! ## §2. The receiver's end of a link. -/

namespace Simulation

variable {s : Simulation}

theorem modify_of_there {number : Nat} {link : Link} (there : s.links[number]? = some link)
    (f : Link → Link) : s.links.modify number f = s.links.setIfInBounds number (f link) := by
  apply Array.ext_getElem?
  intro j
  rw [Array.getElem?_modify, Array.getElem?_setIfInBounds]
  by_cases hj : number = j
  · subst hj
    have hlt : number < s.links.size := (Array.getElem?_eq_some_iff.mp there).1
    rw [if_pos rfl, if_pos rfl, if_pos hlt, there]
    rfl
  · rw [if_neg hj, if_neg hj]

theorem modify_of_missing {number : Nat} (missing : s.links[number]? = none) (f : Link → Link) :
    s.links.modify number f = s.links := by
  apply Array.ext_getElem?
  intro j
  rw [Array.getElem?_modify]
  by_cases hj : number = j
  · subst hj
    rw [if_pos rfl, missing]
    rfl
  · rw [if_neg hj]

/-- A change of a link, and what happens then. -/
theorem onLink_moves {number : Nat} {link : Link} {es : List Influence} {f : Link → Link}
    (there : s.links[number]? = some link) (change : link.Change number es (f link)) :
    Moves s es (s.onLink number f) := by
  unfold onLink
  rw [modify_of_there there]
  exact .stir (.change there change)

theorem onLink_missing {number : Nat} {f : Link → Link} (missing : s.links[number]? = none) :
    Moves s [] (s.onLink number f) := by
  unfold onLink
  rw [modify_of_missing missing]
  exact .stir .nothing

/-- Whether the receiver has gone from a link is not the supervisor's doing. -/
theorem settle_receiverOpen (s : Simulation) (number : Nat) :
    s.settle.links[number]?.map Link.receiverOpen = s.links[number]?.map Link.receiverOpen := by
  refine settle_rule (P := fun a => a.links[number]?.map Link.receiverOpen
    = s.links[number]?.map Link.receiverOpen) rfl ?_
  intro t link w _ hthere hworks
  have hnumber : w.transfer.number = t.number := hworks.same.number
  rw [getElem?_absorb hnumber hthere]
  by_cases hn : t.number = number
  · rw [if_pos hn, ← hn, hthere]
    exact congrArg some hworks.same.receiver
  · rw [if_neg hn]

theorem onLink_receiverOpen {number : Nat} {link : Link} {f : Link → Link}
    (there : s.links[number]? = some link) (hf : (f link).receiverOpen = link.receiverOpen) :
    ∃ link', (s.onLink number f).links[number]? = some link'
      ∧ link'.receiverOpen = link.receiverOpen := by
  have hlt : number < s.links.size := (Array.getElem?_eq_some_iff.mp there).1
  have hopen := settle_receiverOpen { s with links := s.links.modify number f } number
  have hchanged : (s.links.modify number f)[number]? = some (f link) := by
    rw [modify_of_there there, Array.getElem?_setIfInBounds, if_pos rfl, if_pos hlt]
  rw [hchanged] at hopen
  cases hlink : (s.onLink number f).links[number]? with
  | none =>
    rw [show Simulation.settle _ = s.onLink number f from rfl, hlink] at hopen
    cases hopen
  | some link' =>
    rw [show Simulation.settle _ = s.onLink number f from rfl, hlink] at hopen
    exact ⟨link', rfl, (Option.some.inj hopen).trans hf⟩

/-- **Writing at the receiver's side** puts a part of the bytes on the link. -/
theorem receiverWrite_moves {number : Nat} {link : Link} (n count : Nat) (bytes : List UInt8)
    (there : s.links[number]? = some link) (ropen : link.receiverOpen = true) :
    ∃ (k : Nat) (broken : Bool) (es : List Influence),
      (receiverWrite number n count bytes s).2 = .written (count + k) broken
        ∧ Moves s es (receiverWrite number n count bytes s).1
        ∧ (∀ x ∈ es, ∃ part, x = .put number part)
        ∧ es.flatMap (Influence.putOn number) = bytes.take k := by
  induction n generalizing s link count bytes with
  | zero => exact ⟨0, false, [], rfl, .refl, by simp, by simp⟩
  | succ n ih =>
    unfold receiverWrite
    rw [there]
    dsimp only
    rw [ropen]
    simp only [Bool.not_true, Bool.false_eq_true, if_false]
    split
    next => exact ⟨0, false, [], rfl, .refl, by simp, by simp⟩
    next =>
      split
      next => exact ⟨0, true, [], rfl, .refl, by simp, by simp⟩
      next hwhole =>
        split
        next => exact ⟨0, false, [], rfl, .refl, by simp, by simp⟩
        next =>
          -- what fits is put on the link, and the rest is written after it
          generalize hpart : link.inbound.fitting bytes = part
          have hmove : Moves s [.put number part]
              (s.onLink number fun l => { l with inbound := l.inbound.put part }) :=
            onLink_moves there (.put part (by simpa using hwhole))
          obtain ⟨link', there', hreceiver⟩ :=
            onLink_receiverOpen (f := fun l => { l with inbound := l.inbound.put part }) there rfl
          obtain ⟨k, broken, es, hanswer, hmoves, hputs, htake⟩ :=
            ih (count + part.length) (bytes.drop part.length) there' (hreceiver.trans ropen)
          refine ⟨part.length + k, broken, .put number part :: es, ?_, hmove.trans hmoves, ?_, ?_⟩
          · rw [hanswer, Nat.add_assoc]
          · intro x hx
            rcases List.mem_cons.mp hx with rfl | hrest
            · exact ⟨part, rfl⟩
            · exact hputs x hrest
          · have hfront : part = bytes.take part.length := by
              rw [← hpart]
              exact link.inbound.fitting_eq_take bytes
            rw [List.flatMap_cons, htake, List.take_add, ← hfront]
            simp [Influence.putOn]

/-- **Reading at the receiver's side** gets bytes from the link. -/
theorem receiverRead_moves {number : Nat} {link : Link} (n : Nat) (before : List UInt8)
    (there : s.links[number]? = some link) (ropen : link.receiverOpen = true) :
    ∃ (bytes : List UInt8) (atEnd : Bool) (es : List Influence),
      (receiverRead number n before s).2 = .read (before ++ bytes) atEnd
        ∧ Moves s es (receiverRead number n before s).1
        ∧ (∀ x ∈ es, ∃ part, x = .got number part)
        ∧ es.flatMap (Influence.gotOn number) = bytes := by
  induction n generalizing s link before with
  | zero => exact ⟨[], false, [], by simp [receiverRead], .refl, by simp, rfl⟩
  | succ n ih =>
    unfold receiverRead
    rw [there]
    dsimp only
    rw [ropen]
    simp only [Bool.not_true, Bool.false_eq_true, if_false]
    split
    next => exact ⟨[], link.outbound.atEnd, [], by simp, .refl, by simp, rfl⟩
    next =>
      -- with room in the pipe again the supervisor may send more
      have hmove : Moves s [.got number link.outbound.buffer]
          (s.onLink number fun l => { l with outbound := { l.outbound with buffer := [] } }) :=
        onLink_moves there .got
      obtain ⟨link', there', hreceiver⟩ := onLink_receiverOpen
        (f := fun l => { l with outbound := { l.outbound with buffer := [] } }) there rfl
      obtain ⟨bytes, atEnd, es, hanswer, hmoves, hgots, hbytes⟩ :=
        ih (before ++ link.outbound.buffer) there' (hreceiver.trans ropen)
      refine ⟨link.outbound.buffer ++ bytes, atEnd, .got number link.outbound.buffer :: es, ?_,
        hmove.trans hmoves, ?_, ?_⟩
      · rw [hanswer, List.append_assoc]
      · intro x hx
        rcases List.mem_cons.mp hx with rfl | hrest
        · exact ⟨_, rfl⟩
        · exact hgots x hrest
      · rw [List.flatMap_cons, hbytes]
        simp [Influence.gotOn]

/-! ## §3. Steps. -/

/-- A call does what it does while the caller has the supervisor, and nothing
otherwise. -/
theorem call_moves {f : Simulation → Simulation × Except SupervisorError Unit}
    {comes : Influence → Prop}
    (h : s.released = false → ∃ es, Moves s es (f s).1 ∧ ∀ x ∈ es, comes x) :
    ∃ es, Moves s es (s.call f).1 ∧ ∀ x ∈ es, comes x := by
  unfold call
  split
  next => exact ⟨[], .refl, by simp⟩
  next hreleased => exact h (by simpa using hreleased)

/-- Something that the receiver does once. -/
theorem receiverDoes_moves {number : Nat} {f : Link → Link}
    (change : ∀ link : Link, link.Change number [] (f link)) :
    Moves s [] (s.receiverDoes number f).1 := by
  unfold receiverDoes
  split
  next link hthere =>
    split
    next => exact onLink_moves hthere (change link)
    next => exact .refl
  next => exact .refl

/-- A failure is prepared. -/
theorem fail_moves (s : Simulation) (number : Nat) (operation : LinkOperation) (kind : IoKind) :
    ∃ es, Moves s es (s.onLink number (·.prepare operation kind))
      ∧ ∀ x ∈ es, (Action.fail number operation kind).Brings x := by
  cases hthere : s.links[number]? with
  | none => exact ⟨[], onLink_missing hthere, by simp⟩
  | some link =>
    by_cases hread : operation = .read
    · subst hread
      refine ⟨_, onLink_moves hthere (.failRead kind), ?_⟩
      intro x hx
      rw [List.mem_singleton.mp hx]
      rfl
    · exact ⟨_, onLink_moves hthere (.fail kind hread), by simp⟩

/-- A step at an end of a link that the receiver does not have (any more). -/
theorem closed_moves {a : Action} (hstep : s.step a = (s, .closed)) :
    ∃ es, Moves s es (s.step a).1 ∧ Told [(a, (s.step a).2)] es := by
  rw [hstep]
  refine ⟨[], .refl, .nothing ?_ ?_ ?_⟩
  · intro n
    cases a <;> rfl
  · intro n
    cases a <;> rfl
  · cases a <;> rfl

/-- The receiver does not have its end of the link, or not any more. -/
def Gone (s : Simulation) (number : Nat) : Prop :=
  ∀ link, s.links[number]? = some link → link.receiverOpen = false

theorem there_or_gone (s : Simulation) (number : Nat) :
    (∃ link, s.links[number]? = some link ∧ link.receiverOpen = true) ∨ s.Gone number := by
  unfold Gone
  cases s.links[number]? with
  | none => exact .inr fun link hlink => nomatch hlink
  | some link =>
    cases ropen : link.receiverOpen with
    | true => exact .inl ⟨link, rfl, ropen⟩
    | false =>
      refine .inr ?_
      intro link' hlink
      cases hlink
      exact ropen

theorem Gone.receiverWrite {number : Nat} (h : s.Gone number) (n count : Nat)
    (bytes : List UInt8) :
    Simulation.receiverWrite number (n + 1) count bytes s = (s, .closed) := by
  unfold Simulation.receiverWrite
  cases there : s.links[number]? with
  | none => rfl
  | some link =>
    dsimp only
    rw [h link there]
    rfl

theorem Gone.receiverRead {number : Nat} (h : s.Gone number) (n : Nat) (before : List UInt8) :
    Simulation.receiverRead number (n + 1) before s = (s, .closed) := by
  unfold Simulation.receiverRead
  cases there : s.links[number]? with
  | none => rfl
  | some link =>
    dsimp only
    rw [h link there]
    rfl

theorem step_receiverWrite (s : Simulation) (number : Nat) (bytes : List UInt8) :
    ∃ es, Moves s es (s.step (.receiverWrite number bytes)).1
      ∧ Told [(.receiverWrite number bytes, (s.step (.receiverWrite number bytes)).2)] es := by
  rcases s.there_or_gone number with ⟨link, there, ropen⟩ | hgone
  · obtain ⟨k, broken, es, hanswer, hmoves, hputs, htaken⟩ :=
      receiverWrite_moves (bytes.length + 1) 0 bytes there ropen
    refine ⟨es, hmoves, ?_⟩
    show Told [(_, (receiverWrite number (bytes.length + 1) 0 bytes s).2)] es
    rw [hanswer, Nat.zero_add]
    exact .puts hputs htaken
  · exact closed_moves (hgone.receiverWrite _ _ bytes)

theorem step_receiverRead (s : Simulation) (number : Nat) :
    ∃ es, Moves s es (s.step (.receiverRead number)).1
      ∧ Told [(.receiverRead number, (s.step (.receiverRead number)).2)] es := by
  rcases s.there_or_gone number with ⟨link, there, ropen⟩ | hgone
  · obtain ⟨bytes, atEnd, es, hanswer, hmoves, hgots, hbytes⟩ :=
      receiverRead_moves (link.outbound.buffer.length + s.outboundWork + 1) [] there ropen
    have hstep : s.step (.receiverRead number)
        = receiverRead number (link.outbound.buffer.length + s.outboundWork + 1) [] s := by
      show receiverRead number (_ + s.outboundWork + 1) [] s = _
      rw [there]
    rw [hstep]
    refine ⟨es, hmoves, ?_⟩
    rw [hanswer, List.nil_append]
    exact .gots hgots hbytes
  · exact closed_moves (hgone.receiverRead _ [])

theorem step_send (s : Simulation) (command : List UInt8) :
    ∃ es, Moves s es (s.step (.send command)).1
      ∧ Told [(.send command, (s.step (.send command)).2)] es := by
  by_cases hreleased : s.released = true
  · refine closed_moves ?_
    show s.call (Simulation.send · command) = _
    unfold call
    rw [if_pos hreleased]
  · have hstep : s.step (.send command) = ((s.send command).1, .ofCall (s.send command).2) := by
      show s.call (Simulation.send · command) = _
      unfold call
      rw [if_neg hreleased]
    rw [hstep]
    rcases send_moves (by simpa using hreleased) command with ⟨hok, hmoves⟩ | ⟨hfailed, hmoves⟩
    · rw [hok]
      refine ⟨_, hmoves, fun _ => rfl, fun _ => rfl, rfl, ?_⟩
      intro x hx
      rw [List.mem_singleton.mp hx]
      exact ⟨_, List.mem_singleton_self _, rfl⟩
    · refine ⟨[], hmoves, .nothing (fun _ => rfl) (fun _ => rfl) ?_⟩
      cases hresult : (s.send command).2 with
      | ok => exact absurd hresult hfailed
      | error e => rfl

/-- A call with which no command is accepted. -/
theorem step_call {a : Action} (f : Simulation → Simulation × Except SupervisorError Unit)
    (hstep : s.step a = s.call f) (hwrite : ∀ n bytes, a ≠ .receiverWrite n bytes)
    (hread : ∀ n, a ≠ .receiverRead n) (hsend : ∀ bytes, a ≠ .send bytes)
    (hmoves : s.released = false → ∃ es, Moves s es (f s).1 ∧ ∀ x ∈ es, a.Brings x) :
    ∃ es, Moves s es (s.step a).1 ∧ Told [(a, (s.step a).2)] es := by
  rw [hstep]
  obtain ⟨es, hmoves, hcomes⟩ := call_moves hmoves
  exact ⟨es, hmoves, .of_brings hcomes hwrite hread hsend⟩

/-- **A step of a scenario is a sequence of moves**, and its answer tells what
came from outside. -/
theorem step_moves (h : Tidy s) (a : Action) :
    ∃ es, Moves s es (s.step a).1 ∧ Told [(a, (s.step a).2)] es := by
  have hquiet : ∀ {s' : Simulation}, Moves s [] s' →
      ∃ es, Moves s es s' ∧ ∀ x ∈ es, a.Brings x :=
    fun hmoves => ⟨[], hmoves, by simp⟩
  have hcancel : ∀ {s' : Simulation}, a.Brings .cancelled →
      (∃ es, Moves s es s' ∧ ∀ x ∈ es, x = .cancelled) →
      ∃ es, Moves s es s' ∧ ∀ x ∈ es, a.Brings x := by
    rintro s' hbrings ⟨es, hmoves, hcancelled⟩
    exact ⟨es, hmoves, fun x hx => hcancelled x hx ▸ hbrings⟩
  cases a with
  | accept capacity delay =>
    exact ⟨[], .calm (.accept _ _), .nothing (fun _ => rfl) (fun _ => rfl) rfl⟩
  | refuse kind delay =>
    refine ⟨[], .calm (.steer (.silent rfl rfl rfl rfl rfl) rfl ?_ rfl (.inl rfl) .inl),
      .nothing (fun _ => rfl) (fun _ => rfl) rfl⟩
    show (s.watch.link?.toList ++ (s.plan ++ [_]).flatMap _).Sublist _
    rw [List.flatMap_append]
    simp [Attempt.link?, Except.toOption, upcoming]
  | connect =>
    exact step_call connect rfl (by simp) (by simp) (by simp) fun released =>
      hquiet (connect_moves h released)
  | send command => exact s.step_send command
  | setPort text =>
    exact step_call (Simulation.setPort · text) rfl (by simp) (by simp) (by simp) fun _ =>
      hquiet (setPort_moves s text)
  | shutdown =>
    exact step_call (fun s => (s.shutdown, .ok ())) rfl (by simp) (by simp) (by simp) fun _ =>
      hcancel (.inl rfl) s.shutdown_moves
  | drop =>
    exact step_call (fun s => (s.release, .ok ())) rfl (by simp) (by simp) (by simp) fun _ =>
      hcancel (.inr rfl) s.release_moves
  | dropConsumer =>
    refine ⟨_, .calm .leave, fun _ => rfl, fun _ => rfl, rfl, ?_⟩
    intro x hx
    rw [List.mem_singleton.mp hx]
    exact ⟨_, List.mem_singleton_self _, rfl⟩
  | advance ms => exact ⟨[], elapse_moves ms h, .nothing (fun _ => rfl) (fun _ => rfl) rfl⟩
  | fail number operation kind =>
    obtain ⟨es, hmoves, hcomes⟩ := s.fail_moves number operation kind
    exact ⟨es, hmoves, .of_brings hcomes (by simp) (by simp) (by simp)⟩
  | receiverShutdown number =>
    exact ⟨[], receiverDoes_moves fun _ => .shutdown, .nothing (fun _ => rfl) (fun _ => rfl) rfl⟩
  | receiverClose number =>
    exact ⟨[], receiverDoes_moves fun _ => .hangUp, .nothing (fun _ => rfl) (fun _ => rfl) rfl⟩
  | receiverWrite number bytes => exact s.step_receiverWrite number bytes
  | receiverRead number => exact s.step_receiverRead number

/-! ## §4. Runs. -/

/-- The steps of a run with their answers. -/
def answers (s : Simulation) : List Action → List (Action × Answer)
  | [] => []
  | a :: rest => (a, (s.step a).2) :: (s.step a).1.answers rest

theorem run_append (s : Simulation) (a b : List Action) : s.run (a ++ b) = (s.run a).run b :=
  List.foldl_append

theorem answers_append (s : Simulation) (a b : List Action) :
    s.answers (a ++ b) = s.answers a ++ (s.run a).answers b := by
  induction a generalizing s with
  | nil => rfl
  | cons x rest ih =>
    show _ :: (s.step x).1.answers (rest ++ b) = _
    rw [ih]
    rfl

theorem answers_fst (s : Simulation) (actions : List Action) :
    (s.answers actions).map Prod.fst = actions := by
  induction actions generalizing s with
  | nil => rfl
  | cons a rest ih =>
    show a :: ((s.step a).1.answers rest).map Prod.fst = _
    rw [ih]

/-- **A run is a sequence of moves**, and the answers tell what came from
outside. -/
theorem run_moves (h : Tidy s) (actions : List Action) :
    ∃ es, Moves s es (s.run actions) ∧ Told (s.answers actions) es := by
  induction actions generalizing s with
  | nil => exact ⟨[], .refl, ⟨fun _ => rfl, fun _ => rfl, rfl, by simp⟩⟩
  | cons a rest ih =>
    obtain ⟨es, hmoves, htold⟩ := step_moves h a
    obtain ⟨es', hmoves', htold'⟩ := ih (hmoves.tidy h)
    exact ⟨es ++ es', hmoves.trans hmoves', htold.append htold'⟩

/-- What comes from outside comes with a step of the run. -/
theorem Told.brings {actions : List Action} {es : List Influence}
    (h : Told (s.answers actions) es) {x : Influence} (hx : x ∈ es) :
    ∃ a ∈ actions, a.Brings x := by
  obtain ⟨p, hp, hbrings⟩ := h.comes x hx
  refine ⟨p.1, ?_, hbrings⟩
  rw [← s.answers_fst actions]
  exact List.mem_map_of_mem hp

end Simulation

end ReceiverLink
