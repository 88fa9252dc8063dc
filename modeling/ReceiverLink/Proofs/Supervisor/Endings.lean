/-
  ReceiverLink.Proofs.Supervisor.Endings
  ────────────────────────────────
  **A link that ends by itself has given all its bytes.**

  A link is over when the receiver has closed it and all its bytes are taken,
  when a read fails, or when the supervisor is told to end.  So if no read is
  made to fail and nobody ends the supervisor, a link that is let go has given
  all that the receiver had put there.

  Main statements:
    * `Moves.patient` — moves that spare a link keep this;
    * `inbound_account` — what a run reads and hands over.
-/
import ReceiverLink.Proofs.Supervisor.Inbound

namespace ReceiverLink

/-- It does not end the link before the receiver has ended it. -/
def Influence.Spares (n : Nat) : Influence → Prop
  | .cancelled => False
  | .readFault m kind => m = n → kind = .interrupted
  | _ => True

namespace Simulation

variable {s s' : Simulation} {es es' : List Influence} {n : Nat}

/-! ## §1. All bytes are taken. -/

/-- All bytes of the link are taken, and no more can come. -/
def Spent (s : Simulation) (n : Nat) : Prop :=
  ∃ link, s.links[n]? = some link ∧ link.inbound.atEnd = true

theorem Spent.waiting (h : s.Spent n) : s.waiting n = [] := by
  obtain ⟨link, hlink, hend⟩ := h
  unfold Simulation.waiting
  rw [hlink]
  exact List.isEmpty_iff.mp (Bool.and_eq_true_iff.mp hend).1

theorem Spent.of_links (hlinks : s'.links = s.links) (h : s.Spent n) : s'.Spent n := by
  unfold Spent
  rw [hlinks]
  exact h

/-- Who has closed a side does not write there. -/
theorem atEnd_of_change {number : Nat} {l l' : Link} (h : l.Change number es l')
    (hend : l.inbound.atEnd = true) : l'.inbound.atEnd = true := by
  obtain ⟨hempty, hclosed⟩ := Bool.and_eq_true_iff.mp hend
  cases h with
  | @fail operation => cases operation <;> exact hend
  | put bytes whole =>
    obtain ⟨-, hopen⟩ := Bool.or_eq_false_iff.mp whole
    rw [hopen] at hclosed
    cases hclosed
  | shutdown => exact Bool.and_eq_true_iff.mpr ⟨hempty, rfl⟩
  | hangUp => exact Bool.and_eq_true_iff.mpr ⟨hempty, rfl⟩
  | _ => exact hend

theorem atEnd_lasts : Link.Lasts fun l => l.inbound.atEnd = true :=
  ⟨fun _ hend => hend, atEnd_of_change, fun hworks => hworks.inflow.atEnd⟩

theorem Calm.spent (hcalm : Calm s es s') (h : s.Spent n) : s'.Spent n :=
  hcalm.lasts atEnd_lasts h

theorem Stir.spent (hstir : Stir s es s') (h : s.Spent n) : s'.Spent n :=
  hstir.lasts atEnd_lasts h

theorem settle_spent (h : s.Spent n) : s.settle.Spent n :=
  settle_link atEnd_lasts.works h

theorem Moves.spent (hmoves : Moves s es s') (h : s.Spent n) : s'.Spent n :=
  hmoves.lasts atEnd_lasts h

/-! ## §2. A link that ends by itself has given all. -/

/-- No read on the link fails, and it is over or let go only if all its bytes
are taken. -/
structure Patient (s : Simulation) (n : Nat) : Prop where
  fault : ∀ link, s.links[n]? = some link →
    ∀ kind, link.faults.read = some kind → kind = .interrupted
  ended : ∀ t, s.transfer = some t → t.number = n → t.ended = true → s.Spent n
  gone : s.LetGo n → s.Spent n

theorem start_patient (pace : Pace) (config : SupervisorConfig) (endpoint : Endpoint) :
    Patient (start pace config endpoint) n := by
  refine ⟨?_, ?_, ?_⟩
  · intro link hlink
    cases hlink
  · intro t ht
    cases ht
  · rintro ⟨link, hlink, -⟩
    cases hlink

/-- The links stay as they are. -/
theorem Patient.of_links (h : s.Patient n) (hlinks : s'.links = s.links)
    (hended : ∀ t, s'.transfer = some t → t.number = n → t.ended = true →
      ∃ u, s.transfer = some u ∧ u.number = n ∧ u.ended = true) : s'.Patient n := by
  refine ⟨?_, ?_, ?_⟩
  · rw [hlinks]
    exact h.fault
  · intro t ht hn htended
    obtain ⟨u, hu, hun, huended⟩ := hended t ht hn htended
    exact (h.ended u hu hun huended).of_links hlinks
  · intro hgone
    have hgone : s.LetGo n := by
      unfold LetGo at hgone ⊢
      rwa [hlinks] at hgone
    exact (h.gone hgone).of_links hlinks

theorem Calm.patient (hcalm : Calm s es s') (hspares : ∀ x ∈ es, x.Spares n)
    (h : s.Patient n) : s'.Patient n := by
  cases hcalm with
  | steer apart transfer =>
    refine h.of_links apart.links ?_
    rw [transfer]
    exact fun t ht hn hended => ⟨t, ht, hn, hended⟩
  | detach => exact h.of_links rfl fun t ht => nomatch ht
  | dismiss apart transfer =>
    have hlinks : s'.links = s.links := by
      rcases s.dismiss_links with ⟨-, hlinks⟩ | ⟨m, hwatch, -⟩
      · exact apart.links.trans hlinks
      · -- giving up an attempt is a cancellation
        rw [hwatch] at hspares
        exact absurd (hspares _ (List.mem_singleton_self _)) id
    refine h.of_links hlinks ?_
    rw [transfer]
    exact fun t ht hn hended => ⟨t, ht, hn, hended⟩
  | accept capacity delay =>
    have hspent : s.Spent n → Spent { s with
        links := s.links.push (.new capacity)
        plan := s.plan ++ [⟨.ok s.links.size, delay⟩] } n := (Calm.accept capacity delay).spent
    refine ⟨?_, fun t ht hn hended => hspent (h.ended t ht hn hended), ?_⟩
    · intro link hlink kind hkind
      -- on a new link no failure is prepared
      have hplace : (s.links.push (.new capacity))[n]? = some link := hlink
      rw [Array.getElem?_push] at hplace
      split at hplace
      next =>
        cases hplace
        cases hkind
      next => exact h.fault link hplace kind hkind
    · exact fun hgone => hspent (h.gone hgone.of_accept)
  | leave => exact h.of_links rfl fun t ht hn hended => ⟨t, ht, hn, hended⟩

theorem Stir.patient (hstir : Stir s es s') (hspares : ∀ x ∈ es, x.Spares n)
    (h : s.Patient n) : s'.Patient n := by
  cases hstir with
  | nothing => exact h
  | up link apart _ _ _ transfer =>
    refine h.of_links apart.links ?_
    -- a transfer that is new is not to end
    intro t ht _ hended
    rw [transfer] at ht
    cases ht
    cases hended
  | enqueue item going _ apart transfer =>
    refine h.of_links apart.links ?_
    rw [transfer]
    exact fun t ht hn hended => ⟨t, ht, hn, hended⟩
  | cancel => exact absurd (hspares _ (List.mem_singleton_self _)) id
  | @change number link link' _ there change =>
    have hspent : s.Spent n → Spent { s with links := s.links.setIfInBounds number link' } n :=
      (Stir.change there change).spent
    refine ⟨?_, fun t ht hn hended => hspent (h.ended t ht hn hended), ?_⟩
    · intro l hl kind hkind
      have hplace : (s.links.setIfInBounds number link')[n]? = some l := hl
      rw [getElem?_replaced there] at hplace
      by_cases hn : number = n
      · subst hn
        rw [if_pos rfl] at hplace
        cases hplace
        have hsame := h.fault link there kind
        cases change with
        | failRead =>
          cases hkind
          exact hspares _ (List.mem_singleton_self _) rfl
        | @fail operation _ hother =>
          cases operation with
          | read => exact absurd rfl hother
          | _ => exact hsame hkind
        | _ => exact hsame hkind
      · rw [if_neg hn] at hplace
        exact h.fault l hplace kind hkind
    · exact fun hgone => hspent (h.gone ((letGo_of_change there change).mp hgone))

/-- The link of the transfer has done all that it can do. -/
theorem Patient.absorb {w : Working} (hplace : (s.absorb w).links[n]? = some w.link)
    (hpatient : w.Patient) (hended : w.link.inbound.readerOpen = false → w.transfer.ended = true) :
    (s.absorb w).Patient n := by
  refine ⟨?_, ?_, ?_⟩
  · intro l hl
    rw [hplace] at hl
    cases hl
    exact hpatient.fault
  · intro u hu _ hend
    cases hu
    exact ⟨w.link, hplace, hpatient.ended hend⟩
  · rintro ⟨l, hl, hgone⟩
    rw [hplace] at hl
    cases hl
    exact ⟨w.link, hplace, hpatient.ended (hended hgone)⟩

/-- Any other link is left as it is. -/
theorem Patient.absorb_other {w : Working} (h : s.Patient n)
    (hplace : (s.absorb w).links[n]? = s.links[n]?) (hother : w.transfer.number ≠ n) :
    (s.absorb w).Patient n := by
  refine ⟨?_, ?_, ?_⟩
  · rw [hplace]
    exact h.fault
  · intro u hu hun
    cases hu
    exact absurd hun hother
  · intro hgone
    unfold LetGo Spent at *
    rw [hplace] at hgone ⊢
    exact h.gone hgone

theorem settle_patient (hattached : s.Attached) (h : s.Patient n) : s.settle.Patient n := by
  rcases s.settle_cases with hsame | ⟨t, link, htransfer, hthere, hsettle⟩
  · rw [hsame]
    exact h
  obtain ⟨hsane, link', hthere', hholds⟩ := hattached t htransfer
  rw [hthere] at hthere'
  cases hthere'
  have hworks := (s.working t link).settle_works
  have hheld := Working.settle_holds hholds
  have hrest : (s.working t link).settle.isReady = false := Working.settle_rests hsane
  generalize (s.working t link).settle = w at hworks hheld hrest hsettle
  have hnumber : w.transfer.number = t.number := hworks.same.number
  rw [hsettle]
  by_cases hn : t.number = n
  · subst hn
    have hpatient : w.Patient := by
      refine hworks.patient ⟨h.fault link hthere, ?_⟩
      intro hended
      obtain ⟨l, hl, hend⟩ := h.ended t htransfer rfl hended
      rw [hthere] at hl
      cases hl
      exact hend
    refine Patient.absorb ?_ hpatient ?_
    · rw [getElem?_absorb hnumber hthere, if_pos rfl]
    · -- at rest a link that is let go is over
      intro hgone
      have hdone := (Working.isDone_of_rest (hworks.sane hsane) hrest).1
      have hopen : w.link.inbound.readerOpen = !w.transfer.isDone := hheld
      rw [hgone, hdone] at hopen
      simpa using hopen.symm
  · refine h.absorb_other ?_ (fun hw => hn (hnumber.symm.trans hw))
    rw [getElem?_absorb hnumber hthere, if_neg hn]

/-- **A link that ends by itself has given all its bytes.** -/
theorem Moves.patient (hmoves : Moves s es s') (hsteady : s.Steady)
    (hspares : ∀ x ∈ es, x.Spares n) (h : s.Patient n) : s'.Patient n := by
  have hall := hmoves.induction
    (P := fun past a => a.Steady ∧ ((∀ x ∈ past, x.Spares n) → a.Patient n)) [] ?_
    ⟨hsteady, fun _ => h⟩
  · exact hall.2 hspares
  · rintro past es a b ⟨hsteady, ha⟩ hmove
    refine ⟨hmove.steady hsteady, ?_⟩
    intro hspares
    have hpatient := ha fun x hx => hspares x (List.mem_append_left _ hx)
    have hlast : ∀ x ∈ es, x.Spares n := fun x hx => hspares x (List.mem_append_right _ hx)
    cases hmove with
    | calm hcalm => exact hcalm.patient hlast hpatient
    | stir hstir =>
      exact settle_patient (hstir.attached hsteady.attached hsteady.ordered)
        (hstir.patient hlast hpatient)

/-! ## §3. Runs. -/

/-- What comes with steps that spare the link spares it. -/
theorem Told.spares {actions : List Action} (h : Told (s.answers actions) es)
    (hshutdown : .shutdown ∉ actions) (hdrop : .drop ∉ actions)
    (hread : ∀ kind, .fail n .read kind ∈ actions → kind = .interrupted) :
    ∀ x ∈ es, x.Spares n := by
  intro x hx
  obtain ⟨a, ha, hbrings⟩ := Told.brings h hx
  cases x with
  | cancelled =>
    rcases hbrings with rfl | rfl
    · exact hshutdown ha
    · exact hdrop ha
  | readFault m kind =>
    rintro rfl
    exact hread kind (hbrings ▸ ha)
  | _ => trivial

/-- **What comes in is framed link by link.**  While there is a consumer, it
has the telegrams that framing gives of the bytes taken from each link, link
after link.  And once a link has ended by itself, all that the receiver has put
on it is taken. -/
theorem inbound_account (pace : Pace) (config : SupervisorConfig) (endpoint : Endpoint)
    (actions : List Action) (hstays : .dropConsumer ∉ actions) :
    framesReceived ((start pace config endpoint).run actions).happenings
        = (List.range ((start pace config endpoint).run actions).links.size).flatMap
            (fun n => framesOf config.maxBlock
              (((start pace config endpoint).run actions).consumedOn n))
      ∧ ∀ before after n, actions = before ++ after →
        ((start pace config endpoint).run before).LetGo n →
        .shutdown ∉ before → .drop ∉ before →
        (∀ kind, .fail n .read kind ∈ before → kind = .interrupted) →
        ((start pace config endpoint).run actions).consumedOn n
          = ((start pace config endpoint).answers actions).flatMap (putBy n) := by
  have hstart := start_steady pace config endpoint
  refine ⟨?_, ?_⟩
  · obtain ⟨es, hmoves, htold⟩ := run_moves hstart.tidy actions
    have hconsumer : .consumerLeft ∉ es := by
      intro hmem
      obtain ⟨a, ha, hbrings⟩ := Told.brings htold hmem
      exact hstays (hbrings ▸ ha)
    have hreceived := hmoves.received hstart hconsumer (start_received pace config endpoint)
    rw [hreceived.frames]
    unfold framesUpTo
    rw [hmoves.config]
    rfl
  · rintro before after n rfl hgone hshutdown hdrop hread
    obtain ⟨es, hmoves, htold⟩ := run_moves hstart.tidy before
    have hpatient := hmoves.patient hstart (Told.spares htold hshutdown hdrop hread)
      (start_patient pace config endpoint)
    obtain ⟨es', hmoves', htold'⟩ := run_moves (hmoves.tidy hstart.tidy) after
    -- what is spent stays so for the rest of the run
    have hspent := hmoves'.spent (hpatient.gone hgone)
    have harrived : Arrived [] (start pace config endpoint) := fun _ => rfl
    have htotal := (hmoves.trans hmoves').arrived harrived n
    rw [run_append, answers_append, ← (htold.append htold').put n]
    rw [hspent.waiting, List.append_nil] at htotal
    exact htotal.symm

/-- The receiver hangs up in the middle of a telegram, and what would be the
rest of it comes on the next link. -/
def hangingUp : List Action :=
  [.accept 8 0, .accept 8 0, .connect, .receiverWrite 0 [0x24, 0x47, 0x50, 0x0D, 0x0A, 0x24],
    .receiverClose 0, .advance 1000, .receiverWrite 1 [0x47, 0x50, 0x0D, 0x0A]]

theorem inbound_account_hangingUp :
    .dropConsumer ∉ hangingUp
      ∧ framesReceived ((start .cooperative {} (.serial {})).run hangingUp).happenings
        = framesOf Block.maxSize [0x24, 0x47, 0x50, 0x0D, 0x0A, 0x24]
          ++ framesOf Block.maxSize [0x47, 0x50, 0x0D, 0x0A]
      ∧ ((start .cooperative {} (.serial {})).run hangingUp).LetGo 0
      ∧ ((start .cooperative {} (.serial {})).run hangingUp).consumedOn 0
        = ((start .cooperative {} (.serial {})).answers hangingUp).flatMap (putBy 0) := by
  have hstays : .dropConsumer ∉ hangingUp := by decide
  obtain ⟨hframes, hconsumed⟩ := inbound_account .cooperative {} (.serial {}) hangingUp hstays
  have hsize : ((start .cooperative {} (.serial {})).run hangingUp).links.size = 2 := by
    decide +kernel
  have hfirst : ((start .cooperative {} (.serial {})).run hangingUp).consumedOn 0
      = [0x24, 0x47, 0x50, 0x0D, 0x0A, 0x24] := by decide +kernel
  have hsecond : ((start .cooperative {} (.serial {})).run hangingUp).consumedOn 1
      = [0x47, 0x50, 0x0D, 0x0A] := by decide +kernel
  have hgone : ((start .cooperative {} (.serial {})).run hangingUp).LetGo 0 := ⟨_, rfl, rfl⟩
  refine ⟨hstays, ?_, hgone, ?_⟩
  · rw [hframes, hsize]
    show framesOf _ (Simulation.consumedOn _ 0)
      ++ (framesOf _ (Simulation.consumedOn _ 1) ++ []) = _
    rw [hfirst, hsecond, List.append_nil]
  · exact hconsumed hangingUp [] 0 (List.append_nil _).symm hgone (by decide) (by decide)
      (by simp [hangingUp])

end Simulation

end ReceiverLink
