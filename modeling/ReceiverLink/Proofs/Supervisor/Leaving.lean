/-
  ReceiverLink.Proofs.Supervisor.Leaving
  ────────────────────────────────
  **A consumer that goes away.**

  The telegrams of a run are the same whether their consumer stays or goes
  away: they are handed over in the same order, and from the moment at which
  it has gone each of them is dropped instead of received.

  Main statements:
    * `Moves.present` — a consumer that stays receives all that is handed over;
    * `run_leaving` — how a run differs from one in which the consumer stays;
    * `run_handed` — what every run hands over.
-/
import ReceiverLink.Proofs.Supervisor.Circumstances
import ReceiverLink.Proofs.Supervisor.Inbound

namespace ReceiverLink

/-! ## §1. What is handed over. -/

/-- The outcome of handing a telegram over. -/
def Happening.handover? : Happening → Option Handover
  | .handover outcome => some outcome
  | _ => none

theorem Happening.consumedOn_under (c : Circumstances) (n : Nat) (h : Happening) :
    (h.under c).consumedOn n = h.consumedOn n := by
  cases h <;> rfl

theorem Happening.handover?_under (c : Circumstances) (h : Happening) :
    (h.under c).handover? = h.handover?.map (Handover.under c) := by
  cases h <;> rfl

/-- A telegram is dropped. -/
def Happening.isDrop : Happening → Bool
  | .handover (.dropped _) => true
  | _ => false

theorem Happening.isDrop_of_side {h : Happening} (hside : h.side ≠ .reading) :
    h.isDrop = false := by
  cases h <;> first | rfl | exact absurd rfl hside

namespace Working

variable {w w' : Working}

/-- No telegram is dropped: the consumer is present. -/
def Present (hs : List Happening) : Prop :=
  ∀ x ∈ hs, x.isDrop = false

theorem Present.append {hs more : List Happening} (h : Present hs) (h' : Present more) :
    Present (hs ++ more) := by
  intro x hx
  rcases List.mem_append.mp hx with hfirst | hlast
  · exact h x hfirst
  · exact h' x hlast

theorem present_of_side {hs : List Happening} (h : ∀ x ∈ hs, x.side ≠ .reading) : Present hs :=
  fun x hx => Happening.isDrop_of_side (h x hx)

theorem present_singleton {x : Happening} (h : x.isDrop = false) : Present [x] := by
  intro y hy
  rw [List.mem_singleton.mp hy]
  exact h

/-- While there is a consumer, framing drops no telegram. -/
theorem present_framed (step : Framer.Step) : Present (framed true step) := by
  intro x hx
  rcases eq_of_mem_framed hx with ⟨event, rfl⟩ | ⟨t, rfl⟩
  · rfl
  · rfl

theorem present_dropped (hconsumer : w.consumer = true) {reason : Happening}
    (hreason : reason.isDrop = false) : Present (w.dropped reason) := by
  unfold dropped
  rw [hconsumer]
  exact (present_framed _).append ((present_singleton hreason).append (present_singleton rfl))

theorem Operates.present (hop : Operates w w') (hconsumer : w.consumer = true) :
    ∃ hs, w'.happenings = w.happenings ++ hs ∧ Present hs := by
  cases hop with
  | arrange => exact ⟨[], (List.append_nil _).symm, present_of_side (by simp)⟩
  | read reads =>
    cases reads with
    | stop =>
      rw [stopReading_eq]
      exact ⟨_, happenings_add _ _, present_singleton rfl⟩
    | retry => exact ⟨[], (List.append_nil _).symm, present_of_side (by simp)⟩
    | @fail kind =>
      unfold failReading
      rw [drop_eq]
      exact ⟨_, happenings_add _ _, present_dropped (w := w.forgetReadFault) hconsumer rfl⟩
    | close =>
      unfold endReading
      dsimp only
      rw [drop_eq]
      exact ⟨_, happenings_add _ _, present_dropped hconsumer rfl⟩
    | take =>
      rw [readOnce_eq]
      refine ⟨_, happenings_add _ _, ?_⟩
      unfold received
      rw [hconsumer]
      exact (present_singleton rfl).append (present_framed _)
  | write writes =>
    -- what writing records is nothing that is handed over
    obtain ⟨hs, hrecord, hside⟩ := writes.keepsInbound.record
    refine ⟨hs, hrecord, present_of_side ?_⟩
    intro x hx
    rcases (hside x hx).1 with hwriting | hclosing
    · rw [hwriting]
      decide
    · rw [hclosing]
      decide
  | finish =>
    rw [finish_eq]
    refine ⟨w.cutOff, happenings_add _ _, present_of_side ?_⟩
    intro x hx
    rw [eq_of_mem_cutOff hx]
    decide

/-- While there is a consumer, no telegram is dropped. -/
theorem Works.present (hworks : Works w w') (hconsumer : w.consumer = true) :
    ∃ hs, w'.happenings = w.happenings ++ hs ∧ Present hs := by
  induction hworks with
  | refl => exact ⟨[], (List.append_nil _).symm, present_of_side (by simp)⟩
  | tail hworks hop ih =>
    obtain ⟨hs, hrecord, hpresent⟩ := ih
    obtain ⟨more, hmore, hpresent'⟩ := hop.present ((Works.same hworks).consumer.trans hconsumer)
    exact ⟨hs ++ more, by rw [hmore, hrecord, List.append_assoc], hpresent.append hpresent'⟩

end Working

namespace Simulation

variable {s s' : Simulation} {es : List Influence}

/-- What has been handed over so far, and with which outcome. -/
def handed (s : Simulation) : List Handover :=
  s.happenings.filterMap Happening.handover?

/-- The consumer is there, and has received all that was handed over. -/
structure Present (s : Simulation) : Prop where
  consumer : s.consumer = true
  received : Working.Present s.happenings

theorem Present.of_append {hs : List Happening} (h : s.Present)
    (hconsumer : s'.consumer = s.consumer) (hrecord : s'.happenings = s.happenings ++ hs)
    (hpresent : Working.Present hs) : s'.Present := by
  refine ⟨hconsumer.trans h.consumer, ?_⟩
  rw [hrecord]
  exact h.received.append hpresent

theorem Present.of_apart (h : s.Present) (apart : Apart s s') : s'.Present := by
  obtain ⟨hs, hrecord, hside⟩ := apart.record
  refine h.of_append apart.consumer hrecord (Working.present_of_side ?_)
  intro x hx
  rw [hside x hx]
  decide

theorem Present.enqueue (h : s.Present) (item : Outbound) : (s.enqueue item).Present :=
  h.of_append rfl (happenings_note _ _) (Working.present_singleton rfl)

theorem Move.present (hmove : Move s es s') (hstays : .consumerLeft ∉ es) (h : s.Present) :
    s'.Present := by
  cases hmove with
  | calm hcalm =>
    cases hcalm with
    | steer apart => exact h.of_apart apart
    | detach => exact ⟨h.consumer, h.received⟩
    | dismiss apart => exact Present.of_apart (s := s.dismiss) ⟨h.consumer, h.received⟩ apart
    | accept => exact ⟨h.consumer, h.received⟩
    | leave => exact absurd (List.mem_singleton_self _) hstays
  | @stir t hstir =>
    have hready : t.Present := by
      cases hstir with
      | nothing => exact h
      | up link apart => exact h.of_apart apart
      | enqueue item _ _ apart => exact (h.enqueue item).of_apart apart
      | cancel => exact ⟨h.consumer, h.received⟩
      | change => exact ⟨h.consumer, h.received⟩
    refine settle_rule hready ?_
    intro t link w _ _ hworks
    obtain ⟨hs, hrecord, hpresent⟩ := hworks.present hready.consumer
    have hhs : w.happenings = hs := hrecord
    exact hready.of_append rfl (happenings_absorb _ _) (hhs ▸ hpresent)

/-- **A consumer that stays receives all that is handed over.** -/
theorem Moves.present (hmoves : Moves s es s') (hstays : .consumerLeft ∉ es) (h : s.Present) :
    s'.Present := by
  induction hmoves with
  | refl => exact h
  | tail _ hmove ih =>
    rw [List.mem_append, not_or] at hstays
    exact hmove.present hstays.2 (ih hstays.1)

/-- So what it is handed are the telegrams that it has. -/
theorem Present.handed (h : s.Present) :
    s.handed = (s.happenings.filterMap Happening.telegram?).map (.push true) := by
  have hreceived := h.received
  unfold Simulation.handed
  generalize s.happenings = hs at hreceived ⊢
  induction hs with
  | nil => rfl
  | cons x rest ih =>
    have hrest := ih fun y hy => hreceived y (List.mem_cons_of_mem x hy)
    cases x with
    | handover outcome =>
      cases outcome with
      | received t => exact congrArg (Handover.received t :: ·) hrest
      | dropped format => cases hreceived _ List.mem_cons_self
    | _ => exact hrest

/-! ## §2. Whether the consumer stays or not. -/

/-- The consumer has gone away. -/
def gone : Circumstances :=
  { stays := false }

/-- The consumer goes away: what has been recorded before stays as it is. -/
theorem left_eq (s : Simulation) :
    { s with consumer := false } = s.unlogged.under gone s.record :=
  calc { s with consumer := false }
      = { s.unlogged.under {} s.record with consumer := false } := by rw [unlogged_under]
    _ = { s.unlogged.under gone s.record with consumer := false } := by
      unfold under recordUnder
      rw [show s.unlogged.record = #[] from rfl, Array.map_empty, Array.map_empty]
      rfl
    _ = s.unlogged.under gone s.record := by
      unfold under
      rw [show gone.stays = false from rfl, Bool.and_false]

/-- Once it has gone, it can go away again. -/
theorem run_gone (past : Array (Nat × Happening)) (actions : List Action) (s : Simulation) :
    (s.run actions).under gone past
      = (s.run (actions.filter (· ≠ .dropConsumer))).under gone past := by
  induction actions generalizing s with
  | nil => rfl
  | cons a rest ih =>
    have hrun : s.run (a :: rest) = (s.step a).1.run rest := rfl
    by_cases ha : a = .dropConsumer
    · subst ha
      have hleft : ({ s with consumer := false } : Simulation).under gone past
          = s.under gone past := by
        unfold under
        rw [show gone.stays = false from rfl, Bool.and_false, Bool.and_false]
      rw [List.filter_cons_of_neg (by simp), ← ih, hrun, ← run_under, ← run_under]
      exact congrArg (run · rest) hleft
    · rw [List.filter_cons_of_pos (by simpa using ha), hrun, ih]
      rfl

theorem happenings_under (c : Circumstances) (past : Array (Nat × Happening)) (s : Simulation) :
    (s.under c past).happenings
      = past.toList.map Prod.snd ++ s.happenings.map (Happening.under c) := by
  unfold happenings under recordUnder
  simp [Function.comp_def]

/-- When the consumer goes away in a run, if it does: before the telegram with this index is handed
over. -/
inductive Leaves (s : Simulation) (actions : List Action) : Option Nat → Prop
  | never (stays : .dropConsumer ∉ actions) : Leaves s actions none
  | after {before rest : List Action} (steps : actions = before ++ .dropConsumer :: rest)
      (first : .dropConsumer ∉ before) : Leaves s actions (some (s.run before).handed.length)

theorem Leaves.eq_none {actions : List Action} {leaving : Option Nat}
    (h : Leaves s actions leaving) (hstays : .dropConsumer ∉ actions) : leaving = none := by
  cases h with
  | never => rfl
  | after steps =>
    refine absurd ?_ hstays
    rw [steps]
    exact List.mem_append_right _ List.mem_cons_self

/-- A run, and one in which the consumer stays. -/
structure Alongside (s t : Simulation) (hs hs' : List Happening) : Prop where
  config : s.config = t.config
  size : s.links.size = t.links.size
  staying : t.happenings = hs ++ hs'
  leaving : s.happenings = hs ++ hs'.map (Happening.under gone)

/-- **A consumer that goes away** changes nothing but the outcomes of what is
handed over from then on. -/
theorem run_leaving (s : Simulation) (actions : List Action) :
    ∃ staying hs hs', .dropConsumer ∉ staying
      ∧ Alongside (s.run actions) (s.run staying) hs hs'
      ∧ ((.dropConsumer ∉ actions ∧ hs' = [])
        ∨ ∃ before rest, actions = before ++ .dropConsumer :: rest ∧ .dropConsumer ∉ before
          ∧ hs = (s.run before).happenings) := by
  by_cases hleaves : .dropConsumer ∈ actions
  · obtain ⟨before, after, rfl, hbefore⟩ := List.eq_append_cons_of_mem hleaves
    let m : Simulation := s.run before
    let after' : List Action := after.filter (· ≠ .dropConsumer)
    let z : Simulation := m.unlogged.run after'
    -- the steps that come after are the same, only that they are taken without a consumer
    have hwithout : s.run (before ++ .dropConsumer :: after) = z.under gone m.record := by
      rw [run_append]
      show ({ m with consumer := false } : Simulation).run after = _
      rw [left_eq, run_under, run_gone]
    have hwith : s.run (before ++ after') = z.under {} m.record := by
      rw [run_append, ← run_under, unlogged_under]
    refine ⟨before ++ after', m.happenings, z.happenings, ?_, ⟨?_, ?_, ?_, ?_⟩, ?_⟩
    · rw [List.mem_append, not_or]
      exact ⟨hbefore, by simp [after']⟩
    · rw [hwithout, hwith]
      rfl
    · rw [hwithout, hwith]
      rfl
    · rw [hwith, under_same]
      simp [happenings]
    · rw [hwithout, happenings_under]
      rfl
    · exact .inr ⟨before, after, rfl, hbefore, rfl⟩
  · refine ⟨actions, (s.run actions).happenings, [], hleaves, ⟨rfl, rfl, ?_, ?_⟩,
      .inl ⟨hleaves, rfl⟩⟩
    · rw [List.append_nil]
    · rw [List.map_nil, List.append_nil]

namespace Alongside

variable {t : Simulation} {hs hs' : List Happening}

/-- The same is read. -/
theorem consumedOn (h : Alongside s t hs hs') (n : Nat) : s.consumedOn n = t.consumedOn n := by
  unfold Simulation.consumedOn
  rw [h.leaving, h.staying, List.flatMap_append, List.flatMap_append, List.flatMap_map]
  simp only [Happening.consumedOn_under]

/-- The same telegrams are handed over; those that come late are dropped. -/
theorem handed (h : Alongside s t hs hs') {ts : List Telegram}
    (hts : t.handed = ts.map (.push true)) :
    s.handed = Handover.pushAll (some (hs.filterMap Happening.handover?).length) ts := by
  have hboth : hs.filterMap Happening.handover? ++ hs'.filterMap Happening.handover?
      = ts.map (.push true) := by
    rw [← hts, ← List.filterMap_append, ← h.staying]
    rfl
  obtain ⟨early, late, rfl, hearly, hlate⟩ := List.map_eq_append_iff.mp hboth.symm
  have hgone : (hs'.map (Happening.under gone)).filterMap Happening.handover?
      = late.map (.push false) := by
    rw [List.filterMap_map]
    show hs'.filterMap (fun x => (x.under gone).handover?) = _
    simp only [Happening.handover?_under]
    rw [← List.map_filterMap, ← hlate, List.map_map]
    exact List.map_congr_left fun x _ => Handover.push_under true x
  have hlength : early.length = (hs.filterMap Happening.handover?).length := by
    rw [← hearly, List.length_map]
  rw [← hlength]
  show s.happenings.filterMap _ = ((early ++ late).take _).map _ ++ ((early ++ late).drop _).map _
  rw [h.leaving, List.filterMap_append, ← hearly, hgone, List.take_left, List.drop_left]

end Alongside

/-- **What a run hands over** are the telegrams that framing gives, link by link; from the moment
at which the consumer goes away, if it does, they are dropped. -/
theorem run_handed (hsteady : s.Steady) (hreceived : s.Received) (hpresent : s.Present)
    (actions : List Action) :
    ∃ leaving ts, Leaves s actions leaving
      ∧ (s.run actions).handed = Handover.pushAll leaving ts
      ∧ ts.map Telegram.frame = (s.run actions).framesUpTo (s.run actions).links.size := by
  obtain ⟨staying, hs, hs', hnone, halong, hwhen⟩ := s.run_leaving actions
  obtain ⟨es, hmoves, htold⟩ := run_moves hsteady.tidy staying
  have hconsumer : .consumerLeft ∉ es := by
    intro hmem
    obtain ⟨a, ha, hbrings⟩ := Told.brings htold hmem
    exact hnone (hbrings ▸ ha)
  have hhanded := (hmoves.present hconsumer hpresent).handed
  have hframes := (hmoves.received hsteady hconsumer hreceived).frames
  have hsame : (s.run actions).framesUpTo (s.run actions).links.size
      = (s.run staying).framesUpTo (s.run staying).links.size := by
    rw [halong.size]
    exact framesUpTo_congr halong.config fun n _ => halong.consumedOn n
  rw [hsame, ← hframes]
  rcases hwhen with ⟨hstays, rfl⟩ | ⟨before, rest, hsteps, hfirst, rfl⟩
  · refine ⟨none, _, .never hstays, ?_, rfl⟩
    have hrecord : (s.run actions).happenings = (s.run staying).happenings := by
      rw [halong.leaving, halong.staying, List.map_nil]
    exact (congrArg (List.filterMap Happening.handover?) hrecord).trans hhanded
  · exact ⟨_, _, .after hsteps hfirst, halong.handed hhanded, rfl⟩

end Simulation

end ReceiverLink
