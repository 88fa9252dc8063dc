/-
  ReceiverLink.Proofs.Supervisor.Inbound
  ────────────────────────────────
  **What comes in is framed link by link.**

  Over a whole run the consumer receives the telegrams that framing gives of
  the bytes taken from the first link, then those of the second, and so on:
  every link has a framer of its own, and what is in progress when a link ends
  is dropped.  The bytes taken from a link are those at the front of what the
  receiver has put there.

  Main statements:
    * `Moves.received` — the consumer has the telegrams of all links in order;
    * `Moves.arrived` — what was put on a link was taken or waits.
-/
import Mathlib.Data.List.Basic
import ReceiverLink.Proofs.Supervisor.Reception
import ReceiverLink.Proofs.Supervisor.Steady

namespace ReceiverLink

namespace Simulation

variable {s s' : Simulation} {es es' : List Influence} {n : Nat}

/-! ## §1. What is not reading. -/

/-- The bytes taken from a link. -/
def consumedOn (s : Simulation) (n : Nat) : List UInt8 :=
  s.happenings.flatMap (Happening.consumedOn n)

theorem consumedOn_of_append {hs : List Happening} (hrecord : s'.happenings = s.happenings ++ hs)
    (n : Nat) : s'.consumedOn n = s.consumedOn n ++ hs.flatMap (Happening.consumedOn n) := by
  unfold consumedOn
  rw [hrecord, List.flatMap_append]

/-- Of what is about another link nothing is taken here. -/
theorem consumedOn_of_on {hs : List Happening} {number : Nat} (hon : ∀ x ∈ hs, x.On number)
    (hn : n ≠ number) : hs.flatMap (Happening.consumedOn n) = [] := by
  refine List.flatMap_eq_nil_iff.mpr ?_
  intro x hx
  have hlink := hon x hx
  cases x with
  | consumed m bytes =>
    have hm : m = number := hlink m rfl
    exact if_neg (by omega)
  | _ => rfl

theorem consumedOn_of_unrecorded (h : ¬ s.Recorded n) : s.consumedOn n = [] := by
  refine List.flatMap_eq_nil_iff.mpr ?_
  intro x hx
  cases x with
  | consumed m bytes =>
    refine if_neg ?_
    rintro rfl
    exact h ⟨_, hx, rfl⟩
  | _ => rfl

/-- Nothing is read, and nothing handed over. -/
def Unread (s s' : Simulation) : Prop :=
  ∃ hs, s'.happenings = s.happenings ++ hs ∧ ∀ x ∈ hs, x.Unread

theorem Unread.silent (h : s'.happenings = s.happenings) : Unread s s' :=
  ⟨[], by rw [h, List.append_nil], by simp⟩

theorem Unread.of_apart (apart : Apart s s') : Unread s s' := by
  obtain ⟨hs, hrecord, hside⟩ := apart.record
  refine ⟨hs, hrecord, ?_⟩
  intro x hx
  refine Happening.unread_of_side ?_
  rw [hside x hx]
  decide

theorem Unread.enqueue {item : Outbound} (apart : Apart (s.enqueue item) s') : Unread s s' := by
  obtain ⟨hs, hrecord, hunread⟩ := Unread.of_apart apart
  have hqueued : (s.enqueue item).happenings = s.happenings ++ [.queued item] :=
    happenings_note _ _
  refine ⟨.queued item :: hs, ?_, ?_⟩
  · rw [hrecord, hqueued, List.append_assoc]
    rfl
  · intro x hx
    rcases List.mem_cons.mp hx with rfl | hx
    · exact ⟨rfl, fun _ => rfl⟩
    · exact hunread x hx

theorem Unread.consumedOn (h : Unread s s') (n : Nat) : s'.consumedOn n = s.consumedOn n := by
  obtain ⟨hs, hrecord, hunread⟩ := h
  rw [consumedOn_of_append hrecord, consumedOn_of_unread hunread, List.append_nil]

theorem Unread.frames (h : Unread s s') :
    framesReceived s'.happenings = framesReceived s.happenings := by
  obtain ⟨hs, hrecord, hunread⟩ := h
  rw [hrecord, framesReceived_append, framesReceived_of_unread hunread, List.append_nil]

/-! ## §2. The telegrams of all links. -/

/-- The telegrams that framing gives, link by link. -/
def framesUpTo (s : Simulation) (count : Nat) : List (Format × List UInt8) :=
  (List.range count).flatMap fun n => framesOf s.config.maxBlock (s.consumedOn n)

theorem framesUpTo_succ (s : Simulation) (count : Nat) :
    s.framesUpTo (count + 1)
      = s.framesUpTo count ++ framesOf s.config.maxBlock (s.consumedOn count) := by
  unfold framesUpTo
  rw [List.range_succ, List.flatMap_append, List.flatMap_singleton]

theorem framesUpTo_congr {count : Nat} (hconfig : s'.config = s.config)
    (hconsumed : ∀ n < count, s'.consumedOn n = s.consumedOn n) :
    s'.framesUpTo count = s.framesUpTo count := by
  refine List.flatMap_congr ?_
  intro n hn
  rw [hconfig, hconsumed n (List.mem_range.mp hn)]

/-- Links of which nothing was taken give nothing. -/
theorem framesUpTo_of_nil {number count : Nat} (hlt : number < count)
    (hlate : ∀ n, number < n → s.consumedOn n = []) :
    s.framesUpTo count
      = s.framesUpTo number ++ framesOf s.config.maxBlock (s.consumedOn number) := by
  induction count with
  | zero => exact absurd hlt (Nat.not_lt_zero _)
  | succ count ih =>
    rw [framesUpTo_succ]
    by_cases hlast : number = count
    · rw [hlast]
    · rw [ih (by omega), hlate count (by omega), framesOf_nil, List.append_nil]

/-- The consumer has the telegrams of all links in order, and reading goes on
where framing the bytes of the transfer's link has come to. -/
structure Received (s : Simulation) : Prop where
  consumer : s.consumer = true
  frames : framesReceived s.happenings = s.framesUpTo s.links.size
  framer : ∀ t, s.transfer = some t → t.reading = true →
    Framer.Alike t.framer (framing s.config.maxBlock (s.consumedOn t.number)).framer

theorem start_received (pace : Pace) (config : SupervisorConfig) (endpoint : Endpoint) :
    Received (start pace config endpoint) := by
  refine ⟨rfl, rfl, ?_⟩
  intro t ht
  cases ht

/-- Nothing is read. -/
theorem Received.next (h : Received s) (hconfig : s'.config = s.config)
    (hconsumer : s'.consumer = s.consumer) (hsize : s'.links.size = s.links.size)
    (hunread : Unread s s')
    (hframer : ∀ t, s'.transfer = some t → t.reading = true →
      Framer.Alike t.framer (framing s.config.maxBlock (s.consumedOn t.number)).framer) :
    Received s' := by
  refine ⟨hconsumer.trans h.consumer, ?_, ?_⟩
  · rw [hunread.frames, hsize, h.frames]
    exact (framesUpTo_congr hconfig fun n _ => hunread.consumedOn n).symm
  · intro t ht hreading
    rw [hconfig, hunread.consumedOn]
    exact hframer t ht hreading

theorem Calm.received (hcalm : Calm s es s') (hordered : s.Ordered)
    (hstays : .consumerLeft ∉ es) (h : Received s) : Received s' := by
  cases hcalm with
  | steer apart transfer =>
    refine h.next apart.config apart.consumer (by rw [apart.links]) (.of_apart apart) ?_
    rw [transfer]
    exact h.framer
  | detach => exact h.next rfl rfl rfl (.silent rfl) fun t ht => nomatch ht
  | dismiss apart transfer =>
    have hsize : s'.links.size = s.links.size := by
      rw [apart.links, size_dismiss]
    have hunread : Unread s s' := .of_apart (s := s.dismiss) apart
    refine h.next apart.config apart.consumer hsize hunread ?_
    rw [transfer]
    exact h.framer
  | accept capacity delay =>
    -- of the new link nothing has been taken
    have hnew : s.consumedOn s.links.size = [] := by
      refine consumedOn_of_unrecorded ?_
      intro hrecorded
      exact Nat.lt_irrefl _ (hordered.past _ (.inr (.inl hrecorded))).1
    refine ⟨h.consumer, ?_, h.framer⟩
    show framesReceived s.happenings = s.framesUpTo (s.links.push _).size
    rw [Array.size_push, framesUpTo_succ, hnew, framesOf_nil, List.append_nil]
    exact h.frames
  | leave => exact absurd (List.mem_singleton_self _) hstays

theorem Stir.received (hstir : Stir s es s') (hordered : s.Ordered) (h : Received s) :
    Received s' := by
  cases hstir with
  | nothing => exact h
  | up link apart _ _ _ transfer upcoming =>
    refine h.next apart.config apart.consumer (by rw [apart.links]) (.of_apart apart) ?_
    intro t ht _
    rw [transfer] at ht
    cases ht
    -- nothing has been taken from the link that is brought up
    have hfresh : s.consumedOn link = [] := by
      refine consumedOn_of_unrecorded ?_
      intro hrecorded
      have hpast := hordered.past link (.inr (.inl hrecorded))
      exact Nat.lt_irrefl _ (hpast.2 link (upcoming.subset (List.mem_cons_self ..)))
    rw [hfresh, framing_nil]
    exact .refl _
  | enqueue item going _ apart transfer =>
    refine h.next apart.config apart.consumer (by rw [apart.links]; rfl) (.enqueue apart) ?_
    rw [transfer]
    exact h.framer
  | cancel =>
    refine h.next rfl rfl rfl (.silent rfl) ?_
    intro u hu hreading
    obtain ⟨t, ht, rfl⟩ := Option.map_eq_some_iff.mp hu
    exact h.framer t ht hreading
  | change => exact h.next rfl rfl (Array.size_setIfInBounds ..) (.silent rfl) h.framer

theorem settle_received (hordered : s.Ordered) (hattached : s.Attached) (h : Received s) :
    Received s.settle := by
  refine settle_rule h ?_
  intro t link w htransfer hthere hworks
  have hnumber : w.transfer.number = t.number := hworks.same.number
  have hlt : t.number < s.links.size := (Array.getElem?_eq_some_iff.mp hthere).1
  -- nothing has been taken from later links
  have hlate : ∀ n, t.number < n → s.consumedOn n = [] := by
    intro n hn
    refine consumedOn_of_unrecorded ?_
    intro hrecorded
    exact Nat.not_lt_of_le (hordered.latest t htransfer n hrecorded) hn
  have hbefore : Working.Frames s.config.maxBlock s.happenings (s.framesUpTo t.number)
      (s.working t link) := by
    have hconsumed : (s.working t link).consumed s.happenings = s.consumedOn t.number := by
      show (s.happenings ++ []).flatMap _ = _
      rw [List.append_nil]
      rfl
    refine ⟨h.consumer, (hattached t htransfer).1, ?_, ?_⟩
    · rw [hconsumed, ← framesUpTo_of_nil hlt hlate, ← h.frames]
      exact congrArg framesReceived (List.append_nil _)
    · rw [hconsumed]
      exact h.framer t htransfer
  have hafter := hworks.frames hbefore
  have happenings : (s.absorb w).happenings = s.happenings ++ w.happenings := happenings_absorb _ _
  -- and what is taken now is taken from the transfer's link
  have hothers : ∀ n, n ≠ t.number → (s.absorb w).consumedOn n = s.consumedOn n := by
    intro n hn
    have hnone := consumedOn_of_on (fun x hx => (recorded_of_works hworks x hx).1) hn
    rw [consumedOn_of_append happenings, hnone, List.append_nil]
  have hcurrent : (s.absorb w).consumedOn t.number = w.consumed s.happenings := by
    unfold consumedOn Working.consumed
    rw [happenings, hnumber]
  refine ⟨h.consumer, ?_, ?_⟩
  · have hearlier : (s.absorb w).framesUpTo t.number = s.framesUpTo t.number :=
      framesUpTo_congr rfl fun n hn => hothers n (by omega)
    have hstill : ∀ n, t.number < n → (s.absorb w).consumedOn n = [] := by
      intro n hn
      rw [hothers n (by omega)]
      exact hlate n hn
    rw [size_absorb, framesUpTo_of_nil hlt hstill, hearlier, hcurrent, happenings]
    exact hafter.received
  · intro u hu hreading
    cases hu
    rw [hnumber, hcurrent]
    exact hafter.framer hreading

/-- **The consumer has the telegrams of all links, in order.** -/
theorem Moves.received (hmoves : Moves s es s') (hsteady : s.Steady)
    (hstays : .consumerLeft ∉ es) (h : Received s) : Received s' := by
  have hall := hmoves.induction
    (P := fun past a => a.Steady ∧ (.consumerLeft ∉ past → Received a)) [] ?_
    ⟨hsteady, fun _ => h⟩
  · exact hall.2 hstays
  · rintro past es a b ⟨hsteady, ha⟩ hmove
    refine ⟨hmove.steady hsteady, ?_⟩
    intro hstays
    rw [List.mem_append, not_or] at hstays
    cases hmove with
    | calm hcalm => exact hcalm.received hsteady.ordered hstays.2 (ha hstays.1)
    | stir hstir =>
      exact settle_received (hstir.ordered hsteady.ordered)
        (hstir.attached hsteady.attached hsteady.ordered)
        (hstir.received hsteady.ordered (ha hstays.1))

/-! ## §3. What is put on a link is taken or waits. -/

/-- The bytes that are on their way to the supervisor. -/
def waiting (s : Simulation) (n : Nat) : List UInt8 :=
  match s.links[n]? with
  | some link => link.inbound.buffer
  | none => []

/-- What the receiver has put on a link is what was taken and what waits. -/
def Arrived (es : List Influence) (s : Simulation) : Prop :=
  ∀ n, es.flatMap (Influence.putOn n) = s.consumedOn n ++ s.waiting n

theorem waiting_of_links (h : s'.links = s.links) (n : Nat) : s'.waiting n = s.waiting n := by
  unfold waiting
  rw [h]

/-- A link is changed: what the receiver puts there waits at the end. -/
theorem inbound_of_change {number : Nat} {l l' : Link} (h : l.Change number es l') :
    l'.inbound.buffer = l.inbound.buffer ++ es.flatMap (Influence.putOn number)
      ∧ ∀ n, n ≠ number → es.flatMap (Influence.putOn n) = [] := by
  cases h with
  | @fail operation =>
    cases operation <;> exact ⟨(List.append_nil _).symm, fun _ _ => rfl⟩
  | put bytes =>
    refine ⟨?_, ?_⟩
    · simp [Influence.putOn, Pipe.put]
    · intro n hn
      simp [Influence.putOn, Ne.symm hn]
  | _ => exact ⟨(List.append_nil _).symm, fun _ _ => rfl⟩

/-- The receiver puts nothing, and nothing is read. -/
theorem Arrived.next (h : Arrived es s) (hput : ∀ n, es'.flatMap (Influence.putOn n) = [])
    (hunread : Unread s s') (hwaiting : ∀ n, s'.waiting n = s.waiting n) :
    Arrived (es ++ es') s' := by
  intro n
  rw [List.flatMap_append, hput, List.append_nil, hunread.consumedOn, hwaiting]
  exact h n

theorem Calm.arrived (hcalm : Calm s es' s') (h : Arrived es s) : Arrived (es ++ es') s' := by
  cases hcalm with
  | steer apart => exact h.next (fun _ => rfl) (.of_apart apart) (waiting_of_links apart.links)
  | detach => exact h.next (fun _ => rfl) (.silent rfl) fun _ => rfl
  | dismiss apart =>
    have hunread : Unread s s' := .of_apart (s := s.dismiss) apart
    refine h.next ?_ hunread ?_
    · intro n
      cases s.watch.link? <;> rfl
    · intro n
      rw [waiting_of_links apart.links]
      unfold waiting
      rcases s.getElem?_dismiss n with hlink | hlink <;> rw [hlink]
      cases s.links[n]? <;> rfl
  | accept capacity delay =>
    refine h.next (fun _ => rfl) (.silent rfl) ?_
    intro n
    unfold waiting
    dsimp only
    rw [Array.getElem?_push]
    by_cases hn : n = s.links.size
    · -- on a new link nothing waits
      rw [if_pos hn, hn, Array.getElem?_eq_none (Nat.le_refl _)]
      rfl
    · rw [if_neg hn]
  | leave => exact h.next (fun _ => rfl) (.silent rfl) fun _ => rfl

theorem Stir.arrived (hstir : Stir s es' s') (h : Arrived es s) : Arrived (es ++ es') s' := by
  cases hstir with
  | nothing => exact h.next (fun _ => rfl) (.silent rfl) fun _ => rfl
  | up link apart => exact h.next (fun _ => rfl) (.of_apart apart) (waiting_of_links apart.links)
  | enqueue item going _ apart =>
    refine h.next ?_ (.enqueue apart) (waiting_of_links apart.links)
    intro n
    cases item <;> rfl
  | cancel => exact h.next (fun _ => rfl) (.silent rfl) fun _ => rfl
  | @change number link link' _ there change =>
    obtain ⟨hbuffer, hothers⟩ := inbound_of_change change
    intro n
    rw [List.flatMap_append, h n]
    have hconsumed : ∀ t : Simulation, t.happenings = s.happenings →
        t.consumedOn n = s.consumedOn n := fun t ht => (Unread.silent ht).consumedOn n
    rw [hconsumed _ rfl, List.append_assoc]
    congr 1
    unfold waiting
    dsimp only
    rw [getElem?_replaced there]
    by_cases hn : number = n
    · subst hn
      rw [if_pos rfl, there]
      exact hbuffer.symm
    · rw [if_neg hn, hothers n (Ne.symm hn), List.append_nil]

theorem settle_arrived (h : Arrived es s) : Arrived es s.settle := by
  refine settle_rule h ?_
  intro t link w _ hthere hworks n
  have hnumber : w.transfer.number = t.number := hworks.same.number
  obtain ⟨-, hs, hrecord, hbuffer⟩ := hworks.inflow
  have hhs : w.happenings = hs := hrecord
  subst hhs
  rw [consumedOn_of_append (happenings_absorb _ _), h n, List.append_assoc]
  congr 1
  unfold waiting
  rw [getElem?_absorb hnumber hthere]
  by_cases hn : t.number = n
  · subst hn
    rw [if_pos rfl, hthere]
    exact hbuffer
  · rw [if_neg hn, consumedOn_of_on (fun x hx => (recorded_of_works hworks x hx).1) (Ne.symm hn)]
    rfl

/-- **What was put on a link was taken or waits.** -/
theorem Moves.arrived (hmoves : Moves s es' s') (h : Arrived es s) : Arrived (es ++ es') s' := by
  refine hmoves.induction (P := Arrived) es ?_ h
  intro past es a b ha hmove
  cases hmove with
  | calm hcalm => exact hcalm.arrived ha
  | stir hstir => exact settle_arrived (hstir.arrived ha)

end Simulation

end ReceiverLink
