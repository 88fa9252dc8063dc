/-
  ReceiverLink.Proofs.Supervisor.Outbound
  ────────────────────────────────
  **What is queued is written once, in order, on one link.**

  Over a whole run the items queued are those taken on the first link, then
  those taken on the second, and so on, then those still queued.  Items are
  given up only once all is over, or when the queue is lost.  On each link the
  bytes put there are those of the items taken for it, one after the other,
  each from its beginning, and whole unless writing it failed or its link
  ended.

  Main statements:
    * `Moves.outgoing` — the books of a run;
    * `Moves.conserved` — what is put on a link is got there, or on its way;
    * `run_outgoing` — both, for every run.
-/
import ReceiverLink.Proofs.Supervisor.Deliveries
import ReceiverLink.Proofs.Supervisor.Steady

namespace ReceiverLink

/-- The item put in the queue. -/
def Happening.queued? : Happening → Option Outbound
  | .queued item => some item
  | _ => none

/-- The items put in the queue, in order. -/
def queuedItems (hs : List Happening) : List Outbound :=
  hs.filterMap Happening.queued?

theorem queuedItems_append (hs more : List Happening) :
    queuedItems (hs ++ more) = queuedItems hs ++ queuedItems more :=
  List.filterMap_append

theorem queuedItems_eq_nil {hs : List Happening} (h : ∀ x ∈ hs, x.side ≠ .queueing) :
    queuedItems hs = [] := by
  refine List.filterMap_eq_nil_iff.mpr ?_
  intro x hx
  have hside := h x hx
  cases x <;> first | rfl | exact absurd rfl hside

/-- Every delivery has been recorded as taken. -/
theorem Deliveries.taken {hs : List Happening} {ds : List Delivery} (h : Deliveries hs ds)
    {d : Delivery} (hd : d ∈ ds) : .taken d.link d.item ∈ hs := by
  have hmem : Happening.taken d.link d.item ∈ ds.flatMap Delivery.happenings :=
    List.mem_flatMap.mpr ⟨d, hd, List.mem_cons_self ..⟩
  rw [← h.record] at hmem
  exact (List.mem_filter.mp hmem).1

namespace Simulation

variable {s s' : Simulation} {es es' : List Influence} {ds : List Delivery} {lost : List Outbound}

/-! ## §1. The books of a supervisor. -/

/-- What has been written, and what has been given up. -/
structure Outgoing (es : List Influence) (s : Simulation) (ds : List Delivery)
    (lost : List Outbound) : Prop where
  deliveries : Deliveries s.happenings ds
  entries : queuedItems s.happenings = ds.map Delivery.item ++ (s.queue ++ lost)
  commands : (queuedItems s.happenings).filterMap Outbound.command?
    = es.filterMap Influence.command?
  lost : lost = [] ∨ s.isOver = true ∨ s.isForsaken = true
  holds : ∀ t, s.transfer = some t → t.writer.Holds t.number ds
  /-- What is not finished is on the link of the transfer, or its link is let
  go. -/
  unfinished : ∀ d ∈ ds, d.ending = .unfinished →
    (∃ t, s.transfer = some t ∧ t.number = d.link) ∨ s.LetGo d.link

theorem start_outgoing (pace : Pace) (config : SupervisorConfig) (endpoint : Endpoint) :
    Outgoing [] (start pace config endpoint) [] [] := by
  refine ⟨⟨rfl, by simp, List.Pairwise.nil⟩, rfl, rfl, .inl rfl, ?_, by simp⟩
  intro t ht
  cases ht

/-- Nothing is written, and nothing queued. -/
theorem Outgoing.next {lost' : List Outbound} (h : Outgoing es s ds lost)
    (hrecord : ∃ hs, s'.happenings = s.happenings ++ hs ∧ ∀ x ∈ hs, x.side = .steering)
    (hcommands : es'.filterMap Influence.command? = [])
    (hqueue : s'.queue ++ lost' = s.queue ++ lost)
    (hlost : lost' = [] ∨ s'.isOver = true ∨ s'.isForsaken = true)
    (hholds : ∀ t, s'.transfer = some t → t.writer.Holds t.number ds)
    (hunfinished : ∀ n, (∃ t, s.transfer = some t ∧ t.number = n) ∨ s.LetGo n →
      (∃ t, s'.transfer = some t ∧ t.number = n) ∨ s'.LetGo n) :
    Outgoing (es ++ es') s' ds lost' := by
  obtain ⟨hs, hrecord, hside⟩ := hrecord
  have hqueued : queuedItems s'.happenings = queuedItems s.happenings := by
    have hnone : queuedItems hs = [] := by
      refine queuedItems_eq_nil ?_
      intro x hx
      rw [hside x hx]
      decide
    rw [hrecord, queuedItems_append, hnone, List.append_nil]
  refine ⟨?_, ?_, ?_, hlost, hholds, ?_⟩
  · rw [hrecord]
    refine h.deliveries.aside ?_
    intro x hx
    rw [hside x hx]
    decide
  · rw [hqueued, hqueue]
    exact h.entries
  · rw [hqueued, List.filterMap_append, hcommands, List.append_nil]
    exact h.commands
  · exact fun d hd hopen => hunfinished d.link (h.unfinished d hd hopen)

/-- What does not concern the transfer. -/
theorem Outgoing.aside {lost' : List Outbound} (h : Outgoing es s ds lost)
    (hrecord : ∃ hs, s'.happenings = s.happenings ++ hs ∧ ∀ x ∈ hs, x.side = .steering)
    (hcommands : es'.filterMap Influence.command? = [])
    (hqueue : s'.queue ++ lost' = s.queue ++ lost)
    (hlost : lost' = [] ∨ s'.isOver = true ∨ s'.isForsaken = true)
    (htransfer : s'.transfer = s.transfer) (hgo : ∀ n, s.LetGo n → s'.LetGo n) :
    Outgoing (es ++ es') s' ds lost' := by
  refine h.next hrecord hcommands hqueue hlost ?_ ?_
  · rw [htransfer]
    exact h.holds
  · rw [htransfer]
    exact fun n hn => hn.imp id (hgo n)

/-- Nothing is recorded. -/
theorem silent_record (h : s'.record = s.record) :
    ∃ hs, s'.happenings = s.happenings ++ hs ∧ ∀ x ∈ hs, x.side = .steering := by
  refine ⟨[], ?_, ?_⟩
  · unfold happenings
    rw [h, List.append_nil]
  · intro x hx
    cases hx

/-- While all goes on and the queue is kept, nothing has been given up. -/
theorem Outgoing.lost_eq_nil (h : Outgoing es s ds lost) (going : s.isOver = false)
    (kept : s.isForsaken = false) : lost = [] := by
  rcases h.lost with hlost | hover | hforsaken
  · exact hlost
  · rw [going] at hover
    cases hover
  · rw [kept] at hforsaken
    cases hforsaken

theorem Calm.outgoing (hcalm : Calm s es' s') (hattached : s.Attached)
    (h : Outgoing es s ds lost) : ∃ lost', Outgoing (es ++ es') s' ds lost' := by
  have hgone : ∀ n, s.LetGo n → s'.LetGo n := fun _ => hcalm.lasts letGo_lasts
  cases hcalm with
  | steer apart transfer _ isOver watch =>
    refine ⟨lost, h.aside apart.record rfl (by rw [apart.queue]) ?_ transfer hgone⟩
    rcases watch with hwatch | hturns
    · rw [isOver, isForsaken_congr hwatch transfer]
      exact h.lost
    · exact .inl (h.lost_eq_nil hturns.going (isForsaken_of_alive hturns.alive))
  | detach isOver =>
    have hforsaken : isForsaken { s with transfer := none } = s.isForsaken := by
      unfold isForsaken
      rw [isOver]
      rfl
    refine ⟨lost, h.next (silent_record rfl) rfl rfl ?_ (fun t ht => nomatch ht) ?_⟩
    · rw [hforsaken]
      exact h.lost
    rintro n (⟨t, ht, rfl⟩ | hn)
    · -- its transfer was over, so the link has been let go
      exact .inr (hattached.letGo_of_over ht isOver)
    · exact .inr hn
  | dismiss apart transfer _ isOver =>
    have hcancelled : (s.watch.link?.toList.map fun _ => Influence.cancelled).filterMap
        Influence.command? = [] := by
      cases s.watch.link? <;> rfl
    -- what is still queued joins what is lost
    refine ⟨s.queue ++ lost, h.aside apart.record hcancelled ?_ (.inr (.inl isOver)) transfer
      hgone⟩
    rw [apart.queue]
    rfl
  | accept capacity delay => exact ⟨lost, h.aside (silent_record rfl) rfl rfl h.lost rfl hgone⟩
  | leave => exact ⟨lost, h.aside (silent_record rfl) rfl rfl h.lost rfl hgone⟩

/-- What has been delivered on a link that is to come is nothing. -/
theorem Outgoing.link_lt (h : Outgoing es s ds lost) (hordered : s.Ordered) {n : Nat}
    (hn : n ∈ s.upcoming) : ∀ d ∈ ds, d.link < n := by
  intro d hd
  have hrecorded : s.Recorded d.link := ⟨_, h.deliveries.taken hd, rfl⟩
  exact (hordered.past d.link (.inr (.inl hrecorded))).2 n hn

/-- What is queued is yet to be delivered. -/
theorem Outgoing.enqueue (h : Outgoing es s ds lost) (going : s.isOver = false)
    (kept : s.isForsaken = false) (item : Outbound) :
    Outgoing (es ++ item.command?.toList.map .command) (s.enqueue item) ds lost := by
  have hlost := h.lost_eq_nil going kept
  have hrecord : (s.enqueue item).happenings = s.happenings ++ [.queued item] :=
    happenings_note _ _
  have hqueued : queuedItems (s.enqueue item).happenings
      = queuedItems s.happenings ++ [item] := by
    rw [hrecord, queuedItems_append]
    rfl
  refine ⟨?_, ?_, ?_, .inl hlost, h.holds, h.unfinished⟩
  · rw [hrecord]
    exact h.deliveries.aside (by simp [Happening.side])
  · rw [hqueued, h.entries, hlost]
    show _ = ds.map Delivery.item ++ (s.queue ++ [item] ++ [])
    simp
  · rw [hqueued, List.filterMap_append, List.filterMap_append, h.commands]
    cases item <;> rfl

theorem Stir.outgoing (hstir : Stir s es' s') (hordered : s.Ordered)
    (h : Outgoing es s ds lost) : Outgoing (es ++ es') s' ds lost := by
  cases hstir with
  | nothing =>
    rw [List.append_nil]
    exact h
  | up link apart free still alive transfer upcoming =>
    have hlost := h.lost_eq_nil still (isForsaken_of_alive alive)
    refine h.next apart.record rfl (by rw [apart.queue]) (.inl hlost) ?_ ?_
    · -- all that has been delivered is on earlier links
      intro t ht
      rw [transfer] at ht
      cases ht
      have hlt := h.link_lt hordered (upcoming.subset (List.mem_cons_self ..))
      exact fun d hd _ => Nat.ne_of_lt (hlt d hd)
    · rintro n (⟨t, ht, -⟩ | hgone)
      · rw [free] at ht
        cases ht
      · exact .inr (hgone.of_links apart.links)
  | enqueue item going kept apart transfer =>
    have haside : Outgoing (es ++ item.command?.toList.map .command ++ []) s' ds lost :=
      (h.enqueue going kept item).aside apart.record rfl (by rw [apart.queue])
        (.inl (h.lost_eq_nil going kept)) transfer fun n hn => hn.of_links apart.links
    rwa [List.append_nil] at haside
  | cancel =>
    refine h.next (silent_record rfl) rfl rfl ?_ ?_ ?_
    · rw [isForsaken_ending]
      exact h.lost
    · intro u hu
      obtain ⟨t, ht, rfl⟩ := Option.map_eq_some_iff.mp hu
      exact h.holds t ht
    · rintro n (⟨t, ht, rfl⟩ | hgone)
      · refine .inl ⟨{ t with ended := true }, ?_, rfl⟩
        show s.transfer.map _ = _
        rw [ht]
        rfl
      · exact .inr hgone
  | @change number link link' _ there change =>
    have hcommands : es'.filterMap Influence.command? = [] := by
      cases change <;> rfl
    exact h.aside (silent_record rfl) hcommands rfl h.lost rfl
      fun _ => (letGo_of_change there change).mpr

/-- What a transfer leaves of the queue is lost once nobody takes it over. -/
theorem Outgoing.absorb_lost (h : Outgoing es s ds lost) (w : Working)
    (hdone : s.linkIsOver = true → w.transfer.isDone = true) :
    ∃ lost', (s.absorb w).queue ++ lost' = w.queue ++ lost
      ∧ (lost' = [] ∨ (s.absorb w).isOver = true ∨ (s.absorb w).isForsaken = true) := by
  by_cases hforsaken : (s.absorb w).isForsaken = true
  · refine ⟨w.queue ++ lost, ?_, .inr (.inr hforsaken)⟩
    have hnone : (s.absorb w).queue = [] := if_pos hforsaken
    rw [hnone, List.nil_append]
  · refine ⟨lost, ?_, ?_⟩
    · have hkept : (s.absorb w).queue = w.queue := if_neg hforsaken
      rw [hkept]
    · rcases h.lost with hlost | hover | hlost
      · exact .inl hlost
      · exact .inr (.inl hover)
      · -- a link that is over stays so
        obtain ⟨hfailed, hover⟩ := Bool.and_eq_true_iff.mp hlost
        exact absurd (Bool.and_eq_true_iff.mpr ⟨hfailed, hdone hover⟩) hforsaken

theorem settle_outgoing (hordered : s.Ordered) (h : Outgoing es s ds lost) :
    ∃ ds' lost', Outgoing es s.settle ds' lost' := by
  rcases s.settle_cases with hsame | ⟨t, link, htransfer, hthere, hsettle⟩
  · rw [hsame]
    exact ⟨ds, lost, h⟩
  rw [hsettle]
  have hworks := (s.working t link).settle_works
  obtain ⟨lost', hqueue, hlost⟩ := h.absorb_lost (s.working t link).settle (by
    intro hover
    unfold linkIsOver at hover
    rw [htransfer] at hover
    exact Working.settle_isDone hover)
  generalize (s.working t link).settle = w at hworks hqueue hlost ⊢
  have hnumber : w.transfer.number = t.number := hworks.same.number
  have hbooks : Working.Books s.happenings (s.working t link) ds := by
    refine ⟨?_, ?_, h.holds t htransfer⟩
    · show Deliveries (s.happenings ++ []) ds
      rw [List.append_nil]
      exact h.deliveries
    · exact fun d hd => hordered.latest t htransfer d.link ⟨_, h.deliveries.taken hd, rfl⟩
  obtain ⟨ds', hbooks', hcontinues⟩ := hworks.books hbooks
  have hqueued : queuedItems w.happenings = [] := by
    refine queuedItems_eq_nil ?_
    intro x hx hside
    have htransfer := (recorded_of_works hworks x hx).2
    rw [hside] at htransfer
    cases htransfer
  refine ⟨ds', lost', ?_, ?_, ?_, hlost, ?_, ?_⟩
  · rw [happenings_absorb]
    exact hbooks'.deliveries
  · rw [happenings_absorb, queuedItems_append, hqueued, List.append_nil, h.entries]
    have hentries : ds'.map Delivery.item ++ w.queue = ds.map Delivery.item ++ s.queue :=
      hcontinues.entries
    rw [hqueue, ← List.append_assoc, ← List.append_assoc, hentries]
  · rw [happenings_absorb, queuedItems_append, hqueued, List.append_nil]
    exact h.commands
  · intro u hu
    cases hu
    exact hbooks'.holds
  · intro d hd hopen
    by_cases hlink : d.link = t.number
    · exact .inl ⟨w.transfer, rfl, hnumber.trans hlink.symm⟩
    -- on any other link nothing is begun, and nothing let go is taken back
    · rcases hcontinues.others d hd with hold | hnew
      · rcases h.unfinished d hold hopen with ⟨u, hu, hu'⟩ | ⟨l, hl, hgone⟩
        · rw [htransfer] at hu
          cases hu
          exact absurd hu'.symm hlink
        · refine .inr ⟨l, ?_, hgone⟩
          rw [getElem?_absorb hnumber hthere, if_neg (Ne.symm hlink)]
          exact hl
      · exact absurd hnew hlink

theorem Moves.outgoing (hmoves : Moves s es' s') (hsteady : s.Steady)
    (h : Outgoing es s ds lost) : ∃ ds' lost', Outgoing (es ++ es') s' ds' lost' := by
  have hstep : ∀ {past es : List Influence} {a b : Simulation},
      (a.Steady ∧ ∃ ds lost, Outgoing past a ds lost) → Move a es b →
        b.Steady ∧ ∃ ds lost, Outgoing (past ++ es) b ds lost := by
    rintro past es a b ⟨hsteady, ds, lost, h⟩ hmove
    refine ⟨hmove.steady hsteady, ?_⟩
    cases hmove with
    | calm hcalm =>
      obtain ⟨lost', h'⟩ := hcalm.outgoing hsteady.attached h
      exact ⟨ds, lost', h'⟩
    | stir hstir =>
      exact settle_outgoing (hstir.ordered hsteady.ordered) (hstir.outgoing hsteady.ordered h)
  exact (hmoves.induction (P := fun past a => a.Steady ∧ ∃ ds lost, Outgoing past a ds lost)
    es hstep ⟨hsteady, ds, lost, h⟩).2

/-! ## §2. What is put on a link, the receiver gets. -/

/-- The bytes that are on their way to the receiver. -/
def onTheWay (s : Simulation) (n : Nat) : List UInt8 :=
  match s.links[n]? with
  | some link => link.outbound.buffer
  | none => []

/-- The bytes recorded as put on a link. -/
def sentOn (s : Simulation) (n : Nat) : List UInt8 :=
  s.happenings.flatMap (Happening.sentOn n)

/-- What was put on a link is what the receiver has got and what is on its
way. -/
def Conserved (es : List Influence) (s : Simulation) : Prop :=
  ∀ n, es.flatMap (Influence.gotOn n) ++ s.onTheWay n = s.sentOn n

theorem onTheWay_of_links (h : s'.links = s.links) (n : Nat) : s'.onTheWay n = s.onTheWay n := by
  unfold onTheWay
  rw [h]

theorem sentOn_of_append {hs : List Happening} (hrecord : s'.happenings = s.happenings ++ hs)
    (n : Nat) : s'.sentOn n = s.sentOn n ++ hs.flatMap (Happening.sentOn n) := by
  unfold sentOn
  rw [hrecord, List.flatMap_append]

/-- Bytes are put on a link by a writing half only. -/
theorem sentOn_eq_nil {hs : List Happening} (h : ∀ x ∈ hs, x.side ≠ .writing) (n : Nat) :
    hs.flatMap (Happening.sentOn n) = [] := by
  refine List.flatMap_eq_nil_iff.mpr ?_
  intro x hx
  have hside := h x hx
  cases x <;> first | rfl | exact absurd rfl hside

theorem sentOn_apart (apart : Apart s s') (n : Nat) : s'.sentOn n = s.sentOn n := by
  obtain ⟨hs, hrecord, hside⟩ := apart.record
  have hnone : hs.flatMap (Happening.sentOn n) = [] := by
    refine sentOn_eq_nil ?_ n
    intro x hx
    rw [hside x hx]
    decide
  rw [sentOn_of_append hrecord, hnone, List.append_nil]

/-- A link is changed: what it holds, or what the receiver gets of it. -/
theorem outbound_of_change {number : Nat} {l l' : Link} (h : l.Change number es l') :
    l.outbound.buffer = es.flatMap (Influence.gotOn number) ++ l'.outbound.buffer
      ∧ ∀ n, n ≠ number → es.flatMap (Influence.gotOn n) = [] := by
  cases h with
  | @fail operation => cases operation <;> exact ⟨rfl, fun _ _ => rfl⟩
  | got =>
    refine ⟨?_, ?_⟩
    · simp [Influence.gotOn]
    · intro n hn
      simp [Influence.gotOn, Ne.symm hn]
  | _ => exact ⟨rfl, fun _ _ => rfl⟩

theorem Calm.conserved (hcalm : Calm s es' s') (h : Conserved es s) :
    Conserved (es ++ es') s' := by
  intro n
  rw [List.flatMap_append]
  cases hcalm with
  | steer apart =>
    rw [onTheWay_of_links apart.links, sentOn_apart apart, List.flatMap_nil, List.append_nil]
    exact h n
  | detach =>
    rw [List.flatMap_nil, List.append_nil]
    exact h n
  | dismiss apart =>
    have hgot : (s.watch.link?.toList.map fun _ => Influence.cancelled).flatMap
        (Influence.gotOn n) = [] := by
      cases s.watch.link? <;> rfl
    have hway : s'.onTheWay n = s.onTheWay n := by
      rw [onTheWay_of_links apart.links]
      unfold onTheWay
      rcases s.getElem?_dismiss n with hlink | hlink <;> rw [hlink]
      cases s.links[n]? <;> rfl
    have hsent : s'.sentOn n = s.sentOn n := sentOn_apart (s := s.dismiss) apart n
    rw [hgot, List.append_nil, hway, hsent]
    exact h n
  | accept capacity delay =>
    rw [List.flatMap_nil, List.append_nil]
    refine Eq.trans ?_ (h n)
    congr 1
    unfold onTheWay
    dsimp only
    rw [Array.getElem?_push]
    by_cases hn : n = s.links.size
    · -- on a new link nothing is on its way
      rw [if_pos hn, hn, Array.getElem?_eq_none (Nat.le_refl _)]
      rfl
    · rw [if_neg hn]
  | leave =>
    have hgot : [Influence.consumerLeft].flatMap (Influence.gotOn n) = [] := rfl
    rw [hgot, List.append_nil]
    exact h n

theorem Stir.conserved (hstir : Stir s es' s') (h : Conserved es s) :
    Conserved (es ++ es') s' := by
  intro n
  rw [List.flatMap_append]
  cases hstir with
  | nothing =>
    rw [List.flatMap_nil, List.append_nil]
    exact h n
  | up link apart =>
    rw [onTheWay_of_links apart.links, sentOn_apart apart, List.flatMap_nil, List.append_nil]
    exact h n
  | enqueue item going _ apart =>
    have hgot : (item.command?.toList.map Influence.command).flatMap (Influence.gotOn n) = [] := by
      cases item <;> rfl
    have hway : s'.onTheWay n = s.onTheWay n := onTheWay_of_links apart.links n
    have hqueued : (s.enqueue item).happenings = s.happenings ++ [.queued item] :=
      happenings_note _ _
    have hsent : (s.enqueue item).sentOn n = s.sentOn n := by
      rw [sentOn_of_append hqueued]
      exact List.append_nil _
    rw [hgot, List.append_nil, hway, sentOn_apart apart, hsent]
    exact h n
  | cancel =>
    have hgot : [Influence.cancelled].flatMap (Influence.gotOn n) = [] := rfl
    rw [hgot, List.append_nil]
    exact h n
  | @change number link link' _ there change =>
    obtain ⟨hbuffer, hothers⟩ := outbound_of_change change
    refine Eq.trans ?_ (h n)
    unfold onTheWay
    dsimp only
    rw [getElem?_replaced there]
    by_cases hn : number = n
    · subst hn
      rw [if_pos rfl, there]
      dsimp only
      rw [List.append_assoc, ← hbuffer]
    · rw [if_neg hn, hothers n (Ne.symm hn), List.append_nil]

theorem settle_conserved (h : Conserved es s) : Conserved es s.settle := by
  refine settle_rule h ?_
  intro t link w _ hthere hworks n
  have hnumber : w.transfer.number = t.number := hworks.same.number
  obtain ⟨hs, hrecord, hbuffer⟩ := hworks.sent
  have hhs : w.happenings = hs := hrecord
  subst hhs
  rw [sentOn_of_append (happenings_absorb _ _), ← h n, List.append_assoc]
  congr 1
  unfold onTheWay
  rw [getElem?_absorb hnumber hthere]
  by_cases hn : t.number = n
  · subst hn
    rw [if_pos rfl, hthere]
    exact hbuffer
  · -- a transfer puts bytes on its own link only
    have hnone : w.happenings.flatMap (Happening.sentOn n) = [] := by
      refine List.flatMap_eq_nil_iff.mpr ?_
      intro x hx
      have hlink := (recorded_of_works hworks x hx).1
      cases x with
      | sent m bytes =>
        have hm : m = t.number := hlink m rfl
        exact if_neg (by omega)
      | _ => rfl
    rw [if_neg hn, hnone, List.append_nil]

theorem Moves.conserved (hmoves : Moves s es' s') (h : Conserved es s) :
    Conserved (es ++ es') s' := by
  refine hmoves.induction (P := Conserved) es ?_ h
  intro past es a b ha hmove
  cases hmove with
  | calm hcalm => exact hcalm.conserved ha
  | stir hstir => exact settle_conserved (hstir.conserved ha)

/-! ## §3. Runs. -/

/-- **Every run keeps its books**, and what it puts on a link is not lost. -/
theorem run_outgoing (pace : Pace) (config : SupervisorConfig) (endpoint : Endpoint)
    (actions : List Action) :
    ∃ es ds lost, Told ((start pace config endpoint).answers actions) es
      ∧ Outgoing es ((start pace config endpoint).run actions) ds lost
      ∧ Conserved es ((start pace config endpoint).run actions) := by
  have hstart := start_steady pace config endpoint
  obtain ⟨es, hmoves, htold⟩ := run_moves hstart.tidy actions
  obtain ⟨ds, lost, hbooks⟩ := hmoves.outgoing hstart (start_outgoing pace config endpoint)
  have hnothing : Conserved [] (start pace config endpoint) := fun n => rfl
  exact ⟨es, ds, lost, htold, hbooks, hmoves.conserved hnothing⟩

end Simulation

end ReceiverLink
