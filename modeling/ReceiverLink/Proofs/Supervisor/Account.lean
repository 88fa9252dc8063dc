/-
  ReceiverLink.Proofs.Supervisor.Account
  ────────────────────────────────
  **The account of what is written.**

  `Account` says what the books of a run come to: in which order items are
  taken and on which links, what is put on each link and what the receiver has
  got of it, and which items are not whole.  A command that is accepted while
  there is no link is kept for a later one.  What is queued is given up only
  when all is over; or when a link ends that nobody looks after, because its
  watchdog has no interval.

  Main statements:
    * `outbound_account` — every run has such an account;
    * `outbound_forsaken` — a run without an interval.
-/
import Mathlib.Data.List.Basic
import ReceiverLink.Proofs.Supervisor.Outbound

namespace ReceiverLink

/-! ## §1. Lists in order. -/

section Lists

variable {α β : Type} (f : α → Nat)

/-- In a list in order those that are least come first. -/
theorem filter_lt_append_filter_eq {N : Nat} {xs : List α} (hsorted : xs.Pairwise (f · ≤ f ·))
    (hle : ∀ x ∈ xs, f x ≤ N) : xs.filter (f · < N) ++ xs.filter (f · = N) = xs := by
  induction xs with
  | nil => rfl
  | cons x xs ih =>
    obtain ⟨hx, hsorted⟩ := List.pairwise_cons.mp hsorted
    have hrest := ih hsorted fun y hy => hle y (List.mem_cons_of_mem _ hy)
    have hxle := hle x (List.mem_cons_self ..)
    by_cases hlt : f x < N
    · rw [List.filter_cons_of_pos (by simpa using hlt),
        List.filter_cons_of_neg (by simpa using Nat.ne_of_lt hlt), List.cons_append, hrest]
    · -- then all of them are last
      have hall : ∀ y ∈ x :: xs, f y = N := by
        intro y hy
        have hyle := hle y hy
        rcases List.mem_cons.mp hy with rfl | hy
        · omega
        · have := hx y hy
          omega
      have hnone : (x :: xs).filter (f · < N) = [] := by
        refine List.filter_eq_nil_iff.mpr ?_
        intro y hy
        simp [hall y hy]
      rw [hnone, List.nil_append]
      exact List.filter_eq_self.mpr fun y hy => by simpa using hall y hy

/-- A list in order is made of its parts. -/
theorem flatMap_range_filter {N : Nat} {xs : List α} (hsorted : xs.Pairwise (f · ≤ f ·))
    (hlt : ∀ x ∈ xs, f x < N) : (List.range N).flatMap (fun n => xs.filter (f · = n)) = xs := by
  induction N generalizing xs with
  | zero =>
    cases xs with
    | nil => rfl
    | cons x xs => exact absurd (hlt x (List.mem_cons_self ..)) (Nat.not_lt_zero _)
  | succ N ih =>
    have hparts := filter_lt_append_filter_eq f hsorted fun x hx => Nat.le_of_lt_succ (hlt x hx)
    have hfirst := ih (hsorted.filter (f · < N)) fun x hx => by
      simpa using (List.mem_filter.mp hx).2
    rw [List.range_succ, List.flatMap_append, List.flatMap_singleton]
    refine Eq.trans ?_ hparts
    congr 1
    refine Eq.trans (List.flatMap_congr ?_) hfirst
    intro n hn
    rw [List.filter_filter]
    refine List.filter_congr ?_
    intro x _
    have hn := List.mem_range.mp hn
    by_cases hx : f x = n
    · simp [hx, hn]
    · simp [hx]

theorem flatMap_ite (p : α → Prop) [DecidablePred p] (g : α → List β) (xs : List α) :
    xs.flatMap (fun x => if p x then g x else []) = (xs.filter p).flatMap g := by
  induction xs with
  | nil => rfl
  | cons x xs ih =>
    by_cases hx : p x
    · rw [List.flatMap_cons, if_pos hx, List.filter_cons_of_pos (by simpa using hx),
        List.flatMap_cons, ih]
    · rw [List.flatMap_cons, if_neg hx, List.filter_cons_of_neg (by simpa using hx), ih]
      rfl

end Lists

/-! ## §2. What is read off the deliveries. -/

/-- A link and the item taken for it. -/
def Happening.takes : Happening → List (Nat × Outbound)
  | .taken n item => [(n, item)]
  | _ => []

namespace Deliveries

variable {hs : List Happening} {ds : List Delivery} {β : Type}

/-- What is read off writing alone is read off the deliveries. -/
theorem flatMap_eq (h : Deliveries hs ds) {g : Happening → List β}
    (hg : ∀ x : Happening, x.side ≠ .writing → g x = []) :
    hs.flatMap g = ds.flatMap fun d => d.happenings.flatMap g := by
  have hwriting : hs.flatMap g = (ofWriting hs).flatMap g := by
    unfold ofWriting
    rw [← flatMap_ite (fun x : Happening => x.side = .writing) g hs]
    refine List.flatMap_congr ?_
    intro x _
    by_cases hx : x.side = .writing
    · rw [if_pos hx]
    · rw [if_neg hx, hg x hx]
  rw [hwriting, h.record, List.flatMap_assoc]

theorem takes_eq (h : Deliveries hs ds) :
    hs.flatMap Happening.takes = ds.map fun d => (d.link, d.item) := by
  have hg : ∀ x : Happening, x.side ≠ .writing → x.takes = [] := by
    intro x hx
    cases x <;> first | rfl | exact absurd rfl hx
  rw [h.flatMap_eq hg, List.map_eq_flatMap]
  refine List.flatMap_congr ?_
  intro d _
  cases hending : d.ending <;>
    simp [Delivery.happenings, Ending.happenings, Happening.takes, hending, List.flatMap_map]

theorem takenOn_eq (h : Deliveries hs ds) (n : Nat) :
    hs.flatMap (Happening.takenOn n) = (ds.filter (·.link = n)).map Delivery.item := by
  have hg : ∀ x : Happening, x.side ≠ .writing → x.takenOn n = [] := by
    intro x hx
    cases x <;> first | rfl | exact absurd rfl hx
  rw [h.flatMap_eq hg, List.map_eq_flatMap, ← flatMap_ite]
  refine List.flatMap_congr ?_
  intro d _
  cases hending : d.ending <;>
    simp [Delivery.happenings, Ending.happenings, Happening.takenOn, hending, List.flatMap_map]

theorem sentOn_eq (h : Deliveries hs ds) (n : Nat) :
    hs.flatMap (Happening.sentOn n) = (ds.filter (·.link = n)).flatMap Delivery.bytes := by
  have hg : ∀ x : Happening, x.side ≠ .writing → x.sentOn n = [] := by
    intro x hx
    cases x <;> first | rfl | exact absurd rfl hx
  rw [h.flatMap_eq hg, ← flatMap_ite]
  refine List.flatMap_congr ?_
  intro d _
  have hpieces : (d.pieces.map (Happening.sent d.link)).flatMap (Happening.sentOn n)
      = if d.link = n then d.bytes else [] := by
    rw [List.flatMap_map]
    by_cases hn : d.link = n
    · simp [Happening.sentOn, hn, Delivery.bytes]
    · simp [Happening.sentOn, hn]
  have hend : (d.ending.happenings d.item).flatMap (Happening.sentOn n) = [] := by
    cases d.ending <;> rfl
  unfold Delivery.happenings
  rw [List.flatMap_cons, List.flatMap_append, hpieces, hend, List.append_nil]
  rfl

end Deliveries

namespace Simulation

variable {s s' : Simulation} {es es' : List Influence} {ds : List Delivery} {lost : List Outbound}

/-! ## §3. What is taken later is taken on a later link. -/

/-- From the given record on, items are taken only on links later than the
`n`th. -/
structure Beyond (n : Nat) (past : List Happening) (s : Simulation) : Prop where
  there : n < s.links.size
  upcoming : ∀ m ∈ s.upcoming, n < m
  current : ∀ t, s.transfer = some t → t.isDone = true ∨ n < t.number
  record : ∃ hs, s.happenings = past ++ hs ∧ ∀ m item, .taken m item ∈ hs → n < m

variable {n : Nat} {past : List Happening}

theorem Beyond.next (h : Beyond n past s) (hthere : n < s'.links.size)
    (hupcoming : ∀ m ∈ s'.upcoming, m ∈ s.upcoming ∨ n < m)
    (hcurrent : ∀ t, s'.transfer = some t → t.isDone = true ∨ n < t.number)
    (hrecord : ∃ hs, s'.happenings = s.happenings ++ hs ∧ ∀ m item, .taken m item ∈ hs → n < m) :
    Beyond n past s' := by
  refine ⟨hthere, ?_, hcurrent, ?_⟩
  · intro m hm
    rcases hupcoming m hm with hold | hnew
    · exact h.upcoming m hold
    · exact hnew
  · obtain ⟨hs, hpast, htaken⟩ := h.record
    obtain ⟨more, hmore, htaken'⟩ := hrecord
    refine ⟨hs ++ more, by rw [hmore, hpast, List.append_assoc], ?_⟩
    intro m item hmem
    rcases List.mem_append.mp hmem with hfirst | hlast
    · exact htaken m item hfirst
    · exact htaken' m item hlast

/-- Nothing is taken. -/
theorem untaken_record {hs : List Happening} (hrecord : s'.happenings = s.happenings ++ hs)
    (hside : ∀ x ∈ hs, x.side ≠ .writing) :
    ∃ hs, s'.happenings = s.happenings ++ hs ∧ ∀ m item, .taken m item ∈ hs → n < m :=
  ⟨hs, hrecord, fun _ _ hmem => absurd rfl (hside _ hmem)⟩

theorem untaken_apart (apart : Apart s s') :
    ∃ hs, s'.happenings = s.happenings ++ hs ∧ ∀ m item, .taken m item ∈ hs → n < m := by
  obtain ⟨hs, hrecord, hside⟩ := apart.record
  refine untaken_record hrecord ?_
  intro x hx
  rw [hside x hx]
  decide

theorem Calm.beyond (hcalm : Calm s es s') (h : Beyond n past s) : Beyond n past s' := by
  have hsilent : ∃ hs, s.happenings = s.happenings ++ hs ∧ ∀ m item, .taken m item ∈ hs → n < m :=
    untaken_record (List.append_nil _).symm (by simp)
  cases hcalm with
  | steer apart transfer upcoming =>
    refine h.next (by rw [apart.links]; exact h.there) (fun m hm => .inl (upcoming.subset hm)) ?_
      (untaken_apart apart)
    rw [transfer]
    exact h.current
  | detach => exact h.next h.there (fun m hm => .inl hm) (fun t ht => nomatch ht) hsilent
  | dismiss apart transfer upcoming =>
    refine h.next ?_ ?_ ?_ (untaken_apart (s := s.dismiss) apart)
    · rw [apart.links, size_dismiss]
      exact h.there
    · intro m hm
      have hdismissed : m ∈ s.dismiss.upcoming := upcoming.subset hm
      exact .inl (List.mem_append_right _ hdismissed)
    · rw [transfer]
      exact h.current
  | accept capacity delay =>
    -- the new link comes after all that are there
    refine h.next ?_ ?_ h.current hsilent
    · show n < (s.links.push _).size
      rw [Array.size_push]
      exact Nat.lt_succ_of_lt h.there
    · intro m hm
      rw [upcoming_accept] at hm
      rcases List.mem_append.mp hm with hold | hnew
      · exact .inl hold
      · rw [List.mem_singleton.mp hnew]
        exact .inr h.there
  | leave => exact h.next h.there (fun m hm => .inl hm) h.current hsilent

theorem Stir.beyond (hstir : Stir s es s') (h : Beyond n past s) : Beyond n past s' := by
  have hsilent : ∃ hs, s.happenings = s.happenings ++ hs ∧ ∀ m item, .taken m item ∈ hs → n < m :=
    untaken_record (List.append_nil _).symm (by simp)
  cases hstir with
  | nothing => exact h
  | up link apart _ _ _ transfer upcoming =>
    refine h.next (by rw [apart.links]; exact h.there) ?_ ?_ (untaken_apart apart)
    · exact fun m hm => .inl (upcoming.subset (List.mem_cons_of_mem _ hm))
    · -- the link of the new transfer was to come
      intro t ht
      rw [transfer] at ht
      cases ht
      exact .inr (h.upcoming link (upcoming.subset (List.mem_cons_self ..)))
  | enqueue item _ _ apart transfer _ upcoming =>
    have hqueued : Beyond n past (s.enqueue item) := by
      refine h.next h.there (fun m hm => .inl hm) h.current ?_
      exact untaken_record (happenings_note _ _) (by simp [Happening.side])
    refine hqueued.next (by rw [apart.links]; exact h.there) ?_ ?_ (untaken_apart apart)
    · rw [upcoming]
      exact fun m hm => .inl hm
    · rw [transfer]
      exact h.current
  | cancel =>
    refine h.next h.there (fun m hm => .inl hm) ?_ hsilent
    intro u hu
    obtain ⟨t, ht, rfl⟩ := Option.map_eq_some_iff.mp hu
    exact h.current t ht
  | change =>
    refine h.next ?_ (fun m hm => .inl hm) h.current hsilent
    rw [Array.size_setIfInBounds]
    exact h.there

theorem settle_beyond (h : Beyond n past s) : Beyond n past s.settle := by
  rcases s.settle_cases with hsame | ⟨t, link, htransfer, hthere, hsettle⟩
  · rw [hsame]
    exact h
  rw [hsettle]
  have hworks := (s.working t link).settle_works
  have hsize : n < (s.absorb (s.working t link).settle).links.size := by
    rw [size_absorb]
    exact h.there
  refine h.next hsize (fun m hm => .inl hm) ?_ ⟨_, happenings_absorb _ _, ?_⟩
  all_goals rcases h.current t htransfer with hdone | hlater
  · intro u hu
    cases hu
    exact .inl (Working.settle_isDone hdone)
  · intro u hu
    cases hu
    exact .inr (hworks.same.number.symm ▸ hlater)
  · -- a transfer that is done does nothing more
    intro m item hmem
    rw [Working.settle_of_done hdone] at hmem
    cases hmem
  · -- any other is on a later link, and so is what it takes
    intro m item hmem
    rw [(recorded_of_works hworks _ hmem).1 m rfl]
    exact hlater

theorem Moves.beyond (hmoves : Moves s es s') (h : Beyond n past s) : Beyond n past s' := by
  refine hmoves.induction (P := fun _ => Beyond n past) [] ?_ h
  intro _ _ a b ha hmove
  cases hmove with
  | calm hcalm => exact hcalm.beyond ha
  | stir hstir => exact settle_beyond (hstir.beyond ha)

/-- While there is no link, or only one that is over, all links to come are
later than those that there have been. -/
theorem beyond_of_over (hordered : s.Ordered) (hover : s.linkIsOver = true)
    (hn : s.Touched n) : Beyond n s.happenings s := by
  obtain ⟨hthere, hupcoming⟩ := hordered.past n hn
  refine ⟨hthere, hupcoming, ?_, [], (List.append_nil _).symm, by simp⟩
  intro t ht
  unfold linkIsOver at hover
  rw [ht] at hover
  exact .inl hover

/-! ## §4. The account. -/

/-- An accepted command is put at the end of the queue. -/
theorem step_of_accepted {command : List UInt8} (h : (s.step (.send command)).2 = .done) :
    (s.step (.send command)).1 = (s.enqueue (.command command)).settle := by
  have hcall : s.call (Simulation.send · command) = s.step (.send command) := rfl
  rw [← hcall] at h ⊢
  unfold call at h ⊢
  split at h
  next => cases h
  next hheld =>
    rw [if_neg hheld]
    unfold send at h ⊢
    dsimp only at h ⊢
    split at h
    next => cases h
    next hne =>
      rw [if_neg hne]
      split at h
      next => cases h
      next => cases h
      next =>
        split at h
        next => cases h
        next hkept => rw [if_neg hkept]

/-- The item is being written: the rest of it is not on the link yet. -/
def InProgress (s : Simulation) (d : Delivery) : Prop :=
  ∃ t rest, s.transfer = some t ∧ t.number = d.link ∧ t.writer = .writing d.item rest
    ∧ d.bytes ++ rest = d.item.payload

/-- What a run has written, and how. -/
structure Account (s : Simulation) (told : List (Action × Answer)) (ds : List Delivery)
    (lost : List Outbound) : Prop where
  /-- The items queued are those taken on the first link, on the second and so
  on, those still queued, and those given up. -/
  items : queuedItems s.happenings
    = (List.range s.links.size).flatMap (fun n => s.happenings.flatMap (Happening.takenOn n))
      ++ (s.queue ++ lost)
  /-- Items are given up only once all is over, or when the link ends that was
  up without an interval; and then all that are queued. -/
  givenUp : lost = [] ∨ s.queue = []
    ∧ (s.isOver = true ∨ s.config.watchdog = 0 ∧ s.isForsaken = true)
  /-- The commands among them are those accepted. -/
  commands : (queuedItems s.happenings).filterMap Outbound.command? = told.filterMap acceptedBy
  /-- All that is recorded of writing is one delivery after the other. -/
  record : ofWriting s.happenings = ds.flatMap Delivery.happenings
  taken : ∀ n, s.happenings.flatMap (Happening.takenOn n)
    = (ds.filter (·.link = n)).map Delivery.item
  sent : ∀ n, s.happenings.flatMap (Happening.sentOn n)
    = (ds.filter (·.link = n)).flatMap Delivery.bytes
  /-- The receiver has got what was put on a link, or it is on its way. -/
  received : ∀ n, told.flatMap (gotBy n) ++ s.onTheWay n
    = s.happenings.flatMap (Happening.sentOn n)
  part : ∀ d ∈ ds, d.bytes <+: d.item.payload
  /-- An item is put on its link as a whole, unless writing it failed, or it
  is the last one there, in progress still or cut off. -/
  whole : ∀ done d rest, ds = done ++ d :: rest → d.bytes = d.item.payload
    ∨ (∃ e, d.ending = .failed e)
    ∨ (d.ending = .unfinished ∧ (∀ d' ∈ rest, d'.link ≠ d.link)
        ∧ (s.InProgress d ∨ s.LetGo d.link))

theorem Outgoing.items (h : Outgoing es s ds lost) (hordered : s.Ordered) :
    (List.range s.links.size).flatMap (fun n => s.happenings.flatMap (Happening.takenOn n))
      = ds.map Delivery.item := by
  have hsorted : ds.Pairwise (fun d d' => d.link ≤ d'.link) := h.deliveries.order.imp fun h => h.1
  have hlt : ∀ d ∈ ds, d.link < s.links.size := fun d hd =>
    (hordered.past d.link (.inr (.inl ⟨_, h.deliveries.taken hd, rfl⟩))).1
  calc (List.range s.links.size).flatMap (fun n => s.happenings.flatMap (Happening.takenOn n))
      = (List.range s.links.size).flatMap
          (fun n => (ds.filter (·.link = n)).map Delivery.item) := by
        refine List.flatMap_congr ?_
        exact fun n _ => h.deliveries.takenOn_eq n
    _ = ((List.range s.links.size).flatMap (fun n => ds.filter (·.link = n))).map
          Delivery.item := by
        rw [List.map_flatMap]
    _ = ds.map Delivery.item := by
        rw [flatMap_range_filter Delivery.link hsorted hlt]

/-- Of what is delivered on the link of the transfer, at most the last is not
finished: it is in progress, or it is cut off and the link let go. -/
theorem Outgoing.inProgress (h : Outgoing es s ds lost) (hsteady : s.Steady) {d : Delivery}
    (hmem : d ∈ ds) (hopen : d.ending = .unfinished) {t : Transfer} (ht : s.transfer = some t)
    (hnumber : t.number = d.link) : s.InProgress d ∨ s.LetGo d.link := by
  have hholds := h.holds t ht
  cases hwriter : t.writer with
  | idle =>
    rw [hwriter] at hholds
    exact absurd hnumber.symm (hholds d hmem hopen)
  | closed clean =>
    -- the writing half has ended, so the link is to end, and at rest it has ended
    obtain ⟨hsane, link, hthere, hheld⟩ := hsteady.attached t ht
    have hrest := hsteady.resting t link ht hthere
    have hdone : t.isDone = true :=
      (Working.isDone_of_rest hsane hrest).1.trans (hsane.writer clean hwriter)
    have hgone : link.inbound.readerOpen = !t.isDone := hheld
    rw [hdone] at hgone
    exact .inr ⟨link, hnumber ▸ hthere, hgone⟩
  | writing item rest =>
    rw [hwriter] at hholds
    obtain ⟨done, last, hds, hlink, hitem, -, hrest⟩ := hholds
    have hlast : d = last := by
      rw [hds] at hmem
      rcases List.mem_append.mp hmem with hdone | hlast
      · have horder := h.deliveries.order
        rw [hds] at horder
        have hprecedes := (List.pairwise_append.mp horder).2.2 d hdone last
          (List.mem_singleton_self _)
        exact absurd (hnumber.symm.trans hlink.symm) (hprecedes.2 hopen)
      · exact List.mem_singleton.mp hlast
    subst hlast
    subst hitem
    exact .inl ⟨t, rest, ht, hnumber, hwriter, hrest⟩

/-- An item that is neither whole nor lost is the last one of its link. -/
theorem Outgoing.whole (h : Outgoing es s ds lost) (hsteady : s.Steady) {done rest : List Delivery}
    {d : Delivery} (hds : ds = done ++ d :: rest) : d.bytes = d.item.payload
      ∨ (∃ e, d.ending = .failed e)
      ∨ (d.ending = .unfinished ∧ (∀ d' ∈ rest, d'.link ≠ d.link)
          ∧ (s.InProgress d ∨ s.LetGo d.link)) := by
  have hmem : d ∈ ds := by
    rw [hds]
    simp
  cases hending : d.ending with
  | written => exact .inl ((h.deliveries.sound d hmem).whole hending)
  | failed e => exact .inr (.inl ⟨e, rfl⟩)
  | unfinished =>
    have hlast : ∀ d' ∈ rest, d'.link ≠ d.link := by
      intro d' hd'
      have horder := h.deliveries.order
      rw [hds] at horder
      have hprecedes := List.rel_of_pairwise_cons (List.pairwise_append.mp horder).2.1 hd'
      exact Ne.symm (hprecedes.2 hending)
    refine .inr (.inr ⟨rfl, hlast, ?_⟩)
    rcases h.unfinished d hmem hending with ⟨t, ht, hnumber⟩ | hgone
    · exact h.inProgress hsteady hmem hending ht hnumber
    · exact .inr hgone

/-- What is taken on is the item at the same place of the queue. -/
theorem Outgoing.item_eq (h : Outgoing es s ds lost) {k : Nat} {d : Delivery} {item : Outbound}
    (hd : ds[k]? = some d) (hitem : (queuedItems s.happenings)[k]? = some item) :
    d.item = item := by
  have hlt : k < (ds.map Delivery.item).length := by
    rw [List.length_map]
    exact (List.getElem?_eq_some_iff.mp hd).1
  rw [h.entries, List.getElem?_append_left hlt, List.getElem?_map, hd] at hitem
  exact Option.some.inj hitem

/-- A command accepted while there is no link, or only one that is over, is
taken on a later link than all before, if it is. -/
theorem Outgoing.kept {b : Simulation} {dsb : List Delivery} {lostb : List Outbound}
    {esb : List Influence} (h : Outgoing es s ds lost) (hb : Outgoing esb b dsb lostb)
    (hordered : b.Ordered) (hover : b.linkIsOver = true) (hmoves : Moves b es' s) {d : Delivery}
    (hd : ds[(queuedItems b.happenings).length]? = some d) (hn : b.Touched n) : n < d.link := by
  obtain ⟨-, -, -, hs, hrecord, htaken⟩ := hmoves.beyond (beyond_of_over hordered hover hn)
  -- what was taken before is less than what was queued
  have hle : dsb.length ≤ (queuedItems b.happenings).length := by
    rw [hb.entries, List.length_append, List.length_map]
    exact Nat.le_add_right _ _
  have htakes : ds.map (fun d => (d.link, d.item))
      = dsb.map (fun d => (d.link, d.item)) ++ hs.flatMap Happening.takes := by
    rw [← h.deliveries.takes_eq, ← hb.deliveries.takes_eq, hrecord, List.flatMap_append]
  have hlate : (hs.flatMap Happening.takes)[(queuedItems b.happenings).length - dsb.length]?
      = some (d.link, d.item) := by
    have hat : (ds.map (fun d => (d.link, d.item)))[(queuedItems b.happenings).length]?
        = some (d.link, d.item) := by
      rw [List.getElem?_map, hd]
      rfl
    rw [htakes, List.getElem?_append_right (by simpa using hle), List.length_map] at hat
    exact hat
  obtain ⟨x, hx, hmem⟩ := List.mem_flatMap.mp (List.mem_of_getElem? hlate)
  cases x with
  | taken m item =>
    cases List.mem_singleton.mp hmem
    exact htaken _ _ hx
  | _ => cases hmem

theorem Outgoing.account {told : List (Action × Answer)} (h : Outgoing es s ds lost)
    (hsteady : s.Steady) (hconserved : Conserved es s) (htold : Told told es) :
    Account s told ds lost := by
  refine ⟨?_, ?_, ?_, h.deliveries.record, h.deliveries.takenOn_eq, h.deliveries.sentOn_eq, ?_,
    fun d hd => (h.deliveries.sound d hd).part, fun _ _ _ => h.whole hsteady⟩
  · rw [h.items hsteady.ordered]
    exact h.entries
  · rcases h.lost with hlost | hover | hforsaken
    · exact .inl hlost
    · exact .inr ⟨(hsteady.tidy.isOver hover).2, .inl hover⟩
    · have hfailed := (Bool.and_eq_true_iff.mp hforsaken).1
      exact .inr ⟨hsteady.tidy.forsaken hforsaken, .inr ⟨hsteady.tidy.ticks hfailed, hforsaken⟩⟩
  · exact h.commands.trans htold.commands
  · intro n
    rw [← htold.got]
    exact hconserved n

/-- A command accepted has its place in the queue for good. -/
theorem queued_of_accepted {command : List UInt8} (h : s.Tidy)
    (haccepted : (s.step (.send command)).2 = .done) (after : List Action) :
    (queuedItems (s.run (.send command :: after)).happenings)[(queuedItems
      s.happenings).length]? = some (.command command) := by
  obtain ⟨_, hstep, -⟩ := step_moves h (.send command)
  obtain ⟨_, hafter, -⟩ := run_moves (hstep.tidy h) after
  obtain ⟨more, hmore⟩ := hafter.record
  rw [step_of_accepted haccepted] at hmore
  obtain ⟨settled, hsettled⟩ := settle_record (s.enqueue (.command command))
  have hitem : (s.enqueue (.command command)).happenings
      = s.happenings ++ [.queued (.command command)] := happenings_note _ _
  show (queuedItems ((s.step (.send command)).1.run after).happenings)[_]? = _
  rw [step_of_accepted haccepted, hmore, hsettled, hitem, queuedItems_append,
    queuedItems_append, queuedItems_append, List.append_assoc, List.append_assoc,
    List.getElem?_append_right (Nat.le_refl _), Nat.sub_self]
  rfl

/-- **Every run accounts for what it writes.**  And a command accepted while
there is no link, or only one that is over, has its place in the queue; if it
is taken, then on a later link than all that there have been. -/
theorem outbound_account (pace : Pace) (config : SupervisorConfig) (endpoint : Endpoint)
    (actions : List Action) :
    ∃ ds lost,
      Account ((start pace config endpoint).run actions)
        ((start pace config endpoint).answers actions)
        ds lost
      ∧ ∀ before command after, actions = before ++ .send command :: after →
        (((start pace config endpoint).run before).step (.send command)).2 = .done →
        ((start pace config endpoint).run before).linkIsOver = true →
        (queuedItems ((start pace config endpoint).run actions).happenings)[(queuedItems
            ((start pace config endpoint).run before).happenings).length]? = some (.command command)
        ∧ ∀ d, ds[(queuedItems
            ((start pace config endpoint).run before).happenings).length]? = some d →
          d.item = .command command
          ∧ ∀ n, ((start pace config endpoint).run before).Touched n → n < d.link := by
  have hstart := start_steady pace config endpoint
  obtain ⟨es, hmoves, htold⟩ := run_moves hstart.tidy actions
  obtain ⟨ds, lost, h⟩ := hmoves.outgoing hstart (start_outgoing pace config endpoint)
  have hsteady := hmoves.steady hstart
  have hconserved : Conserved [] (start pace config endpoint) := fun n => rfl
  refine ⟨ds, lost, h.account hsteady (hmoves.conserved hconserved) htold, ?_⟩
  rintro before command after rfl haccepted hover
  generalize hb : (start pace config endpoint).run before = b at haccepted hover ⊢
  obtain ⟨esb, hmovesb, -⟩ := run_moves hstart.tidy before
  rw [hb] at hmovesb
  have hsteadyb := hmovesb.steady hstart
  obtain ⟨dsb, lostb, hbooks⟩ := hmovesb.outgoing hstart (start_outgoing pace config endpoint)
  -- the rest of the run, from the command on
  obtain ⟨esr, hrest, -⟩ := run_moves hsteadyb.tidy (.send command :: after)
  rw [run_append, hb] at h hsteady ⊢
  have hqueued := queued_of_accepted hsteadyb.tidy haccepted after
  refine ⟨hqueued, ?_⟩
  intro d hd
  exact ⟨h.item_eq hd hqueued, fun n hn => h.kept hbooks hsteadyb.ordered hover hrest hd hn⟩

/-- The receiver hangs up, and a command comes before there is another link. -/
def losing : List Action :=
  [.accept 8 0, .accept 8 0, .connect, .receiverClose 0]

/-- The link that comes next takes the command. -/
theorem outbound_account_waiting :
    ∃ ds lost,
      Account
        ((start .cooperative {} (.serial {})).run (losing ++ [.send [0x61, 0x62], .advance 1000]))
        ((start .cooperative {} (.serial {})).answers
          (losing ++ [.send [0x61, 0x62], .advance 1000])) ds lost
      ∧ ∃ d rest, ds = d :: rest ∧ d.item = .command [0x61, 0x62] ∧ 0 < d.link := by
  obtain ⟨ds, lost, haccount, hkept⟩ :=
    outbound_account .cooperative {} (.serial {}) (losing ++ [.send [0x61, 0x62], .advance 1000])
  refine ⟨ds, lost, haccount, ?_⟩
  obtain ⟨-, hlater⟩ := hkept losing [0x61, 0x62] [.advance 1000] rfl (by decide +kernel)
    (by decide +kernel)
  have hfirst : queuedItems ((start .cooperative {} (.serial {})).run losing).happenings = [] := by
    decide +kernel
  rw [hfirst] at hlater
  have hletGo : ((start .cooperative {} (.serial {})).run losing).LetGo 0 := ⟨_, rfl, rfl⟩
  cases ds with
  | nil =>
    have htaken : ((start .cooperative {} (.serial {})).run
        (losing ++ [.send [0x61, 0x62], .advance 1000])).happenings.flatMap
          (Happening.takenOn 1) = [] := haccount.taken 1
    exact absurd htaken (by decide +kernel)
  | cons d rest =>
    obtain ⟨hitem, hlink⟩ := hlater d rfl
    exact ⟨d, rest, rfl, hitem, hlink 0 (.inr (.inr hletGo))⟩

/-- Nobody looks after the link.  It takes in but one byte, so that a command is stuck in it, and
another one waits when the receiver closes its side. -/
def forsaking : List Action :=
  [.accept 1 0, .connect, .send [0x41, 0x42], .send [0x43], .receiverShutdown 0]

/-- The command that waits is lost with the link: no link takes it, it is queued no more, and yet
the supervisor is active, neither drained nor shut down nor let go of.  So what is queued is not
what is taken and what is still queued, with what has been given up once all was over. -/
theorem outbound_forsaken :
    let s := (start .cooperative { watchdog := 0 } (.serial {})).run forsaking
    let taken := (List.range s.links.size).flatMap fun n =>
      s.happenings.flatMap (Happening.takenOn n)
    queuedItems s.happenings = [.command [0x41, 0x42], .command [0x43]]
      ∧ taken = [.command [0x41, 0x42]] ∧ s.queue = []
      ∧ s.lifecycle = .active ∧ s.isOver = false
      ∧ ¬ ∃ lost, queuedItems s.happenings = taken ++ (s.queue ++ lost)
        ∧ (lost = [] ∨ s.queue = [] ∧ s.isOver = true) := by
  intro s taken
  have hqueued : queuedItems s.happenings = [.command [0x41, 0x42], .command [0x43]] := by
    decide +kernel
  have htaken : taken = [.command [0x41, 0x42]] := by decide +kernel
  have hqueue : s.queue = [] := by decide +kernel
  have hgoing : s.isOver = false := by decide +kernel
  refine ⟨hqueued, htaken, hqueue, by decide +kernel, hgoing, ?_⟩
  rintro ⟨lost, hitems, hnone | ⟨-, hover⟩⟩
  · rw [hqueued, htaken, hqueue, hnone] at hitems
    cases hitems
  · rw [hgoing] at hover
    cases hover

end Simulation

end ReceiverLink
