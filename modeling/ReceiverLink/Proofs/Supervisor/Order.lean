/-
  ReceiverLink.Proofs.Supervisor.Order
  ────────────────────────────────
  **Links come one after the other.**

  A planned link gets the next number, and the links of a plan are brought up
  in its order.  So the link of the transfer is the latest one on which
  anything has happened, and every link still to come is later than all that
  have been up or have been let go.

  Main statements:
    * `Calm.ordered`, `Stir.ordered`, `settle_ordered` — the order of links is
      kept;
    * `Moves.record` — what has been recorded stays.
-/
import ReceiverLink.Proofs.Supervisor.Runs

namespace ReceiverLink

/-- The receiver does not let go of the supervisor's end. -/
theorem Link.Change.readerOpen {number : Nat} {l l' : Link} {es : List Influence}
    (h : l.Change number es l') : l'.inbound.readerOpen = l.inbound.readerOpen := by
  cases h with
  | @fail operation =>
    cases operation <;> rfl
  | _ => rfl

namespace Simulation

variable {s s' : Simulation} {es : List Influence}

/-! ## §1. The order. -/

/-- Something has happened on the link. -/
def Recorded (s : Simulation) (n : Nat) : Prop :=
  ∃ h ∈ s.happenings, h.link? = some n

/-- The supervisor has let go of the link. -/
def LetGo (s : Simulation) (n : Nat) : Prop :=
  ∃ link, s.links[n]? = some link ∧ link.inbound.readerOpen = false

/-- The supervisor has, or has had, to do with the link. -/
def Touched (s : Simulation) (n : Nat) : Prop :=
  (∃ t, s.transfer = some t ∧ t.number = n) ∨ s.Recorded n ∨ s.LetGo n

/-- The link is there, and all links to come are later. -/
def Past (s : Simulation) (n : Nat) : Prop :=
  n < s.links.size ∧ ∀ m ∈ s.upcoming, n < m

structure Ordered (s : Simulation) : Prop where
  increasing : s.upcoming.Pairwise (· < ·)
  planned : ∀ n ∈ s.upcoming, n < s.links.size
  past : ∀ n, s.Touched n → s.Past n
  /-- Nothing has happened on a link later than that of the transfer. -/
  latest : ∀ t, s.transfer = some t → ∀ n, s.Recorded n → n ≤ t.number

theorem start_ordered (pace : Pace) (config : SupervisorConfig) (endpoint : Endpoint) :
    Ordered (start pace config endpoint) := by
  refine ⟨List.Pairwise.nil, ?_, ?_, ?_⟩
  · intro n hn
    cases hn
  · rintro n (⟨t, ht, -⟩ | ⟨h, hmem, -⟩ | ⟨link, hlink, -⟩)
    · cases ht
    · cases hmem
    · cases hlink
  · intro t ht
    cases ht

/-- What is past stays so while no link is planned. -/
theorem Past.mono {n : Nat} (h : s.Past n) (hsize : s'.links.size = s.links.size)
    (hupcoming : s'.upcoming.Sublist s.upcoming) : s'.Past n := by
  refine ⟨?_, fun m hm => h.2 m (hupcoming.subset hm)⟩
  rw [hsize]
  exact h.1

/-- No link is planned: only what is touched now has to be looked at. -/
theorem Ordered.next (h : Ordered s) (hsize : s'.links.size = s.links.size)
    (hupcoming : s'.upcoming.Sublist s.upcoming)
    (htouched : ∀ n, s'.Touched n → s.Touched n ∨ s'.Past n)
    (hlatest : ∀ t, s'.transfer = some t → ∀ n, s'.Recorded n → n ≤ t.number) : Ordered s' := by
  refine ⟨h.increasing.sublist hupcoming, ?_, ?_, hlatest⟩
  · intro n hn
    rw [hsize]
    exact h.planned n (hupcoming.subset hn)
  · intro n hn
    rcases htouched n hn with hold | hnow
    · exact (h.past n hold).mono hsize hupcoming
    · exact hnow

/-! ## §2. Moves keep it. -/

theorem Recorded.of_append {n : Nat} {hs : List Happening}
    (hrecord : s'.happenings = s.happenings ++ hs) (h : s'.Recorded n) :
    s.Recorded n ∨ ∃ x ∈ hs, x.link? = some n := by
  obtain ⟨x, hx, hn⟩ := h
  rw [hrecord] at hx
  rcases List.mem_append.mp hx with hold | hnew
  · exact .inl ⟨x, hold, hn⟩
  · exact .inr ⟨x, hnew, hn⟩

theorem link?_of_steering {x : Happening} (hside : x.side = .steering) : x.link? = none := by
  cases x <;> first | rfl | cases hside

/-- Steering is not about a link. -/
theorem Recorded.of_apart {n : Nat} (apart : Apart s s') (h : s'.Recorded n) : s.Recorded n := by
  obtain ⟨hs, hrecord, hside⟩ := apart.record
  rcases h.of_append hrecord with hold | ⟨x, hx, hn⟩
  · exact hold
  · have hsteering := hside x hx
    rw [link?_of_steering hsteering] at hn
    cases hn

/-- Who gives up an attempt lets go of its link. -/
theorem dismiss_links (s : Simulation) :
    (s.watch.link? = none ∧ s.dismiss.links = s.links)
      ∨ ∃ link, s.watch.link? = some link ∧ s.dismiss.links = s.links.modify link Link.release := by
  unfold dismiss Watch.link?
  cases s.watch with
  | attempting number outcome moment =>
    cases outcome with
    | ok link => exact .inr ⟨link, rfl, rfl⟩
    | error kind => exact .inl ⟨rfl, rfl⟩
  | _ => exact .inl ⟨rfl, rfl⟩

/-- What becomes of a link when the watchdog goes. -/
theorem getElem?_dismiss (s : Simulation) (n : Nat) :
    s.dismiss.links[n]? = s.links[n]? ∨ s.dismiss.links[n]? = s.links[n]?.map Link.release := by
  rcases s.dismiss_links with ⟨-, hlinks⟩ | ⟨link, -, hlinks⟩
  · exact .inl (by rw [hlinks])
  · rw [hlinks, Array.getElem?_modify]
    split
    next => exact .inr rfl
    next => exact .inl rfl

theorem size_dismiss (s : Simulation) : s.dismiss.links.size = s.links.size := by
  rcases s.dismiss_links with ⟨-, hlinks⟩ | ⟨link, -, hlinks⟩
  · rw [hlinks]
  · rw [hlinks, Array.size_modify]

theorem LetGo.of_links {n : Nat} (hlinks : s'.links = s.links) (h : s.LetGo n) : s'.LetGo n := by
  unfold LetGo
  rw [hlinks]
  exact h

/-- The receiver lets go of its own end only. -/
theorem letGo_of_change {number n : Nat} {link link' : Link} (there : s.links[number]? = some link)
    (change : link.Change number es link') :
    LetGo { s with links := s.links.setIfInBounds number link' } n ↔ s.LetGo n := by
  unfold LetGo
  dsimp only
  rw [getElem?_replaced there]
  by_cases hn : number = n
  · subst hn
    rw [if_pos rfl, there]
    simp [change.readerOpen]
  · rw [if_neg hn]

/-- The transfer and the links stay, and the record is about no new link. -/
theorem Touched.of_keep {n : Nat} (htransfer : s'.transfer = s.transfer)
    (hrecorded : s'.Recorded n → s.Recorded n) (hlinks : s'.links = s.links)
    (h : s'.Touched n) : s.Touched n := by
  rcases h with ⟨t, ht, hn⟩ | hrecord | hgone
  · exact .inl ⟨t, by rwa [htransfer] at ht, hn⟩
  · exact .inr (.inl (hrecorded hrecord))
  · exact .inr (.inr (hgone.of_links hlinks.symm))

/-- What is let go when the watchdog goes was let go before, or it is the link
of the attempt that is given up. -/
theorem LetGo.of_dismiss {n : Nat} (h : s.dismiss.LetGo n) :
    s.LetGo n ∨ s.watch.link? = some n := by
  obtain ⟨link, hlink, hgone⟩ := h
  rcases s.dismiss_links with ⟨-, hlinks⟩ | ⟨m, hwatch, hlinks⟩
  · rw [hlinks] at hlink
    exact .inl ⟨link, hlink, hgone⟩
  · by_cases hm : m = n
    · exact .inr (hm ▸ hwatch)
    · rw [hlinks, Array.getElem?_modify, if_neg hm] at hlink
      exact .inl ⟨link, hlink, hgone⟩

/-- The link of an attempt in progress comes before all others to come. -/
theorem Ordered.attempted (h : s.Ordered) {n : Nat} (hwatch : s.watch.link? = some n) :
    n < s.links.size ∧ ∀ m ∈ s.dismiss.upcoming, n < m := by
  have hupcoming : s.upcoming = n :: s.dismiss.upcoming := by
    show s.watch.link?.toList ++ _ = _
    rw [hwatch]
    rfl
  have hincreasing := h.increasing
  rw [hupcoming] at hincreasing
  refine ⟨h.planned n ?_, fun m hm => List.rel_of_pairwise_cons hincreasing hm⟩
  rw [hupcoming]
  exact List.mem_cons_self ..

/-- A new link comes after all others. -/
theorem upcoming_accept (s : Simulation) (capacity delay : Nat) :
    upcoming { s with
      links := s.links.push (.new capacity)
      plan := s.plan ++ [⟨.ok s.links.size, delay⟩] } = s.upcoming ++ [s.links.size] := by
  simp [upcoming, Attempt.link?, Except.toOption]

/-- It is held as soon as it is there. -/
theorem LetGo.of_accept {n capacity delay : Nat}
    (h : LetGo { s with
      links := s.links.push (.new capacity)
      plan := s.plan ++ [⟨.ok s.links.size, delay⟩] } n) : s.LetGo n := by
  obtain ⟨link, hlink, hgone⟩ := h
  have hplace : (s.links.push (.new capacity))[n]? = some link := hlink
  rw [Array.getElem?_push] at hplace
  split at hplace
  next =>
    cases hplace
    cases hgone
  next => exact ⟨link, hplace, hgone⟩

theorem Ordered.accept (h : s.Ordered) (capacity delay : Nat) :
    Ordered { s with
      links := s.links.push (.new capacity)
      plan := s.plan ++ [⟨.ok s.links.size, delay⟩] } := by
  have hupcoming := s.upcoming_accept capacity delay
  have hsize : (s.links.push (.new capacity)).size = s.links.size + 1 := Array.size_push _
  refine ⟨?_, ?_, ?_, h.latest⟩
  · rw [hupcoming, List.pairwise_append]
    refine ⟨h.increasing, List.pairwise_singleton _ _, ?_⟩
    intro n hn m hm
    rw [List.mem_singleton.mp hm]
    exact h.planned n hn
  · intro n hn
    rw [hupcoming] at hn
    show n < (s.links.push _).size
    rw [hsize]
    rcases List.mem_append.mp hn with hold | hnew
    · exact Nat.lt_succ_of_lt (h.planned n hold)
    · rw [List.mem_singleton.mp hnew]
      exact Nat.lt_succ_self _
  · intro n hn
    -- nothing has happened yet on the new link
    have hold : s.Touched n := by
      rcases hn with hcurrent | hrecorded | hgone
      · exact .inl hcurrent
      · exact .inr (.inl hrecorded)
      · exact .inr (.inr hgone.of_accept)
    obtain ⟨hlt, hlater⟩ := h.past n hold
    refine ⟨?_, ?_⟩
    · show n < (s.links.push _).size
      omega
    · intro m hm
      rw [hupcoming] at hm
      rcases List.mem_append.mp hm with hm | hm
      · exact hlater m hm
      · rw [List.mem_singleton.mp hm]
        exact hlt

theorem Calm.ordered (h : Ordered s) (hcalm : Calm s es s') : Ordered s' := by
  cases hcalm with
  | steer apart transfer upcoming =>
    refine h.next (by rw [apart.links]) upcoming ?_ ?_
    · exact fun n hn => .inl (hn.of_keep transfer (.of_apart apart) apart.links)
    · intro t ht n hn
      rw [transfer] at ht
      exact h.latest t ht n (.of_apart apart hn)
  | detach =>
    refine h.next rfl (List.Sublist.refl _) ?_ (fun t ht => nomatch ht)
    -- what is recorded or let go was so before
    rintro n (⟨t, ht, -⟩ | hrest)
    · cases ht
    · exact .inl (.inr hrest)
  | dismiss apart transfer upcoming isOver watch =>
    have hsub : s.dismiss.upcoming.Sublist s.upcoming := List.sublist_append_right _ _
    have hsize : s'.links.size = s.links.size := by rw [apart.links, size_dismiss]
    have hrecorded : ∀ n, s'.Recorded n → s.Recorded n :=
      fun n hn => .of_apart (s := s.dismiss) apart hn
    refine h.next hsize (upcoming.trans hsub) ?_ ?_
    · rintro n (⟨t, ht, hn⟩ | hrecord | hgone)
      · rw [transfer] at ht
        exact .inl (.inl ⟨t, ht, hn⟩)
      · exact .inl (.inr (.inl (hrecorded n hrecord)))
      · rcases (hgone.of_links apart.links.symm).of_dismiss with hold | hwatch
        · exact .inl (.inr (.inr hold))
        · -- the link that the attempt would have brought
          obtain ⟨hlt, hlater⟩ := h.attempted hwatch
          exact .inr ⟨hsize ▸ hlt, fun m hm => hlater m (upcoming.subset hm)⟩
    · intro t ht n hn
      rw [transfer] at ht
      exact h.latest t ht n (hrecorded n hn)
  | accept capacity delay => exact h.accept capacity delay
  | leave =>
    refine h.next rfl (List.Sublist.refl _) ?_ h.latest
    exact fun n hn => .inl (hn.of_keep rfl id rfl)

theorem Stir.ordered (h : Ordered s) (hstir : Stir s es s') : Ordered s' := by
  cases hstir with
  | nothing => exact h
  | up link apart _ _ _ transfer upcoming =>
    have hlink : link ∈ s.upcoming := upcoming.subset (List.mem_cons_self ..)
    have hincreasing := h.increasing.sublist upcoming
    refine h.next (by rw [apart.links]) ((List.sublist_cons_self _ _).trans upcoming) ?_ ?_
    · rintro n (⟨t, ht, hn⟩ | hrecord | hgone)
      · -- what came first of those to come is past now
        rw [transfer] at ht
        cases ht
        cases hn
        refine .inr ⟨?_, fun m hm => List.rel_of_pairwise_cons hincreasing hm⟩
        rw [apart.links]
        exact h.planned link hlink
      · exact .inl (.inr (.inl (.of_apart apart hrecord)))
      · unfold LetGo at hgone
        rw [apart.links] at hgone
        exact .inl (.inr (.inr hgone))
    · intro t ht n hn
      rw [transfer] at ht
      cases ht
      exact Nat.le_of_lt ((h.past n (.inr (.inl (.of_apart apart hn)))).2 link hlink)
  | enqueue item going _ apart transfer _ upcoming =>
    -- what is queued is about no link
    have hrecorded : ∀ n, s'.Recorded n → s.Recorded n := by
      intro n hn
      have hqueued : (s.enqueue item).Recorded n := .of_apart apart hn
      rcases hqueued.of_append (happenings_note _ _) with hold | ⟨x, hx, hn⟩
      · exact hold
      · rw [List.mem_singleton.mp hx] at hn
        cases hn
    refine h.next (by rw [apart.links]; rfl) (upcoming ▸ List.Sublist.refl _) ?_ ?_
    · exact fun n hn => .inl (hn.of_keep transfer (hrecorded n) apart.links)
    · intro t ht n hn
      rw [transfer] at ht
      exact h.latest t ht n (hrecorded n hn)
  | cancel =>
    refine h.next rfl (List.Sublist.refl _) ?_ ?_
    · rintro n (⟨u, hu, rfl⟩ | hrest)
      · obtain ⟨t, ht, rfl⟩ := Option.map_eq_some_iff.mp hu
        exact .inl (.inl ⟨t, ht, rfl⟩)
      · exact .inl (.inr hrest)
    · intro u hu n hn
      obtain ⟨t, ht, rfl⟩ := Option.map_eq_some_iff.mp hu
      exact h.latest t ht n hn
  | @change number link link' _ there change =>
    refine h.next (by simp) (List.Sublist.refl _) ?_ h.latest
    rintro n (hcurrent | hrecord | hgone)
    · exact .inl (.inl hcurrent)
    · exact .inl (.inr (.inl hrecord))
    · exact .inl (.inr (.inr ((letGo_of_change there change).mp hgone)))

theorem settle_ordered (h : Ordered s) : Ordered s.settle := by
  refine settle_rule h ?_
  intro t link w transfer there works
  have hnumber : w.transfer.number = t.number := works.same.number
  have hrecorded : ∀ n, (s.absorb w).Recorded n → s.Recorded n ∨ n = t.number := by
    intro n hn
    rcases hn.of_append (happenings_absorb _ _) with hold | ⟨x, hx, hn⟩
    · exact .inl hold
    · exact .inr ((recorded_of_works works x hx).1 n hn)
  refine h.next (size_absorb _ _) (List.Sublist.refl _) ?_ ?_
  · -- all that is touched now was touched, or is the transfer's link
    have hcurrent : s.Touched t.number := .inl ⟨t, transfer, rfl⟩
    rintro n (⟨u, hu, rfl⟩ | hn | ⟨link', hlink', hgone⟩)
    · cases hu
      rw [hnumber]
      exact .inl hcurrent
    · rcases hrecorded n hn with hold | rfl
      · exact .inl (.inr (.inl hold))
      · exact .inl hcurrent
    · by_cases hn : t.number = n
      · exact .inl (hn ▸ hcurrent)
      · rw [getElem?_absorb hnumber there, if_neg hn] at hlink'
        exact .inl (.inr (.inr ⟨link', hlink', hgone⟩))
  · intro u hu n hn
    cases hu
    rw [hnumber]
    rcases hrecorded n hn with hold | rfl
    · exact h.latest t transfer n hold
    · exact Nat.le_refl _

/-! ## §3. What has been recorded stays. -/

theorem Calm.record (hcalm : Calm s es s') : ∃ hs, s'.happenings = s.happenings ++ hs := by
  cases hcalm with
  | steer apart =>
    obtain ⟨hs, hrecord, -⟩ := apart.record
    exact ⟨hs, hrecord⟩
  | detach => exact ⟨[], (List.append_nil _).symm⟩
  | dismiss apart =>
    obtain ⟨hs, hrecord, -⟩ := apart.record
    exact ⟨hs, hrecord⟩
  | accept => exact ⟨[], (List.append_nil _).symm⟩
  | leave => exact ⟨[], (List.append_nil _).symm⟩

theorem Stir.record (hstir : Stir s es s') : ∃ hs, s'.happenings = s.happenings ++ hs := by
  cases hstir with
  | nothing => exact ⟨[], (List.append_nil _).symm⟩
  | up _ apart =>
    obtain ⟨hs, hrecord, -⟩ := apart.record
    exact ⟨hs, hrecord⟩
  | enqueue item _ _ apart =>
    obtain ⟨hs, hrecord, -⟩ := apart.record
    have hqueued : (s.enqueue item).happenings = s.happenings ++ [.queued item] :=
      happenings_note _ _
    exact ⟨.queued item :: hs, by rw [hrecord, hqueued, List.append_assoc]; rfl⟩
  | cancel => exact ⟨[], (List.append_nil _).symm⟩
  | change => exact ⟨[], (List.append_nil _).symm⟩

theorem settle_record (s : Simulation) : ∃ hs, s.settle.happenings = s.happenings ++ hs := by
  refine settle_rule (P := fun a => ∃ hs, a.happenings = s.happenings ++ hs) ?_ ?_
  · exact ⟨[], (List.append_nil _).symm⟩
  · exact fun _ _ w _ _ _ => ⟨w.happenings, happenings_absorb _ _⟩

theorem settle_config (s : Simulation) : s.settle.config = s.config :=
  settle_rule (P := fun a => a.config = s.config) rfl fun _ _ _ _ _ _ => rfl

/-- The configuration is for the whole life of a supervisor. -/
theorem Moves.config (hmoves : Moves s es s') : s'.config = s.config := by
  induction hmoves with
  | refl => rfl
  | tail _ hmove ih =>
    rw [← ih]
    cases hmove with
    | calm hcalm =>
      cases hcalm with
      | steer apart => exact apart.config
      | dismiss apart => exact apart.config
      | _ => rfl
    | stir hstir =>
      rw [settle_config]
      cases hstir with
      | up _ apart => exact apart.config
      | enqueue _ _ _ apart => exact apart.config
      | _ => rfl

theorem Moves.record (hmoves : Moves s es s') : ∃ hs, s'.happenings = s.happenings ++ hs := by
  induction hmoves with
  | refl => exact ⟨[], (List.append_nil _).symm⟩
  | tail _ hmove ih =>
    obtain ⟨hs, hrecord⟩ := ih
    cases hmove with
    | calm hcalm =>
      obtain ⟨more, hmore⟩ := hcalm.record
      exact ⟨hs ++ more, by rw [hmore, hrecord, List.append_assoc]⟩
    | stir hstir =>
      obtain ⟨more, hmore⟩ := hstir.record
      obtain ⟨last, hlast⟩ := settle_record _
      exact ⟨hs ++ (more ++ last), by rw [hlast, hmore, hrecord]; simp⟩

end Simulation

end ReceiverLink
