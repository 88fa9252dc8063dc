/-
  ReceiverLink.Proofs.Framer.Captured
  ────────────────────────────────
  **A telegram is as old as its first byte.**

  Every byte that a framer takes is stamped with the time of the push that
  took it.  The bytes in progress are always the last ones taken, and the time
  that is kept with them is the stamp of the first of them (`Dated`): a push
  lets them grow and keeps the time, starts them afresh with its own byte and
  its own time, or does away with them (`Outcome`).  Nothing is asked of the
  times; they may run backwards.

  Main statements:
    * `push_outcome` — what one push makes of the bytes in progress;
    * `push_dated` — it keeps them dated, and what it delivers is dated too;
    * `captured_at_first_byte` — so is every telegram of a run.
-/
import ReceiverLink.Proofs.Reader.Exact

namespace ReceiverLink

namespace Framer

variable {maxBlock : Nat} {f : Framer}

/-! ## §1. What one push makes of the bytes in progress. -/

/-- Once a telegram has begun, some of it has come. -/
theorem Coherent.draft_ne_nil (h : Coherent maxBlock f) (hstage : f.stage ≠ .idle) :
    f.draft.bytes.toList ≠ [] := by
  have hprogress := h.progress
  generalize f.stage = stage at hprogress hstage
  generalize f.draft = d at hprogress
  cases hprogress with
  | idle => exact absurd rfl hstage
  | selecting | confirming => exact List.cons_ne_nil _ _
  | header sync | body sync => exact List.ne_nil_of_mem (sync.subset List.mem_cons_self)
  | line opens _ come =>
    rw [come]
    exact List.append_ne_nil_of_left_ne_nil opens.ne_nil _
  | plain _ _ _ come =>
    rw [come]
    exact List.cons_ne_nil _ _

/-- Some bytes have been taken at a time: what has become of the telegram in
progress, and what was delivered. -/
inductive Outcome (f : Framer) (bytes : List UInt8) (now : Time) : Step → Prop where
  /-- They come after those in progress, which are older. -/
  | grown {g : Framer} {events : List FramingEvent} (after : f.draft.bytes.toList ≠ [])
      (come : g.draft.bytes.toList = f.draft.bytes.toList ++ bytes)
      (older : g.draft.captured = f.draft.captured) : Outcome f bytes now ⟨g, none, events⟩
  /-- The one byte taken is the first of a telegram. -/
  | begun {g : Framer} {events : List FramingEvent} {byte : UInt8} (only : bytes = [byte])
      (start : g.draft = .startingWith byte now) : Outcome f bytes now ⟨g, none, events⟩
  /-- Nothing is in progress any more. -/
  | dropped {g : Framer} {events : List FramingEvent} (gone : g.draft = {}) :
      Outcome f bytes now ⟨g, none, events⟩
  /-- They were the last ones of the telegram in progress. -/
  | delivered {g : Framer} (after : f.draft.bytes.toList ≠ [])
      (come : g.draft.bytes.toList = f.draft.bytes.toList ++ bytes)
      (older : g.draft.captured = f.draft.captured) : Outcome f bytes now g.deliver

theorem takeFirst_outcome (f : Framer) (byte : UInt8) (now : Time) :
    Outcome f [byte] now (f.takeFirst byte now) := by
  unfold takeFirst
  split
  next hsync => exact .begun rfl (by rw [hsync]; rfl)
  next => exact .begun rfl rfl

theorem takeSelector_outcome (hbegun : f.draft.bytes.toList ≠ []) (byte : UInt8) (now : Time) :
    Outcome f [byte] now (f.takeSelector byte now) := by
  unfold takeSelector
  split
  next hsync => exact .begun rfl (by rw [hsync]; rfl)
  next =>
    split
    next => exact .grown hbegun (f.draft.push_toList byte) rfl
    next => exact .dropped rfl

theorem takeConfirmation_outcome (hbegun : f.draft.bytes.toList ≠ []) (byte : UInt8) (now : Time) :
    Outcome f [byte] now (f.takeConfirmation byte now) := by
  unfold takeConfirmation
  split
  next hsync => exact .begun rfl (by rw [hsync]; rfl)
  next =>
    split
    next => exact .grown hbegun (f.draft.push_toList byte) rfl
    next => exact .dropped rfl

/-- A `$` inside a line is not the end of that line but the start of another. -/
theorem takeLineByte_outcome (hbegun : f.draft.bytes.toList ≠ []) (byte : UInt8) (now : Time) :
    Outcome f [byte] now (f.takeLineByte byte now) := by
  have hcome := f.draft.push_toList byte
  unfold takeLineByte
  dsimp only
  split
  next hsync => exact .begun rfl (by rw [hsync]; rfl)
  next =>
    split
    next =>
      split
      next => exact .delivered hbegun hcome rfl
      next => exact .dropped rfl
    next =>
      split
      next => exact .delivered hbegun hcome rfl
      next => exact .grown hbegun hcome rfl

theorem checkBody_outcome (hbegun : f.draft.bytes.toList ≠ []) (bytes : List UInt8)
    (now : Time) : Outcome f bytes now (f.grow bytes).checkBody := by
  unfold checkBody
  dsimp only
  split
  next => exact .delivered hbegun (f.grow_toList bytes) rfl
  next => exact .dropped rfl

theorem checkHeader_outcome (hbegun : f.draft.bytes.toList ≠ []) (bytes : List UInt8)
    (now : Time) : Outcome f bytes now (f.grow bytes).checkHeader := by
  unfold checkHeader
  dsimp only
  split
  next => exact .dropped rfl
  next =>
    split
    next => exact .dropped rfl
    next =>
      split
      next => exact checkBody_outcome hbegun bytes now
      next => exact .grown hbegun (f.grow_toList bytes) rfl

theorem takeBlockBytes_outcome (hbegun : f.draft.bytes.toList ≠ []) {check : Framer → Step}
    (hcheck : checkOf f.stage = some check) (bytes : List UInt8) (now : Time) :
    Outcome f bytes now (f.takeBlockBytes bytes check) := by
  rw [takeBlockBytes_eq]
  split
  next => exact .grown hbegun (f.grow_toList bytes) rfl
  next =>
    rcases stage_of_checkOf hcheck with ⟨-, rfl⟩ | ⟨_, -, rfl⟩
    · exact checkHeader_outcome hbegun bytes now
    · exact checkBody_outcome hbegun bytes now

/-- **One push** of something lets the bytes in progress grow, starts them
afresh, drops them or delivers them. -/
theorem push_outcome (h : Coherent maxBlock f) {bytes : List UInt8} (hne : bytes ≠ [])
    (now : Time) : Outcome f (bytes.take (f.push bytes now).1) now (f.push bytes now).2 := by
  match bytes with
  | [] => exact absurd rfl hne
  | byte :: rest =>
    by_cases hidle : f.stage = .idle
    · rw [push_idle hidle]
      exact takeFirst_outcome f byte now
    have hbegun := h.draft_ne_nil hidle
    cases hstage : f.stage with
    | idle => exact absurd hstage hidle
    | selecting =>
      rw [push_selecting hstage]
      exact takeSelector_outcome hbegun byte now
    | confirming =>
      rw [push_confirming hstage]
      exact takeConfirmation_outcome hbegun byte now
    | line =>
      rw [push_line hstage]
      exact takeLineByte_outcome hbegun byte now
    | header | body =>
      obtain ⟨check, hcheck⟩ : ∃ check, checkOf f.stage = some check := by
        rw [hstage]
        exact ⟨_, rfl⟩
      rw [push_of_checkOf hcheck (List.cons_ne_nil _ _)]
      dsimp only
      rw [List.length_take, ← List.take_eq_take_min]
      exact takeBlockBytes_outcome hbegun hcheck _ now

/-! ## §2. Stamped bytes. -/

/-- The bytes, each with the time at which they were taken. -/
def stamp (bytes : List UInt8) (now : Time) : List (UInt8 × Time) :=
  bytes.map fun byte => (byte, now)

theorem stamp_bytes (bytes : List UInt8) (now : Time) : (stamp bytes now).map Prod.fst = bytes := by
  simp [stamp, Function.comp_def]

/-- These are the stamps of the bytes, and the time is that of the first. -/
structure Dated (stamps : List (UInt8 × Time)) (bytes : List UInt8) (captured : Time) : Prop where
  bytes : stamps.map Prod.fst = bytes
  first : ∀ first ∈ stamps.head?, first.2 = captured

namespace Dated

variable {stamps : List (UInt8 × Time)} {bytes : List UInt8} {captured : Time}

theorem nil (captured : Time) : Dated [] [] captured :=
  ⟨rfl, nofun⟩

/-- What comes later does not change the time of what came first. -/
theorem append (h : Dated stamps bytes captured) (hbegun : bytes ≠ []) (more : List UInt8)
    (now : Time) : Dated (stamps ++ stamp more now) (bytes ++ more) captured := by
  obtain ⟨hbytes, hfirst⟩ := h
  cases stamps with
  | nil => exact absurd hbytes.symm hbegun
  | cons first rest => exact ⟨by rw [List.map_append, stamp_bytes, hbytes], hfirst⟩

end Dated

/-- **One push keeps the bytes in progress dated**, the last ones that were
taken, and a telegram that it delivers is dated by all of them. -/
theorem push_dated (h : Coherent maxBlock f) {own : List (UInt8 × Time)}
    (hown : Dated own f.draft.bytes.toList f.draft.captured) (bytes : List UInt8) (now : Time) :
    (∃ own', own' <:+ own ++ stamp (bytes.take (f.push bytes now).1) now ∧
      Dated own' (f.push bytes now).2.framer.draft.bytes.toList
        (f.push bytes now).2.framer.draft.captured) ∧
    ∀ t ∈ (f.push bytes now).2.telegram,
      Dated (own ++ stamp (bytes.take (f.push bytes now).1) now) t.bytes t.captured ∧
        t.bytes ≠ [] := by
  by_cases hne : bytes = []
  · subst hne
    exact ⟨⟨own, ⟨[], (List.append_nil own).symm⟩, hown⟩, nofun⟩
  have houtcome := push_outcome h hne now
  generalize bytes.take (f.push bytes now).1 = took at houtcome ⊢
  generalize (f.push bytes now).2 = step at houtcome ⊢
  cases houtcome with
  | grown after come older =>
    refine ⟨⟨_, List.suffix_refl _, ?_⟩, nofun⟩
    show Dated _ _ _
    rw [come, older]
    exact hown.append after took now
  | begun only start =>
    rw [only, start]
    exact ⟨⟨_, List.suffix_append _ _, rfl, by simp [stamp, Draft.startingWith]⟩, nofun⟩
  | dropped gone =>
    rw [gone]
    exact ⟨⟨[], List.nil_suffix, .nil _⟩, nofun⟩
  | @delivered g after come older =>
    refine ⟨⟨[], List.nil_suffix, .nil _⟩, ?_⟩
    rintro t ⟨⟩
    show Dated _ g.draft.bytes.toList g.draft.captured ∧ g.draft.bytes.toList ≠ []
    rw [come, older]
    exact ⟨hown.append after took now, List.append_ne_nil_of_left_ne_nil after took⟩

/-! ## §3. Runs. -/

/-- The bytes that pushes take, each with the time of its push. -/
def stamps (f : Framer) : List (List UInt8 × Time) → List (UInt8 × Time)
  | [] => []
  | p :: rest =>
      stamp (p.1.take (f.push p.1 p.2).1) p.2 ++ stamps (f.push p.1 p.2).2.framer rest

/-- The telegrams that pushes deliver, each with the stamped bytes that had
been taken when it was whole. -/
def deliveries (f : Framer) :
    List (List UInt8 × Time) → List (Telegram × List (UInt8 × Time))
  | [] => []
  | p :: rest =>
      let now := stamp (p.1.take (f.push p.1 p.2).1) p.2
      (f.push p.1 p.2).2.telegram.toList.map (fun t => (t, now)) ++
        (deliveries (f.push p.1 p.2).2.framer rest).map fun d => (d.1, now ++ d.2)

theorem stamps_bytes (f : Framer) (pushes : List (List UInt8 × Time)) :
    (f.stamps pushes).map Prod.fst = f.taken pushes := by
  induction pushes generalizing f with
  | nil => rfl
  | cons p rest ih => rw [stamps, List.map_append, stamp_bytes, ih, taken]

/-- These are all the telegrams of the run, in order. -/
theorem deliveries_telegrams (f : Framer) (pushes : List (List UInt8 × Time)) :
    (f.deliveries pushes).map Prod.fst = (f.pushAll pushes).telegrams.toList := by
  induction pushes generalizing f with
  | nil => rfl
  | cons p rest ih =>
    show _ = ((f.push p.1 p.2).2.telegram.toArray
      ++ ((f.push p.1 p.2).2.framer.pushAll rest).telegrams).toList
    rw [Array.toList_append, ← ih, deliveries]
    cases (f.push p.1 p.2).2.telegram <;> simp [Function.comp_def]

/-- What had been taken is the start of what is taken in the whole run. -/
theorem deliveries_stamps (f : Framer) (pushes : List (List UInt8 × Time)) :
    ∀ d ∈ f.deliveries pushes, d.2 <+: f.stamps pushes := by
  induction pushes generalizing f with
  | nil => nofun
  | cons p rest ih =>
    intro d hd
    rw [deliveries, List.mem_append, List.mem_map, List.mem_map] at hd
    rw [stamps]
    rcases hd with ⟨t, -, rfl⟩ | ⟨d, hd, rfl⟩
    · exact List.prefix_append _ _
    · exact (List.prefix_append_right_inj _).mpr (ih _ d hd)

/-- **A run keeps the bytes in progress dated**, and delivers telegrams dated by the last bytes. -/
theorem deliveries_dated {f : Framer} (h : Coherent maxBlock f) {own : List (UInt8 × Time)}
    (hown : Dated own f.draft.bytes.toList f.draft.captured)
    (pushes : List (List UInt8 × Time)) :
    ∀ d ∈ f.deliveries pushes, ∃ stamps, stamps <:+ own ++ d.2 ∧
      Dated stamps d.1.bytes d.1.captured ∧ d.1.bytes ≠ [] := by
  induction pushes generalizing f own with
  | nil => nofun
  | cons p rest ih =>
    obtain ⟨⟨own', hsuffix, hown'⟩, htelegram⟩ := push_dated h hown p.1 p.2
    intro d hd
    rw [deliveries, List.mem_append, List.mem_map, List.mem_map] at hd
    rcases hd with ⟨t, ht, rfl⟩ | ⟨d, hd, rfl⟩
    · exact ⟨_, List.suffix_refl _, htelegram t (Option.mem_toList.mp ht)⟩
    · -- what is in progress after the push is the end of what had been taken
      obtain ⟨stamps, hstamps, hdated⟩ := ih (push_coherent h p.1 p.2) hown' d hd
      refine ⟨stamps, hstamps.trans ?_, hdated⟩
      rw [← List.append_assoc]
      obtain ⟨before, hbefore⟩ := hsuffix
      exact ⟨before, by rw [← hbefore, List.append_assoc]⟩

/-- **The capture time of a telegram is the time of its first byte.**  Whatever
is pushed on a new framer, at any times and in any chunks: each telegram that
it delivers is made of the last bytes taken when it was whole, and its capture
time is the time of the push that took the first of them. -/
theorem captured_at_first_byte (maxBlock : Nat) (pushes : List (List UInt8 × Time)) :
    ((new maxBlock).deliveries pushes).map Prod.fst
        = ((new maxBlock).pushAll pushes).telegrams.toList
      ∧ ((new maxBlock).stamps pushes).map Prod.fst = (new maxBlock).taken pushes
      ∧ ∀ d ∈ (new maxBlock).deliveries pushes, d.2 <+: (new maxBlock).stamps pushes
        ∧ ∃ earlier first rest, d.2 = earlier ++ first :: rest
          ∧ (first :: rest).map Prod.fst = d.1.bytes ∧ first.2 = d.1.captured := by
  refine ⟨deliveries_telegrams _ _, stamps_bytes _ _, fun d hd => ⟨deliveries_stamps _ _ d hd, ?_⟩⟩
  obtain ⟨stamps, ⟨earlier, hsuffix⟩, ⟨hbytes, hfirst⟩, hne⟩ :=
    deliveries_dated (new_coherent maxBlock) (.nil _) pushes d hd
  cases stamps with
  | nil => exact absurd hbytes.symm hne
  | cons first rest => exact ⟨earlier, first, rest, hsuffix.symm, hbytes, hfirst first rfl⟩

/-- A line is given up for another inside it, while the times run backwards. -/
example : (((new 64).pushAll [([0x24], 9), ([0x52], 8), ([0x3A], 8), ([0x24, 0x52], 4), ([0x52], 7),
    ([0x3A], 7), ([0x0D], 1), ([0x0A], 2)]).telegrams.toList.map fun t => (t.size, t.captured))
      = [(5, 4)] := by decide +kernel

end Framer

end ReceiverLink
