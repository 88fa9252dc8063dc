/-
  ReceiverLink.Proofs.Framer.Forgetful
  ────────────────────────────────
  **With nothing in progress, the past is forgotten.**

  Of what came before, an idle framer keeps its counts and nothing else, and
  the counts decide nothing (`Proofs.Framer.Counts`).  The capture time that
  stands in an empty draft is overwritten before it is read.  So whatever was
  called on two framers that are idle now, the same calls show the same on both:
  a `Glimpse` is all that a caller sees of one call, apart from the counts.

  Main statements:
    * `Coherent.eq_addStats` — what an idle framer keeps;
    * `glimpses_addStats`, `run_addStats` — calls do not look at the counts;
    * `glimpses_stamped` — nor at the time in an empty draft;
    * `idle_forgets` — the past is forgotten, also after an abort.
-/
import ReceiverLink.Proofs.Framer.Counts

namespace ReceiverLink

namespace Framer

variable {maxBlock : Nat} {f : Framer}

/-! ## §1. What a caller sees. -/

/-- What a caller sees of one call: how many bytes a push took, what was
delivered and noted, and what the framer says of itself afterwards. -/
structure Glimpse where
  consumed : Option Nat
  telegrams : Array Telegram
  events : Array FramingEvent
  stage : Stage
  wanted : Nat
  pending : Nat
  deriving Repr, DecidableEq

/-- How many bytes a push takes; the other calls do not say. -/
def consumed? (f : Framer) : Call → Option Nat
  | .push bytes now => some (f.push bytes now).1
  | .feed _ _ => none
  | .abort _ => none

/-- See one call. -/
def glimpse (f : Framer) (c : Call) : Glimpse :=
  let result := f.call c
  { consumed := f.consumed? c
    telegrams := result.telegrams
    events := result.events
    stage := result.framer.stage
    wanted := result.framer.wanted
    pending := result.framer.pending }

/-- See calls in order. -/
def glimpses (f : Framer) : List Call → List Glimpse
  | [] => []
  | c :: rest => f.glimpse c :: (f.call c).framer.glimpses rest

/-! ## §2. Calls do not look at the counts. -/

theorem abort_addStats (f : Framer) (base : FramingStats) (read : Nat) :
    (f.addStats base).abort read = (f.abort read).addStats base := by
  have hstage : (f.addStats base).stage = f.stage := rfl
  unfold abort
  rw [hstage]
  split
  next => rfl
  next => rfl

theorem call_addStats (h : Coherent maxBlock f) (base : FramingStats) (c : Call) :
    (f.addStats base).call c = (f.call c).addStats base := by
  cases c with
  | push bytes now => exact congrArg Step.fed (push_addStats f base bytes now)
  | feed bytes now => exact feed_addStats h base bytes now
  | abort read => exact congrArg Step.fed (abort_addStats f base read)

theorem consumed?_addStats (f : Framer) (base : FramingStats) (c : Call) :
    (f.addStats base).consumed? c = f.consumed? c := by
  cases c with
  | push bytes now =>
    show some ((f.addStats base).push bytes now).1 = some (f.push bytes now).1
    rw [push_fst, push_fst]
    rfl
  | feed | abort => rfl

/-- **Calls look the same**, whatever was counted before. -/
theorem glimpses_addStats {f : Framer} (h : Coherent maxBlock f) (base : FramingStats)
    (calls : List Call) : (f.addStats base).glimpses calls = f.glimpses calls := by
  induction calls generalizing f with
  | nil => rfl
  | cons c rest ih =>
    have hcall := call_addStats h base c
    have hglimpse : (f.addStats base).glimpse c = f.glimpse c := by
      unfold glimpse
      rw [hcall, consumed?_addStats]
      rfl
    show (f.addStats base).glimpse c :: ((f.addStats base).call c).framer.glimpses rest = _
    rw [hglimpse, hcall]
    exact congrArg _ (ih (call_sound h c).coherent)

/-- **And they count the same on top.** -/
theorem run_addStats {f : Framer} (h : Coherent maxBlock f) (base : FramingStats)
    (calls : List Call) : (f.addStats base).run calls = (f.run calls).addStats base := by
  induction calls generalizing f with
  | nil => rfl
  | cons c rest ih =>
    show ((f.addStats base).call c).andThen (fun g => g.run rest) = _
    rw [call_addStats h]
    unfold Fed.andThen
    dsimp only [Fed.addStats]
    rw [ih (call_sound h c).coherent]
    rfl

/-! ## §3. What an idle framer keeps. -/

/-- **An idle framer keeps its counts**, and is new otherwise. -/
theorem Coherent.eq_addStats (h : Coherent maxBlock f) (hidle : f.stage = .idle) :
    f = (new maxBlock).addStats f.stats := by
  have habort := h.abort_framer
  rw [if_neg fun hsome => h.pending_pos_iff.mp hsome hidle] at habort
  rw [← habort]
  unfold abort
  rw [if_pos ⟨hidle, rfl⟩]

/-- **Calls on an idle framer** look as on a new one, and count the same on top
of what it has counted. -/
theorem Coherent.run_of_idle (h : Coherent maxBlock f) (hidle : f.stage = .idle)
    (calls : List Call) :
    f.glimpses calls = (new maxBlock).glimpses calls
      ∧ (f.run calls).framer.stats = f.stats + ((new maxBlock).run calls).framer.stats := by
  have hnew := new_coherent maxBlock
  have hkept := h.eq_addStats hidle
  constructor
  · calc f.glimpses calls = ((new maxBlock).addStats f.stats).glimpses calls := by rw [← hkept]
      _ = (new maxBlock).glimpses calls := glimpses_addStats hnew f.stats calls
  · calc (f.run calls).framer.stats
        = (((new maxBlock).addStats f.stats).run calls).framer.stats := by rw [← hkept]
      _ = f.stats + ((new maxBlock).run calls).framer.stats := by
        rw [run_addStats hnew]
        rfl

/-! ## §4. The time in an empty draft. -/

/-- The framer with another capture time in its draft.  There is a time in the
draft also when no byte has come yet. -/
def stamped (time : Time) (f : Framer) : Framer :=
  { f with draft := { f.draft with captured := time } }

/-- The first byte overwrites the time. -/
theorem push_stamped (hidle : f.stage = .idle) (time : Time) (byte : UInt8) (rest : List UInt8)
    (now : Time) : (f.stamped time).push (byte :: rest) now = f.push (byte :: rest) now := by
  have hstamped : (f.stamped time).stage = .idle := hidle
  rw [push_idle hidle, push_idle hstamped]
  unfold takeFirst
  split
  next => rfl
  next => rfl

/-- A call on an idle framer does nothing, or does not look at the time. -/
theorem call_stamped (hidle : f.stage = .idle) (time : Time) (c : Call) :
    (f.stamped time).consumed? c = f.consumed? c
      ∧ ((f.stamped time).call c = f.call c
        ∨ (f.call c = .start f ∧ (f.stamped time).call c = .start (f.stamped time))) := by
  have hstamped : (f.stamped time).stage = .idle := hidle
  cases c with
  | push bytes now =>
    match bytes with
    | [] => exact ⟨rfl, .inr ⟨rfl, rfl⟩⟩
    | byte :: rest =>
      -- the first byte puts its own time in place of the stamp
      have hpush := push_stamped hidle time byte rest now
      constructor
      · show some ((f.stamped time).push (byte :: rest) now).1 = some (f.push (byte :: rest) now).1
        rw [hpush]
      · refine .inl ?_
        show ((f.stamped time).push (byte :: rest) now).2.fed = (f.push (byte :: rest) now).2.fed
        rw [hpush]
  | feed bytes now =>
    refine ⟨rfl, ?_⟩
    match bytes with
    | [] => exact .inr ⟨feed_nil _ _, feed_nil _ _⟩
    | byte :: rest =>
      have hpush := push_stamped hidle time byte rest now
      have hused : 0 < (f.push (byte :: rest) now).1 := by
        rw [push_idle hidle]
        exact Nat.one_pos
      refine .inl ?_
      show (f.stamped time).feed (byte :: rest) now = f.feed (byte :: rest) now
      rw [feed_eq _ _ (hpush ▸ hused), feed_eq _ _ hused, hpush]
  | abort read =>
    refine ⟨rfl, ?_⟩
    show ((f.stamped time).abort read).fed = (f.abort read).fed
      ∨ (f.abort read).fed = .start f ∧ ((f.stamped time).abort read).fed = .start (f.stamped time)
    unfold abort
    rw [hstamped, hidle]
    split
    next => exact .inr ⟨rfl, rfl⟩
    next => exact .inl rfl

/-- **The time in the draft of an idle framer is not looked at**, and shows in
nothing that is counted. -/
theorem glimpses_stamped (hidle : f.stage = .idle) (time : Time) (calls : List Call) :
    (f.stamped time).glimpses calls = f.glimpses calls
      ∧ ((f.stamped time).run calls).framer.stats = (f.run calls).framer.stats := by
  induction calls with
  | nil => exact ⟨rfl, rfl⟩
  | cons c rest ih =>
    obtain ⟨hconsumed, hcall | ⟨hcall, hcall'⟩⟩ := call_stamped hidle time c
    · -- the time is gone with this call, and the framers are the same
      have hglimpse : (f.stamped time).glimpse c = f.glimpse c := by
        unfold glimpse
        rw [hconsumed, hcall]
      constructor
      · show _ :: ((f.stamped time).call c).framer.glimpses rest = _
        rw [hglimpse, hcall]
        rfl
      · show (((f.stamped time).call c).andThen fun g => g.run rest).framer.stats = _
        rw [hcall]
        rfl
    · -- nothing was done, so the framers are as before
      have hglimpse : (f.stamped time).glimpse c = f.glimpse c := by
        unfold glimpse
        rw [hconsumed, hcall, hcall']
        rfl
      constructor
      · show _ :: ((f.stamped time).call c).framer.glimpses rest
          = _ :: (f.call c).framer.glimpses rest
        rw [hglimpse, hcall, hcall']
        exact congrArg _ ih.1
      · show (((f.stamped time).call c).andThen fun g => g.run rest).framer.stats
          = ((f.call c).andThen fun g => g.run rest).framer.stats
        rw [hcall, hcall']
        exact ih.2

/-! ## §5. Forgetting. -/

/-- Runs go on from each other. -/
theorem run_concat (f : Framer) (calls : List Call) (c : Call) :
    (f.run (calls ++ [c])).framer = ((f.run calls).framer.call c).framer := by
  induction calls generalizing f with
  | nil => rfl
  | cons first rest ih => exact ih (f.call first).framer

theorem Reachable.call (h : Reachable maxBlock f) (c : Call) :
    Reachable maxBlock (f.call c).framer := by
  obtain ⟨calls, rfl⟩ := h
  exact ⟨calls ++ [c], run_concat _ calls c⟩

/-- **The past is forgotten.**  Of two framers that accept blocks of the same
length let any calls on each have led to nothing in progress.  Then the same
calls show the same on both from there on, and count the same on top of what was
counted, whatever time is left in the draft.  An abort in the middle of a
telegram leads to such a framer, counts one telegram that was dropped, and
counts nothing else. -/
theorem idle_forgets (hf : Reachable maxBlock f) :
    (f.stage = .idle → ∀ g, Reachable maxBlock g → g.stage = .idle → ∀ calls : List Call,
        f.glimpses calls = g.glimpses calls
          ∧ ∃ gained : FramingStats, (f.run calls).framer.stats = f.stats + gained
            ∧ (g.run calls).framer.stats = g.stats + gained
            ∧ ∀ time, (f.stamped time).glimpses calls = g.glimpses calls
              ∧ ((f.stamped time).run calls).framer.stats = f.stats + gained)
      ∧ (f.stage ≠ .idle → ∀ read : Nat,
        Reachable maxBlock (f.abort read).framer ∧ (f.abort read).framer.stage = .idle
          ∧ (f.abort read).framer.stats = { f.stats with resyncs := f.stats.resyncs + 1 }) := by
  constructor
  · intro hidle g hg hidle' calls
    obtain ⟨hseen, hcounted⟩ := (reachable_coherent hf).run_of_idle hidle calls
    obtain ⟨hseen', hcounted'⟩ := (reachable_coherent hg).run_of_idle hidle' calls
    have hsame : f.glimpses calls = g.glimpses calls := hseen.trans hseen'.symm
    refine ⟨hsame, _, hcounted, hcounted', ?_⟩
    intro time
    obtain ⟨hstamped, hstats⟩ := glimpses_stamped hidle time calls
    exact ⟨hstamped.trans hsame, hstats.trans hcounted⟩
  · intro hbusy read
    have habort : f.abort read = f.drop (.shortRead read f.wanted) := by
      unfold abort
      rw [if_neg fun hboth => hbusy hboth.1]
    refine ⟨hf.call (.abort read), ?_, ?_⟩
    · rw [habort]
      rfl
    · rw [habort]
      rfl

/-- After a block with a wrong checksum, and after one that breaks off: a block
comes in two parts, and one more `$`. -/
theorem idle_forgets_blocks :
    let f := ((new 12).run [.feed [0x24, 0x40, 1, 0, 0, 0, 9, 0, 7] 1]).framer
    let busy := ((new 12).run [.feed [0x24, 0x40, 0, 0, 0, 0, 12, 0, 0x24] 2]).framer
    let g := (busy.abort 1).framer
    let calls : List Call := [.push [0x24, 0x24] 4,
      .feed [0x40, 0xBC, 0xB7, 0x05, 0x40, 0x09, 0x00, 0x24, 0x24] 5, .abort 1]
    Reachable 12 f ∧ f.stage = .idle ∧ f.stats = { resyncs := 1, checksumFailures := 1 }
      ∧ Reachable 12 busy ∧ busy.stage = .body 12 ∧ busy.stats = {}
      ∧ Reachable 12 g ∧ g.stage = .idle ∧ g.stats = { resyncs := 1 }
      ∧ f.glimpses calls = g.glimpses calls
      ∧ (f.run calls).framer.stats = f.stats + { delivered := 1, resyncs := 1 }
      ∧ ∃ gained : FramingStats, (f.run calls).framer.stats = f.stats + gained
        ∧ (g.run calls).framer.stats = g.stats + gained
        ∧ ∀ time, (f.stamped time).glimpses calls = g.glimpses calls
          ∧ ((f.stamped time).run calls).framer.stats = f.stats + gained := by
  intro f busy g calls
  have hf : Reachable 12 f := ⟨_, rfl⟩
  have hbusy : Reachable 12 busy := ⟨_, rfl⟩
  have hidle : f.stage = .idle := by decide +kernel
  have hfailed : f.stats = { resyncs := 1, checksumFailures := 1 } := by decide +kernel
  have hbody : busy.stage = .body 12 := by decide +kernel
  have hnone : busy.stats = {} := by decide +kernel
  have hgained : (f.run calls).framer.stats = f.stats + { delivered := 1, resyncs := 1 } := by
    decide +kernel
  obtain ⟨hg, hidle', hstats⟩ := (idle_forgets hbusy).2 (by rw [hbody]; decide) 1
  rw [hnone] at hstats
  obtain ⟨hsame, hcounts⟩ := (idle_forgets hf).1 hidle g hg hidle' calls
  exact ⟨hf, hidle, hfailed, hbusy, hbody, hnone, hg, hidle', hstats, hsame, hgained, hcounts⟩

end Framer

end ReceiverLink
