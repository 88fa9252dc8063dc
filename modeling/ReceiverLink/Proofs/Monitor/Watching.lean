/-
  ReceiverLink.Proofs.Monitor.Watching
  ────────────────────────────────
  **Whichever is taken first, all is shown.**

  The monitor waits for telegrams and for a new state at once.  The news that
  the supervisor is drained comes last, so whatever order it takes things in,
  once it sees this news it has all the telegrams: those that it has shown and
  those that wait.  And it sees the news in the end, however late the notices
  come.

  Main statements:
    * `watch_eq` — what is shown in the end, if there is an end;
    * `watch_ends` — there is one, if the notices come and there are turns enough.
-/
import ReceiverLink.Monitor.Display

namespace ReceiverLink.Monitor

/-! ## §1. Notices that arrive. -/

/-- The telegram that a notice brings. -/
def Notice.telegram? : Notice → Option Telegram
  | .telegram t => some t
  | .state _ => none

variable {ts : List Telegram} {rest : List Notice} {v : View}

theorem arrive_shown (ns : List Notice) (v : View) : (ns.foldl View.arrive v).shown = v.shown := by
  induction ns generalizing v with
  | nil => rfl
  | cons n ns ih =>
    rw [List.foldl_cons, ih]
    cases n <;> rfl

/-- Telegrams wait in the order in which they arrive. -/
theorem arrive_waiting (ns : List Notice) (v : View) :
    (ns.foldl View.arrive v).waiting = v.waiting ++ ns.filterMap Notice.telegram? := by
  induction ns generalizing v with
  | nil => exact (List.append_nil _).symm
  | cons n ns ih =>
    rw [List.foldl_cons, ih]
    cases n with
    | telegram t => exact List.append_assoc ..
    | state l => rfl

/-- News of another state is no news of being drained. -/
theorem arrive_unseen {ns : List Notice} (hplain : .state .drained ∉ ns)
    (hunknown : v.unseen ≠ some .drained) : (ns.foldl View.arrive v).unseen ≠ some .drained := by
  induction ns generalizing v with
  | nil => exact hunknown
  | cons n ns ih =>
    rw [List.mem_cons, not_or] at hplain
    refine ih hplain.2 ?_
    cases n with
    | telegram t => exact hunknown
    | state l =>
      intro hknown
      exact hplain.1 (congrArg Notice.state (Option.some.inj hknown).symm)

/-! ## §2. How far watching has come. -/

/-- Whether the last news has come. -/
inductive Expects (rest : List Notice) (v : View) : Prop
  /-- It is still to come, after everything else. -/
  | coming {early : List Notice} (split : rest = early ++ [.state .drained])
      (plain : .state .drained ∉ early) (unknown : v.unseen ≠ some .drained)
  | arrived (last : rest = []) (known : v.unseen = some .drained)

/-- What is shown, what waits and what is still to come are all the telegrams, in order. -/
structure Watching (ts : List Telegram) (rest : List Notice) (v : View) : Prop where
  all : v.shown ++ v.waiting ++ rest.filterMap Notice.telegram? = ts
  expects : Expects rest v

theorem Expects.arrive (h : Expects rest v) (n : Nat) :
    Expects (rest.drop n) ((rest.take n).foldl View.arrive v) := by
  cases h with
  | arrived last known =>
    subst last
    rw [List.take_nil, List.drop_nil]
    exact .arrived rfl known
  | @coming early split plain unknown =>
    subst split
    by_cases hn : n ≤ early.length
    · rw [List.take_append_of_le_length hn, List.drop_append_of_le_length hn]
      refine .coming rfl (fun hmem => plain (List.mem_of_mem_drop hmem)) ?_
      exact arrive_unseen (fun hmem => plain (List.mem_of_mem_take hmem)) unknown
    · -- all arrive, and the news last of all
      have hall : (early ++ [Notice.state .drained]).length ≤ n := by
        rw [List.length_append, List.length_singleton]
        omega
      rw [List.take_of_length_le hall, List.drop_of_length_le hall, List.foldl_append]
      exact .arrived rfl rfl

theorem Watching.arrive (h : Watching ts rest v) (n : Nat) :
    Watching ts (rest.drop n) ((rest.take n).foldl View.arrive v) := by
  refine ⟨?_, h.expects.arrive n⟩
  rw [arrive_shown, arrive_waiting, ← List.append_assoc, List.append_assoc,
    ← List.filterMap_append, List.take_append_drop]
  exact h.all

/-- When nothing is to come any more, the last news has come. -/
theorem Expects.known (h : Expects [] v) : v.unseen = some .drained := by
  cases h with
  | coming split => simp at split
  | arrived _ known => exact known

/-- A telegram is shown. -/
theorem Watching.showOne (h : Watching ts rest v) {t : Telegram} {more : List Telegram}
    (hwaiting : v.waiting = t :: more) :
    Watching ts rest v.showOne ∧ v.showOne.waiting.length < v.waiting.length := by
  have hall := h.all
  unfold View.showOne
  rw [hwaiting] at hall ⊢
  refine ⟨⟨?_, ?_⟩, Nat.lt_succ_self _⟩
  · rw [← hall]
    simp
  · cases h.expects with
    | coming split plain unknown => exact .coming split plain unknown
    | arrived last known => exact .arrived last known

/-- The last news is seen: what is not shown yet, waits. -/
theorem Watching.complete (h : Watching ts rest v) (hknown : v.unseen = some .drained) :
    v.shown ++ v.waiting = ts := by
  cases h.expects with
  | coming _ _ unknown => exact absurd hknown unknown
  | arrived last =>
    have hall := h.all
    rw [last, List.filterMap_nil, List.append_nil] at hall
    exact hall

/-- Other news is seen: there is still something to come. -/
theorem Watching.ignore (h : Watching ts rest v) (hunknown : v.unseen ≠ some .drained) :
    Watching ts rest { v with unseen := none } ∧ rest ≠ [] := by
  cases h.expects with
  | arrived _ known => exact absurd known hunknown
  | coming split plain =>
    refine ⟨⟨h.all, .coming split plain nofun⟩, ?_⟩
    rw [split]
    simp

/-- There is nothing to take only if there is no news. -/
theorem View.unseen_of_choose {b : Branch} (h : v.choose b = none) : v.unseen = none := by
  unfold View.choose at h
  split at h <;> first | assumption | cases h

/-- If a telegram is taken, there is one. -/
theorem View.waiting_of_choose {b : Branch} (h : v.choose b = some .telegram) :
    ∃ t more, v.waiting = t :: more := by
  unfold View.choose at h
  split at h <;> first | exact ⟨_, _, by assumption⟩ | cases h

/-- One turn of watching. -/
theorem watch_cons (turn : Turn) (turns : List Turn) (rest : List Notice) (v : View) :
    watch (turn :: turns) rest v =
      let u := (rest.take turn.arrivals).foldl View.arrive v
      let late := rest.drop turn.arrivals
      match u.choose turn.preferred with
      | none => watch turns late u
      | some .telegram => watch turns late u.showOne
      | some .state =>
          if u.unseen = some .drained then some (u.shown ++ u.waiting)
          else watch turns late { u with unseen := none } := rfl

/-- **One turn**: all is shown at the end, or watching goes on.  Once everything has arrived, less
waits after each turn. -/
theorem Watching.turn (h : Watching ts rest v) (turn : Turn) (turns : List Turn) :
    watch (turn :: turns) rest v = some ts
      ∨ ∃ v', Watching ts (rest.drop turn.arrivals) v'
        ∧ watch (turn :: turns) rest v = watch turns (rest.drop turn.arrivals) v'
        ∧ (rest = [] → v'.waiting.length < v.waiting.length) := by
  have harrived := h.arrive turn.arrivals
  have hsame : rest = [] →
      (rest.take turn.arrivals).foldl View.arrive v = v ∧ rest.drop turn.arrivals = [] := by
    rintro rfl
    rw [List.take_nil, List.drop_nil]
    exact ⟨rfl, rfl⟩
  rw [watch_cons]
  dsimp only
  -- from here on only what has arrived matters, and what is still late
  generalize (rest.take turn.arrivals).foldl View.arrive v = u at harrived hsame ⊢
  generalize rest.drop turn.arrivals = late at harrived hsame ⊢
  cases hchoose : u.choose turn.preferred with
  | none =>
    refine .inr ⟨u, harrived, rfl, ?_⟩
    -- when all has arrived there is news
    intro hnone
    have hexpects := harrived.expects
    rw [(hsame hnone).2] at hexpects
    have hnews := hexpects.known
    rw [View.unseen_of_choose hchoose] at hnews
    cases hnews
  | some branch =>
    cases branch with
    | telegram =>
      obtain ⟨t, more, hwaiting⟩ := View.waiting_of_choose hchoose
      obtain ⟨hgoes, hless⟩ := harrived.showOne hwaiting
      exact .inr ⟨_, hgoes, rfl, fun hnone => (hsame hnone).1 ▸ hless⟩
    | state =>
      by_cases hknown : u.unseen = some .drained
      · left
        show (if _ then _ else _) = _
        rw [if_pos hknown, harrived.complete hknown]
      · obtain ⟨hgoes, hmore⟩ := harrived.ignore hknown
        refine .inr ⟨_, hgoes, ?_, fun hnone => absurd (hsame hnone).2 hmore⟩
        exact if_neg hknown

/-! ## §3. To the end. -/

/-- **Nothing is missing in the end, and nothing is shown twice**, whichever branch is taken at
each turn. -/
theorem watch_eq (turns : List Turn) (h : Watching ts rest v) {shown : List Telegram}
    (hends : watch turns rest v = some shown) : shown = ts := by
  induction turns generalizing rest v with
  | nil => cases hends
  | cons turn turns ih =>
    rcases h.turn turn turns with hall | ⟨v', hgoes, hsame, -⟩
    · rw [hall] at hends
      exact (Option.some.inj hends).symm
    · exact ih hgoes (hsame ▸ hends)

/-- When everything has arrived, the end is as many turns away as telegrams wait. -/
theorem watch_of_arrived (turns : List Turn) (h : Watching ts [] v)
    (hlong : v.waiting.length < turns.length) : watch turns [] v = some ts := by
  induction turns generalizing v with
  | nil => cases hlong
  | cons turn turns ih =>
    rcases h.turn turn turns with hall | ⟨v', hgoes, hsame, hless⟩
    · exact hall
    · rw [hsame, List.drop_nil]
      rw [List.drop_nil] at hgoes
      have := hless rfl
      rw [List.length_cons] at hlong
      exact ih hgoes (by omega)

theorem Watching.waiting_le (h : Watching ts rest v) : v.waiting.length ≤ ts.length := by
  have hall := congrArg List.length h.all
  rw [List.length_append, List.length_append] at hall
  omega

/-- The number of notices for which the turns leave room. -/
def room (turns : List Turn) : Nat :=
  turns.foldr (fun turn n => turn.arrivals + n) 0

theorem length_le_room {turns : List Turn} (h : ∀ turn ∈ turns, 0 < turn.arrivals) :
    turns.length ≤ room turns := by
  induction turns with
  | nil => exact Nat.le_refl 0
  | cons turn turns ih =>
    rw [List.forall_mem_cons] at h
    have hless := ih h.2
    have hsome := h.1
    show turns.length + 1 ≤ turn.arrivals + room turns
    omega

/-- **Watching ends**, once everything has arrived and there are turns enough for what waits. -/
theorem watch_ends (first more : List Turn) (h : Watching ts rest v)
    (harrive : rest.length ≤ room first) (hlong : ts.length < more.length) :
    watch (first ++ more) rest v = some ts := by
  induction first generalizing rest v with
  | nil =>
    obtain rfl : rest = [] := List.eq_nil_of_length_eq_zero (Nat.le_zero.mp harrive)
    exact watch_of_arrived more h (Nat.lt_of_le_of_lt h.waiting_le hlong)
  | cons turn first ih =>
    rw [List.cons_append]
    rcases h.turn turn (first ++ more) with hall | ⟨v', hgoes, hsame, -⟩
    · exact hall
    · rw [hsame]
      have harrive : rest.length ≤ turn.arrivals + room first := harrive
      refine ih hgoes ?_
      rw [List.length_drop]
      omega

end ReceiverLink.Monitor
