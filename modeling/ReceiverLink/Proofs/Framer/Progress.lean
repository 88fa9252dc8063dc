/-
  ReceiverLink.Proofs.Framer.Progress
  ────────────────────────────────
  **A framer always asks for something, and never for too much.**

  What has come of a telegram tells at each stage how much of it is missing.
  So what `wanted` subtracts is never more than what it subtracts from, between
  two calls and in the middle of a push; a framer asks for one byte at least,
  and for no byte of the body of a block that is too large.  Then every push
  takes something, and the loop of `feed` comes to its end.

  Main statements:
    * `Coherent.staged` — what there is at each stage;
    * `feed_loops` — feeding ends after at most one turn for each byte;
    * `reachable_progress` — all of it, for every framer that can be brought
      about.
-/
import ReceiverLink.Proofs.Framer.Chunks

namespace ReceiverLink

/-- The opening of a line has its only `$` in front. -/
theorem Opens.sync_first {format : Format} {opening : List UInt8} (h : Opens format opening) :
    ∃ rest, opening = syncByte :: rest ∧ syncByte ∉ rest := by
  cases h <;> exact ⟨_, rfl, by decide⟩

namespace Framer

variable {maxBlock : Nat} {f : Framer}

/-! ## §1. What there is at each stage. -/

/-- What there is of the telegram in progress at each stage, and for the stages
of a block how much is missing. -/
def Staged (maxBlock : Nat) (f : Framer) : Prop :=
  match f.stage with
  | .idle => f.draft.bytes.toList = [] ∧ f.draft.format = .unknown
  | .selecting => f.draft.bytes.toList = [syncByte]
  | .confirming => ∃ selector, f.draft.bytes.toList = [syncByte, selector]
      ∧ classifySecond selector = some f.draft.format ∧ f.draft.format.isText = true
  | .header => [syncByte, blockByte] <+: f.draft.bytes.toList ∧ 2 ≤ f.pending ∧ f.pending ≤ 7
  | .body length => [syncByte, blockByte] <+: f.draft.bytes.toList ∧ 8 ≤ f.pending
      ∧ f.pending < length
      ∧ (Block.length? f.draft.bytes.toList).map UInt16.toNat = some length
      ∧ length ≤ min maxBlock 65535
  | .line => ∃ first rest, f.draft.bytes.toList = first :: rest ∧ syncByte ∉ rest

/-- `$` is not in the text of a line. -/
theorem not_mem_of_forall_ne {p : UInt8 → Prop} {text : List UInt8}
    (h : ∀ b ∈ text, b ≠ syncByte ∧ p b) : syncByte ∉ text := by
  intro hmem
  exact (h syncByte hmem).1 rfl

/-- **What there is at each stage** is what its name says. -/
theorem Coherent.staged (h : Coherent maxBlock f) : f.Staged maxBlock := by
  have hsize : f.pending = f.draft.bytes.toList.length := Array.length_toList.symm
  unfold Staged
  cases hstage : f.stage with
  | idle =>
      rw [h.draft_of_idle hstage]
      exact ⟨rfl, rfl⟩
  | selecting =>
      obtain ⟨start, hdraft⟩ := h.draft_of_selecting hstage
      rw [hdraft]
      rfl
  | confirming =>
      obtain ⟨selector, format, start, hdraft, hselects, htext⟩ := h.draft_of_confirming hstage
      rw [hdraft]
      refine ⟨selector, rfl, hselects, ?_⟩
      show format.isText = true
      cases format with
      | binary => exact absurd rfl htext
      | _ => rfl
  | header =>
      cases h.at_stage hstage with
      | header sync _ short =>
          have hsync := sync.length_le
          simp only [List.length_cons, List.length_nil] at hsync
          have hshort : f.pending < 8 := short
          exact ⟨sync, by omega, by omega⟩
  | body length =>
      cases h.at_stage hstage with
      | body sync _ header stated bound short =>
          obtain ⟨w, hw, hlength⟩ := stated.read
          have hread : Block.length? f.draft.bytes.toList = some w := hw
          have hmax : length ≤ 65535 := stated.le_maxSize
          refine ⟨sync, header, short, ?_, Nat.le_min.mpr ⟨bound, hmax⟩⟩
          rw [hread]
          exact congrArg some hlength
  | line =>
      have hprogress := h.at_stage hstage
      cases hprogress with
      | @line _ opening text opens clean come =>
          obtain ⟨rest, rfl, hrest⟩ := opens.sync_first
          refine ⟨syncByte, rest ++ text, come, ?_⟩
          rw [List.mem_append]
          exact not_or.mpr ⟨hrest, not_mem_of_forall_ne clean⟩
      | @plain _ first text _ _ clean come =>
          exact ⟨first, text, come, not_mem_of_forall_ne clean⟩

/-! ## §2. How much is asked for. -/

/-- The number of bytes with which a stage of a block is through. -/
def goal? (f : Framer) : Option Nat :=
  match f.stage with
  | .header => some Block.headerSize
  | .body length => some length
  | _ => none

theorem wanted_of_goal {goal : Nat} (h : f.goal? = some goal) : f.wanted = goal - f.pending := by
  unfold goal? at h
  unfold wanted
  cases hstage : f.stage with
  | idle | selecting | confirming | line =>
      rw [hstage] at h
      cases h
  | header | body =>
      rw [hstage] at h
      cases h
      rfl

/-- What `wanted` subtracts is not more than what it subtracts from. -/
def Measured (f : Framer) : Prop :=
  ∀ goal, f.goal? = some goal → f.wanted = goal - f.pending ∧ f.pending ≤ goal

/-- A coherent framer has not come to the end of its stage. -/
theorem Coherent.pending_lt (h : Coherent maxBlock f) {goal : Nat} (hgoal : f.goal? = some goal) :
    f.pending < goal := by
  have hpos := h.wanted_pos
  rw [wanted_of_goal hgoal] at hpos
  omega

theorem Coherent.measured (h : Coherent maxBlock f) : f.Measured := by
  intro goal hgoal
  exact ⟨wanted_of_goal hgoal, Nat.le_of_lt (h.pending_lt hgoal)⟩

/-- A push looks at what is wanted once more, after it has taken bytes: not
more than were wanted have been taken. -/
theorem Coherent.measured_grow (h : Coherent maxBlock f) (bytes : List UInt8) :
    (f.grow (bytes.take f.wanted)).Measured := by
  intro goal hgoal
  -- growing leaves the stage alone
  have hbefore : f.goal? = some goal := hgoal
  have hlt := h.pending_lt hbefore
  have hwanted := wanted_of_goal hbefore
  have htaken : (bytes.take f.wanted).length ≤ f.wanted := List.length_take_le _ _
  have hsize : (f.grow (bytes.take f.wanted)).pending
      = f.pending + (bytes.take f.wanted).length := f.grow_size _
  exact ⟨wanted_of_goal hgoal, by omega⟩

/-- No more is ever asked for than the rest of a header, or the body of an
accepted block. -/
theorem Coherent.wanted_le (h : Coherent maxBlock f) : f.wanted ≤ max 6 (maxBlock - 8) := by
  have hstaged := h.staged
  unfold Staged at hstaged
  cases hstage : f.stage with
  | idle | selecting | confirming | line =>
      have hone : f.wanted = 1 := wanted_of_checkOf_none (by rw [hstage]; rfl)
      omega
  | header =>
      rw [hstage] at hstaged
      obtain ⟨-, hge, -⟩ := hstaged
      have hwanted : f.wanted = 8 - f.pending := wanted_header hstage
      omega
  | body length =>
      rw [hstage] at hstaged
      obtain ⟨-, hge, -, -, hle⟩ := hstaged
      have hwanted : f.wanted = length - f.pending := wanted_body hstage
      omega

/-! ## §3. The loop of `feed`. -/

/-- The loop of `feed`, with the number of its turns: while something is left of
the buffer it is pushed, and what the push took is dropped.  A push that takes
nothing would leave the loop where it was. -/
inductive Loop (now : Time) : Nat → Framer → List UInt8 → Fed → Prop where
  | done {f : Framer} : Loop now 0 f [] (.start f)
  | turn {turns : Nat} {f : Framer} {bytes : List UInt8} {last : Fed} (left : bytes ≠ [])
      (rest : Loop now turns (f.push bytes now).2.framer (bytes.drop (f.push bytes now).1) last) :
      Loop now (turns + 1) f bytes ((f.push bytes now).2.fed.andThen fun _ => last)

/-- **Feeding ends** after at most one turn for each byte. -/
theorem feed_loops {f : Framer} (h : Coherent maxBlock f) (bytes : List UInt8) (now : Time) :
    ∃ turns ≤ bytes.length, Loop now turns f bytes (f.feed bytes now) := by
  match bytes with
  | [] =>
      rw [feed_nil]
      exact ⟨0, Nat.le_refl 0, .done⟩
  | byte :: rest =>
      have hne := List.cons_ne_nil byte rest
      have hused := push_fst_pos h hne now
      have hshort : ((byte :: rest).drop (f.push (byte :: rest) now).1).length
          < (byte :: rest).length := by
        rw [List.length_drop, List.length_cons]
        omega
      -- the push has taken something, so the rest of the loop is shorter
      obtain ⟨turns, hle, hloop⟩ := feed_loops (push_coherent h (byte :: rest) now)
        ((byte :: rest).drop (f.push (byte :: rest) now).1) now
      refine ⟨turns + 1, by omega, ?_⟩
      rw [feed_eq f now hused]
      exact .turn hne hloop
termination_by bytes.length

/-- **A framer always asks for something, and never for too much.**  Whatever
was called on it, the telegram in progress is as its stage says, `wanted`
subtracts no more than there is, also after a push has taken its bytes, and is
neither zero nor above what an accepted block needs; each push of something
takes all that is wanted of it, and feeding comes to an end. -/
theorem reachable_progress (h : Reachable maxBlock f) :
    f.Staged maxBlock
      ∧ f.Measured ∧ (∀ bytes : List UInt8, (f.grow (bytes.take f.wanted)).Measured)
      ∧ 1 ≤ f.wanted ∧ f.wanted ≤ max 6 (maxBlock - 8)
      ∧ (∀ bytes now, bytes ≠ [] → (f.push bytes now).1 = min f.wanted bytes.length)
      ∧ ∀ bytes now, ∃ turns ≤ bytes.length, Loop now turns f bytes (f.feed bytes now) := by
  have hcoherent := reachable_coherent h
  exact ⟨hcoherent.staged, hcoherent.measured, hcoherent.measured_grow, hcoherent.wanted_pos,
    hcoherent.wanted_le, fun bytes now _ => f.push_fst bytes now, feed_loops hcoherent⟩

/-- In the middle of a body, after a line that was broken off and a header that
came in two parts. -/
theorem reachable_progress_body :
    ∃ f : Framer, Reachable 12 f ∧ f.stage = .body 12 ∧ f.Staged 12 ∧ f.wanted = 3
      ∧ (f.push [1, 2, 3, 4, 5] 4).1 = 3 ∧ 1 ≤ f.wanted ∧ f.wanted ≤ 6 := by
  let f : Framer := ((new 12).run [.feed [0x61, 0x24, 0x40, 0, 0] 1, .push [0, 0, 12] 2,
    .feed [0, 9] 3]).framer
  have hreachable : Reachable 12 f := ⟨_, rfl⟩
  have hwanted : f.wanted = 3 := by decide +kernel
  obtain ⟨hstaged, -, -, hpos, hle, hpush, -⟩ := reachable_progress hreachable
  refine ⟨f, hreachable, by decide +kernel, hstaged, hwanted, ?_, hpos, hle⟩
  rw [hpush _ _ (List.cons_ne_nil _ _), hwanted]
  rfl

end Framer

end ReceiverLink
