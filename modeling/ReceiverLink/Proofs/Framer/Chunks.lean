/-
  ReceiverLink.Proofs.Framer.Chunks
  ────────────────────────────────
  **Chunking does not matter.**

  Blocks are taken in bursts, lines byte by byte.  The keystone is `feed_cons`:
  on a coherent framer, feeding a buffer is pushing its first byte and feeding
  the rest, wherever the bursts fall.  A burst that is cut short grows the
  telegram in progress and decides nothing, so what follows decides the same.

  From it:
    * `feed_append` — a buffer may be fed in two parts;
    * `push_fed_eq_feed` — a push feeds what is wanted of its bytes;
    * `handOver_eq_feed` — so does any way of handing over a stream.
-/
import ReceiverLink.Proofs.Framer.Stages

namespace ReceiverLink

namespace Framer

variable {maxBlock : Nat} {f : Framer}

variable {check : Framer → Step}

/-! ## §1. Bursts. -/

/-- Each byte that has come is one less to want. -/
theorem wanted_grow (h : checkOf f.stage = some check) (bytes : List UInt8) :
    (f.grow bytes).wanted = f.wanted - bytes.length := by
  rcases stage_of_checkOf h with ⟨hstage, -⟩ | ⟨length, hstage, -⟩
  · rw [wanted_header (f := f.grow bytes) hstage, wanted_header hstage, grow_size, Nat.sub_sub]
  · rw [wanted_body (f := f.grow bytes) hstage, wanted_body hstage, grow_size, Nat.sub_sub]

theorem grow_append (f : Framer) (a b : List UInt8) : (f.grow a).grow b = f.grow (a ++ b) := by
  unfold grow Draft.append
  rw [List.foldl_append]

/-- A burst that is cut short decides nothing. -/
theorem push_short (h : checkOf f.stage = some check) {bytes : List UInt8} (hne : bytes ≠ [])
    (hshort : bytes.length < f.wanted) (now : Time) :
    (f.push bytes now).2 = ⟨f.grow bytes, none, []⟩ := by
  rw [push_of_checkOf h hne, List.take_of_length_le (Nat.le_of_lt hshort), takeBlockBytes_eq,
    if_pos (by rw [wanted_grow h]; omega)]

/-- The first byte of a burst may come before the others. -/
theorem push_cons_of_checkOf (h : checkOf f.stage = some check) (hwanted : 1 < f.wanted)
    (byte : UInt8) {rest : List UInt8} (hne : rest ≠ []) (now : Time) :
    (f.push (byte :: rest) now).1 = ((f.grow [byte]).push rest now).1 + 1
      ∧ (f.push (byte :: rest) now).2 = ((f.grow [byte]).push rest now).2 := by
  -- one less is wanted after it, so that both bursts end with the same byte
  have hless : f.wanted = (f.grow [byte]).wanted + 1 := by
    rw [wanted_grow h]
    exact (Nat.sub_add_cancel (Nat.le_of_lt hwanted)).symm
  rw [push_of_checkOf h (List.cons_ne_nil _ _), push_of_checkOf (f := f.grow [byte]) h hne, hless,
    List.take_succ_cons]
  refine ⟨rfl, ?_⟩
  show f.takeBlockBytes ([byte] ++ _) check = _
  rw [takeBlockBytes_eq, takeBlockBytes_eq, grow_append]

/-! ## §2. Feeding byte by byte. -/

/-- The first byte of a burst is kept, and the rest is fed after it. -/
theorem feed_cons_of_checkOf (h : checkOf f.stage = some check) (hwanted : 1 < f.wanted)
    (byte : UInt8) (rest : List UInt8) (now : Time) :
    f.feed (byte :: rest) now = (f.grow [byte]).feed rest now := by
  have htakes : 0 < (f.push (byte :: rest) now).1 := by
    rw [push_fst]
    exact Nat.lt_min.mpr ⟨Nat.zero_lt_of_lt hwanted, Nat.succ_pos _⟩
  rw [feed_eq f now htakes]
  match rest with
  | [] =>
      -- the buffer ends inside the burst
      rw [push_short h (List.cons_ne_nil byte []) hwanted, push_fst, feed_nil, Step.fed_none,
        Fed.start_andThen, List.drop_eq_nil_of_le, feed_nil]
      exact Nat.le_min.mpr ⟨Nat.le_of_lt hwanted, Nat.le_refl _⟩
  | next :: rest =>
      -- both pushes end with the same byte and decide the same
      obtain ⟨hused, hstep⟩ :=
        push_cons_of_checkOf h hwanted byte (List.cons_ne_nil next rest) now
      have hgrown : 0 < (f.grow [byte]).wanted := by
        rw [wanted_grow h]
        exact Nat.sub_pos_of_lt hwanted
      have htakes' : 0 < ((f.grow [byte]).push (next :: rest) now).1 := by
        rw [push_fst]
        exact Nat.lt_min.mpr ⟨hgrown, Nat.succ_pos _⟩
      rw [feed_eq (f.grow [byte]) now htakes', hused, hstep]
      rfl

/-- **Feeding a buffer is pushing its first byte and feeding the rest.** -/
theorem feed_cons (h : Coherent maxBlock f) (byte : UInt8) (rest : List UInt8) (now : Time) :
    f.feed (byte :: rest) now
      = (f.push [byte] now).2.fed.andThen fun g => g.feed rest now := by
  have hfeed := feed_eq f now (push_fst_pos h (List.cons_ne_nil byte rest) now)
  cases hcheck : checkOf f.stage with
  | none =>
      rw [hfeed, push_of_checkOf_none hcheck]
      rfl
  | some check =>
      by_cases hlast : f.wanted = 1
      · -- the burst is this one byte
        have hone : f.push (byte :: rest) now = f.push [byte] now := by
          rw [push_of_checkOf hcheck (List.cons_ne_nil _ _),
            push_of_checkOf hcheck (List.cons_ne_nil _ _), hlast]
          rfl
        rw [hfeed, hone, push_fst, hlast]
        rfl
      · have hwanted : 1 < f.wanted := Nat.lt_of_le_of_ne h.wanted_pos (Ne.symm hlast)
        rw [feed_cons_of_checkOf hcheck hwanted,
          push_short hcheck (List.cons_ne_nil byte []) hwanted, Step.fed_none, Fed.start_andThen]

/-- **A buffer may be fed in two parts.** -/
theorem feed_append {f : Framer} (h : Coherent maxBlock f) (a b : List UInt8) (now : Time) :
    f.feed (a ++ b) now = (f.feed a now).andThen fun g => g.feed b now := by
  induction a generalizing f with
  | nil => rw [List.nil_append, feed_nil, Fed.start_andThen]
  | cons byte rest ih =>
      rw [List.cons_append, feed_cons h, feed_cons h, Fed.andThen_assoc]
      exact Fed.andThen_congr (ih (push_coherent h [byte] now))

/-- **A push feeds what is wanted of its bytes.** -/
theorem push_fed_eq_feed (h : Coherent maxBlock f) (bytes : List UInt8) (now : Time) :
    (f.push bytes now).2.fed = f.feed (bytes.take f.wanted) now := by
  match bytes with
  | [] => rw [List.take_nil, feed_nil]; rfl
  | byte :: rest =>
      have hne : (byte :: rest).take f.wanted ≠ [] := by
        rw [← Nat.succ_pred_eq_of_pos h.wanted_pos, List.take_succ_cons]
        exact List.cons_ne_nil _ _
      -- a push does not look past what is wanted
      have hpush : f.push (byte :: rest) now = f.push ((byte :: rest).take f.wanted) now := by
        cases hcheck : checkOf f.stage with
        | none =>
            rw [wanted_of_checkOf_none hcheck]
            exact (push_of_checkOf_none hcheck byte rest now).trans
              (push_of_checkOf_none hcheck byte [] now).symm
        | some check =>
            rw [push_of_checkOf hcheck (List.cons_ne_nil _ _), push_of_checkOf hcheck hne,
              List.take_take, Nat.min_self]
      have hall : (f.push ((byte :: rest).take f.wanted) now).1
          = ((byte :: rest).take f.wanted).length := by
        rw [push_fst]
        exact Nat.min_eq_right (List.length_take_le _ _)
      rw [feed_eq f now (push_fst_pos h hne now), hall, List.drop_length, hpush,
        Fed.andThen_congr (feed_nil _ now), Fed.andThen_start]

/-! ## §3. Ways of handing over a stream. -/

/-- Feed chunks in order. -/
def feedChunks (f : Framer) (chunks : List (List UInt8)) (now : Time) : Fed :=
  runAll (fun g chunk => g.feed chunk now) f chunks

/-- What is done with the rest of a stream: feed the next so many bytes of it,
or offer so many to a push, which takes what it wants of them. -/
inductive Portion where
  | feed (size : Nat)
  | push (size : Nat)
  deriving Repr, DecidableEq

/-- Hand over a stream portion by portion, and feed what is left. -/
def handOver (f : Framer) (bytes : List UInt8) (now : Time) : List Portion → Fed
  | [] => f.feed bytes now
  | .feed size :: rest =>
      (f.feed (bytes.take size) now).andThen fun g => g.handOver (bytes.drop size) now rest
  | .push size :: rest =>
      (f.push (bytes.take size) now).2.fed.andThen fun g =>
        g.handOver (bytes.drop (f.push (bytes.take size) now).1) now rest

theorem feedChunks_eq_feed {f : Framer} (h : Coherent maxBlock f) (chunks : List (List UInt8))
    (now : Time) : f.feedChunks chunks now = f.feed chunks.flatten now := by
  induction chunks generalizing f with
  | nil => exact (feed_nil f now).symm
  | cons chunk rest ih =>
      have hrest := ih (feed_sound h chunk now).coherent
      show (f.feed chunk now).andThen (fun g => g.feedChunks rest now) = _
      rw [List.flatten_cons, feed_append h]
      exact Fed.andThen_congr hrest

theorem handOver_eq_feed {f : Framer} (h : Coherent maxBlock f) (bytes : List UInt8) (now : Time)
    (portions : List Portion) : f.handOver bytes now portions = f.feed bytes now := by
  induction portions generalizing f bytes with
  | nil => rfl
  | cons portion rest ih =>
      cases portion with
      | feed size =>
          have hrest := ih (feed_sound h (bytes.take size) now).coherent (bytes.drop size)
          calc f.handOver bytes now (.feed size :: rest)
              = (f.feed (bytes.take size) now).andThen fun g => g.feed (bytes.drop size) now :=
                Fed.andThen_congr hrest
            _ = f.feed bytes now := by rw [← feed_append h, List.take_append_drop]
      | push size =>
          -- the push takes the bytes of the portion that are wanted
          have hused : (f.push (bytes.take size) now).1
              = (bytes.take (min f.wanted size)).length := by
            rw [push_fst, List.length_take, List.length_take, Nat.min_assoc]
          have hfed : (f.push (bytes.take size) now).2.fed
              = f.feed (bytes.take (min f.wanted size)) now := by
            rw [push_fed_eq_feed h, List.take_take]
          have hrest := ih (push_coherent h (bytes.take size) now)
            (bytes.drop (f.push (bytes.take size) now).1)
          calc f.handOver bytes now (.push size :: rest)
              = (f.push (bytes.take size) now).2.fed.andThen fun g =>
                  g.feed (bytes.drop (f.push (bytes.take size) now).1) now :=
                Fed.andThen_congr hrest
            _ = f.feed bytes now := by
                rw [hfed, hused, ← feed_append h, List.length_take, ← List.drop_eq_drop_min,
                  List.take_append_drop]

/-- **Chunking does not matter.**  On a framer that can be brought about by any
calls, two ways of cutting a stream into chunks deliver and note the same and
leave the same framer, and so do two ways of handing it over by feeding and
pushing portions of any size. -/
theorem feedChunks_congr (hf : Reachable maxBlock f) (now : Time) :
    (∀ cut cut' : List (List UInt8), cut.flatten = cut'.flatten →
        f.feedChunks cut now = f.feedChunks cut' now)
      ∧ ∀ (bytes : List UInt8) (portions portions' : List Portion),
        f.handOver bytes now portions = f.handOver bytes now portions' := by
  have h := reachable_coherent hf
  constructor
  · intro cut cut' hcut
    rw [feedChunks_eq_feed h, feedChunks_eq_feed h, hcut]
  · intro bytes portions portions'
    rw [handOver_eq_feed h, handOver_eq_feed h]

/-- In the middle of a header: chunks that end inside it and run past its block,
and pushes that offer more than is wanted.  The block is delivered, and what
follows it is taken for the beginning of another telegram. -/
theorem feedChunks_congr_header :
    let f := ((new 9).run [.push [0x24] 1, .push [0x40, 0x40] 2]).framer
    let bytes : List UInt8 := [0xBC, 0xB7, 0x05, 0x40, 0x09, 0x00, 0x24, 0x24]
    let cut : List (List UInt8) := [[0xBC, 0xB7, 0x05], [0x40, 0x09, 0x00, 0x24, 0x24]]
    let cut' : List (List UInt8) := [[0xBC], [], [0xB7, 0x05, 0x40, 0x09, 0x00, 0x24], [0x24]]
    let portions : List Portion := [.push 7, .feed 1, .push 0]
    let block : Telegram := ⟨.binary, [0x24, 0x40, 0xBC, 0xB7, 0x05, 0x40, 0x09, 0x00, 0x24], 1⟩
    Reachable 9 f ∧ cut.flatten = cut'.flatten ∧ f.stage = .header
      ∧ f.feedChunks cut 3 = f.feedChunks cut' 3
      ∧ f.handOver bytes 3 portions = f.handOver bytes 3 []
      ∧ (f.feedChunks cut 3).telegrams = #[block] ∧ (f.feedChunks cut 3).framer.stage = .selecting
      ∧ (f.handOver bytes 3 portions).telegrams = #[block]
      ∧ (f.handOver bytes 3 portions).framer.stage = .selecting := by
  intro f bytes cut cut' portions block
  have hf : Reachable 9 f := ⟨_, rfl⟩
  obtain ⟨hcut, hportions⟩ := feedChunks_congr hf 3
  refine ⟨hf, rfl, by decide +kernel, hcut cut cut' rfl, hportions bytes portions [], ?_⟩
  decide +kernel

end Framer

end ReceiverLink
