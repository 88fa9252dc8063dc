/-
  ReceiverLink.Proofs.Monitor.Display
  ────────────────────────────────
  **The monitor shows a whole recording.**

  A recording can be opened if it is there, and commands are accepted as long
  as the watchdog has not found its end.  However slowly it is read, no look
  before that makes anything known, and by then the supervisor has handed over
  every telegram: what it makes known last is that it is drained.  So the
  monitor shows all of them, in whatever order it takes the news.

  Main statements:
    * `play_complete`, `start_complete` — the recording is played to its end;
    * `notices_watching` — what is made known to the monitor;
    * `lines_whole` — what it shows.
-/
import ReceiverLink.Proofs.Monitor.Watching
import ReceiverLink.Proofs.Supervisor.Played

namespace ReceiverLink.Monitor

open Simulation

/-! ## §1. Commands. -/

theorem length_toList_loop (bytes : ByteArray) (i : Nat) (r : List UInt8) :
    (ByteArray.toList.loop bytes i r).length = r.length + (bytes.size - i) := by
  induction i, r using ByteArray.toList.loop.induct bytes with
  | case1 i r hmore ih =>
    rw [ByteArray.toList.loop, if_pos hmore, ih, List.length_cons]
    omega
  | case2 i r hend =>
    rw [ByteArray.toList.loop, if_neg hend, List.length_reverse]
    omega

/-- The bytes of a command. -/
def commandBytes (command : String) : List UInt8 :=
  Text.encodeUtf8 (command ++ "\r\n")

/-- No command is empty: it has a line end. -/
theorem commandBytes_ne_nil (command : String) : commandBytes command ≠ [] := by
  have hlength : (commandBytes command).length
      = command.toByteArray.size + "\r\n".toByteArray.size := by
    unfold commandBytes Text.encodeUtf8 ByteArray.toList
    rw [length_toList_loop, String.toUTF8_eq_toByteArray, String.toByteArray_append,
      ByteArray.size_append, List.length_nil, Nat.zero_add, Nat.sub_zero]
  intro hempty
  rw [hempty] at hlength
  have hline : "\r\n".toByteArray.size = 2 := by decide
  rw [hline] at hlength
  cases hlength

/-- A command that is accepted. -/
theorem sendLine_ok {s s' : Simulation} {command : String}
    (h : s.send (commandBytes command) = (s', .ok ())) : sendLine s command = .ok s' := by
  unfold sendLine
  rw [show s.send (Text.encodeUtf8 _) = _ from h]
  rfl

/-- Commands are accepted one after the other, wherever each of them is. -/
theorem sendLines_ok {P : Simulation → Prop} {s : Simulation}
    (hsend : ∀ {s : Simulation}, P s → ∀ {command : List UInt8}, command ≠ [] →
      s.send command = ((s.step (.send command)).1, .ok ()) ∧ P (s.step (.send command)).1)
    (h : P s) (commands : List String) :
    commands.foldlM sendLine s = .ok (s.run ((commands.map commandBytes).map .send))
      ∧ P (s.run ((commands.map commandBytes).map .send)) := by
  induction commands generalizing s with
  | nil => exact ⟨rfl, h⟩
  | cons command commands ih =>
    obtain ⟨haccepted, hafter⟩ := hsend h (commandBytes_ne_nil command)
    obtain ⟨hrest, hlast⟩ := ih hafter
    rw [List.foldlM_cons, sendLine_ok haccepted]
    exact ⟨hrest, hlast⟩

/-! ## §2. Playing. -/

/-- What is done while a recording is played. -/
inductive Harmless : Action → Prop
  | connect : Harmless .connect
  | send (command : List UInt8) : Harmless (.send command)
  | advance (ms : Nat) : Harmless (.advance ms)
  | write (bytes : List UInt8) : Harmless (.receiverWrite 0 bytes)
  | finish : Harmless (.receiverShutdown 0)

/-- Harmless steps with which just these bytes come. -/
structure Brings (s : Simulation) (actions : List Action) (bytes : List UInt8) : Prop where
  harmless : ∀ a ∈ actions, Harmless a
  put : (s.answers actions).flatMap (putBy 0) = bytes

namespace Brings

variable {s : Simulation} {actions : List Action} {bytes : List UInt8}

theorem nothing (s : Simulation) : Brings s [] [] :=
  ⟨by simp, rfl⟩

theorem cons {a : Action} (ha : Harmless a) (h : Brings (s.step a).1 actions bytes) :
    Brings s (a :: actions) (putBy 0 (a, (s.step a).2) ++ bytes) := by
  refine ⟨List.forall_mem_cons.mpr ⟨ha, h.harmless⟩, ?_⟩
  show ((a, (s.step a).2) :: (s.step a).1.answers actions).flatMap (putBy 0) = _
  rw [List.flatMap_cons, h.put]

/-- Some bytes come, and the others after them. -/
theorem write {part : List UInt8} (hwritten : (s.step (.receiverWrite 0 part)).2
      = .written part.length false)
    (h : Brings (s.step (.receiverWrite 0 part)).1 actions bytes) :
    Brings s (.receiverWrite 0 part :: actions) (part ++ bytes) := by
  have hcons := cons (.write part) h
  rw [hwritten] at hcons
  rwa [show putBy 0 (.receiverWrite 0 part, .written part.length false) = part.take part.length
    from rfl, List.take_length] at hcons

theorem append {more : List Action} {others : List UInt8} (h : Brings s actions bytes)
    (h' : Brings (s.run actions) more others) : Brings s (actions ++ more) (bytes ++ others) := by
  refine ⟨?_, ?_⟩
  · intro a ha
    rcases List.mem_append.mp ha with hfirst | hlast
    · exact h.harmless a hfirst
    · exact h'.harmless a hlast
  · rw [answers_append, List.flatMap_append, h.put, h'.put]

/-- No bytes come with a command. -/
theorem sends (s : Simulation) (commands : List (List UInt8)) :
    Brings s (commands.map .send) [] := by
  induction commands generalizing s with
  | nil => exact nothing s
  | cons command commands ih => exact cons (.send command) (ih _)

end Brings

/-- **A recording is played to its end**, in whatever steps: all commands are accepted, and all its
bytes come. -/
theorem play_complete {s : Simulation} (h : s.Feeding 0) (steps : List PlayStep)
    (recording : Recording) (commands : List String) :
    ∃ actions, play steps recording commands s = .ok (s.run actions)
      ∧ Brings s actions recording.rest ∧ (s.run actions).Complete 0 := by
  -- the steps keep the link fed until a read finds nothing left
  induction steps generalizing s recording commands with
  | nil =>
    obtain ⟨hsends, hfeeding⟩ := sendLines_ok Feeding.send h commands
    obtain ⟨hwritten, hfed⟩ := hfeeding.write recording.rest
    refine ⟨(commands.map commandBytes).map .send
      ++ [.receiverWrite 0 recording.rest, .receiverShutdown 0], ?_, ?_, ?_⟩
    · unfold play
      rw [hsends, run_append]
      rfl
    · have hread := Brings.write hwritten (.cons .finish (.nothing _))
      rw [show putBy 0 (.receiverShutdown 0, _) ++ [] = [] from rfl, List.append_nil] at hread
      exact (Brings.sends s _).append hread
    · rw [run_append]
      exact hfed.finish
  | cons step steps ih =>
    cases step with
    | read count =>
      unfold play
      by_cases hend : recording.rest = []
      · -- nothing is left: the read finds the end
        obtain ⟨hsends, hcomplete⟩ := sendLines_ok Complete.send h.finish commands
        refine ⟨.receiverShutdown 0 :: (commands.map commandBytes).map .send, ?_, ?_, hcomplete⟩
        · rw [if_pos hend]
          exact hsends
        · rw [hend]
          exact .cons .finish (.sends _ _)
      · obtain ⟨hwritten, hfeeding⟩ := h.write (recording.read count).1
        obtain ⟨actions, hplay, hbrings, hcomplete⟩ :=
          ih hfeeding (recording.read count).2 commands
        refine ⟨.receiverWrite 0 (recording.read count).1 :: actions, ?_, ?_, hcomplete⟩
        · rw [if_neg hend]
          exact hplay
        · rw [← List.take_append_drop count recording.rest]
          exact .write hwritten hbrings
    | command =>
      cases commands with
      | nil => exact ih h recording []
      | cons command commands =>
        obtain ⟨haccepted, hfeeding⟩ := h.send (commandBytes_ne_nil command)
        obtain ⟨actions, hplay, hbrings, hcomplete⟩ := ih hfeeding recording commands
        refine ⟨.send (commandBytes command) :: actions, ?_, .cons (.send _) hbrings, hcomplete⟩
        unfold play
        rw [sendLine_ok haccepted]
        exact hplay
    | wait ms =>
      cases commands with
      | nil =>
        obtain ⟨actions, hplay, hbrings, hcomplete⟩ := ih (h.advance ms) recording []
        exact ⟨.advance ms :: actions, hplay, .cons (.advance ms) hbrings, hcomplete⟩
      | cons command commands =>
        -- all commands are sent before the monitor waits
        exact ih h recording (command :: commands)

/-- **The monitor plays a recording that is there.** -/
theorem start_complete (pace : Pace) (steps : List PlayStep) (path : String) (file : List UInt8)
    (commands : List String) (replay : Bool) :
    ∃ (config : SupervisorConfig) (actions : List Action), config.maxBlock = Block.maxSize
      ∧ start pace steps path (some file) commands replay
        = .ok ((equipped pace config (.replay ⟨path⟩) [.unread]).run actions)
      ∧ Brings (equipped pace config (.replay ⟨path⟩) [.unread]) actions file
      ∧ ((equipped pace config (.replay ⟨path⟩) [.unread]).run actions).Complete 0 := by
  let config : SupervisorConfig := { settings := { fromLog := replay } }
  let idle : Simulation := equipped pace config (.replay ⟨path⟩) [.unread]
  obtain ⟨hconnect, hfeeding⟩ : idle.connect = ((idle.step .connect).1, .ok ())
      ∧ (idle.step .connect).1.Feeding 0 :=
    equipped_feeding (Bool.or_true _) (Bool.and_false _) (show 0 < 1000 by decide)
  obtain ⟨actions, hplay, hbrings, hcomplete⟩ := play_complete hfeeding steps ⟨file, 0⟩ commands
  refine ⟨config, .connect :: actions, rfl, ?_, .cons .connect hbrings, hcomplete⟩
  show (idle.connect.2 >>= fun _ => play steps ⟨file, 0⟩ commands idle.connect.1) = _
  rw [hconnect]
  exact hplay

/-! ## §3. What is made known. -/

/-- A notice is a telegram that has been received, or a new state. -/
theorem telegram?_of? (h : Happening) :
    (Notice.of? h).bind Notice.telegram? = h.handover?.bind Handover.telegram? := by
  cases h with
  | handover outcome => cases outcome <;> rfl
  | _ => rfl

/-- **The telegrams, and last of all that the supervisor is drained**, are made known. -/
theorem notices_watching {s : Simulation} {ts : List Telegram} {n : Nat} (hcomplete : s.Complete n)
    (hhanded : s.handed = ts.map .received)
    (hundrained : ∀ old, .stateChanged old .drained ∉ s.happenings) :
    Watching ts (notices s) {} := by
  have hnotices : notices s = s.happenings.filterMap Notice.of? ++ [.state .drained] := by
    -- the look adds two happenings, and the new state is the one that is made known
    unfold notices
    refine (List.filterMap_map (f := Prod.snd) (g := Notice.of?)).symm.trans ?_
    show List.filterMap Notice.of? (Simulation.happenings _) = _
    rw [hcomplete.elapse, List.filterMap_append]
    rfl
  refine ⟨?_, .coming hnotices ?_ nofun⟩
  · have htelegrams : s.handed.filterMap Handover.telegram? = ts := by
      rw [hhanded, List.filterMap_map]
      exact List.filterMap_some
    rw [hnotices, List.filterMap_append, List.filterMap_filterMap, funext telegram?_of?,
      ← List.filterMap_filterMap]
    show _ ++ [] = _
    rw [List.append_nil]
    exact htelegrams
  · intro hmem
    obtain ⟨x, hx, hnotice⟩ := List.mem_filterMap.mp hmem
    cases x with
    | stateChanged old new =>
      cases hnotice
      exact hundrained old hx
    | handover outcome => cases outcome <;> cases hnotice
    | _ => cases hnotice

/-- What the monitor starts with, and what is made known to it then. -/
theorem start_watching (pace : Pace) (steps : List PlayStep) (path : String) (file : List UInt8)
    (commands : List String) (replay : Bool) :
    ∃ s ts, start pace steps path (some file) commands replay = .ok s
      ∧ Watching ts (notices s) {} ∧ ts.map Telegram.frame = framesOf Block.maxSize file := by
  obtain ⟨config, actions, hmax, hstart, hbrings, hcomplete⟩ :=
    start_complete pace steps path file commands replay
  have hnone : ∀ {a : Action}, ¬ Harmless a → a ∉ actions :=
    fun ha hmem => ha (hbrings.harmless _ hmem)
  have huntouched : Untouched [.unread] := by
    intro link hlink
    rw [List.mem_singleton.mp hlink]
    exact ⟨rfl, rfl⟩
  obtain ⟨ts, hhanded, hframes⟩ := played_whole (Bool.or_true _) huntouched (hnone nofun)
    (hnone nofun) (hnone nofun) (fun kind hmem => absurd hmem (hnone nofun))
    hcomplete.plays.current hcomplete.shut
  rw [hmax, hbrings.put] at hframes
  have hundrained := played_undrained huntouched hcomplete.plays.current
  exact ⟨_, ts, hstart, notices_watching hcomplete hhanded hundrained, hframes⟩

/-! ## §4. What is shown. -/

/-- A line does not tell when its telegram came. -/
theorem lines_congr {ts us : List Telegram} (h : ts.map Telegram.frame = us.map Telegram.frame) :
    ts.map line = us.map line := by
  have hline : line = (fun f : Format × List UInt8 => line ⟨f.1, f.2, 0⟩) ∘ Telegram.frame := rfl
  rw [hline, ← List.map_map, ← List.map_map, h]

/-- What is shown when waiting ends. -/
theorem linesIn_of_ends {pace : Pace} {steps : List PlayStep} {turns : List Turn} {path : String}
    {file : Option (List UInt8)} {commands : List String} {replay : Bool} {s : Simulation}
    {ts : List Telegram} (hstart : start pace steps path file commands replay = .ok s)
    (hends : watch turns (notices s) {} = some ts) :
    linesIn pace steps turns path file commands replay = .ok (ts.map line) := by
  unfold linesIn
  rw [hstart]
  show Except.ok (List.map line (Option.getD (watch turns _ _) [])) = _
  rw [hends]
  rfl

/-- When all has arrived before the first turn, which looks at the state, it is the only one. -/
theorem watch_at_once {ts : List Telegram} {rest : List Notice} {v : View}
    (h : Watching ts rest v) : watch [⟨rest.length, .state⟩] rest v = some ts := by
  have harrived := h.arrive rest.length
  rw [List.take_length, List.drop_length] at harrived
  have hknown := harrived.expects.known
  rw [watch_cons]
  dsimp only
  rw [List.take_length]
  have hchoose : (rest.foldl View.arrive v).choose .state = some .state := by
    unfold View.choose
    rw [hknown]
    split <;> first | rfl | contradiction
  rw [hchoose]
  dsimp only
  rw [if_pos hknown, harrived.complete hknown]

/-- **The monitor shows a whole recording**, whatever commands it is given, and however the
recording is read: one line for each telegram that framing gives of its bytes, in order.  So it does
in whatever turns it waits, once it has seen that the supervisor is drained; and it does see that,
if all that is made known arrives at some time and it waits long enough. -/
theorem lines_whole (pace : Pace) (steps : List PlayStep) (path : String) (file : List UInt8)
    (commands : List String) (replay : Bool) (now : Time) :
    let whole := ((Framer.new Block.maxSize).feed file now).telegrams.toList.map line
    ∃ s, start pace steps path (some file) commands replay = .ok s
      ∧ (∀ turns shown, watch turns (notices s) {} = some shown → shown.map line = whole)
      ∧ (∀ schedule : Nat → Turn,
        (∃ count, (notices s).length ≤ room ((List.range count).map schedule)) →
        ∃ enough, ∀ count ≥ enough,
          linesIn pace steps ((List.range count).map schedule) path (some file) commands replay
            = .ok whole)
      ∧ lines path (some file) commands replay = .ok whole := by
  intro whole
  -- whatever makes the same telegrams known, the same is shown
  have hshown : ∀ {ts : List Telegram}, ts.map Telegram.frame = framesOf Block.maxSize file →
      ts.map line = whole := by
    intro ts hframes
    have hcoherent := Framer.new_coherent Block.maxSize
    exact lines_congr (hframes.trans
      (Framer.feed_alike hcoherent hcoherent (.refl _) file 0 now).frames)
  obtain ⟨s, ts, hstart, hwatching, hframes⟩ :=
    start_watching pace steps path file commands replay
  refine ⟨s, hstart, ?_, ?_, ?_⟩
  · intro turns shown hends
    rw [watch_eq turns hwatching hends, hshown hframes]
  · rintro schedule ⟨count, harrive⟩
    -- after everything has arrived there is a turn for each telegram, and one for the news
    refine ⟨count + (ts.length + 1), ?_⟩
    intro m hm
    have hends : watch ((List.range m).map schedule) (notices s) {} = some ts := by
      obtain ⟨more, rfl⟩ := Nat.exists_eq_add_of_le hm
      rw [Nat.add_assoc, List.range_add, List.map_append]
      refine watch_ends _ _ hwatching harrive ?_
      rw [List.length_map, List.length_map, List.length_range]
      omega
    rw [linesIn_of_ends hstart hends, hshown hframes]
  · obtain ⟨s, ts, hstart, hwatching, hframes⟩ :=
      start_watching .cooperative [] path file commands replay
    unfold lines
    rw [hstart]
    show linesIn .cooperative [] [⟨(notices s).length, .state⟩] path (some file) commands replay = _
    rw [linesIn_of_ends hstart (watch_at_once hwatching), hshown hframes]

/-- A telegram is read in two parts, with looks of the watchdog in between.  What is made known
arrives piece by piece, and telegrams are taken first. -/
theorem lines_whole_piecemeal :
    ∃ enough, ∀ count ≥ enough,
      linesIn .cooperative [.read 2, .command, .wait 2500]
        ((List.range count).map fun _ => ⟨1, .telegram⟩) "receiver.log"
        (some [0x24, 0x47, 0x50, 0x0D, 0x0A, 0x24, 0x47]) ["help"] true
        = .ok ["nmea                   $GP"] := by
  obtain ⟨s, -, -, hends, -⟩ := lines_whole .cooperative [.read 2, .command, .wait 2500]
    "receiver.log" [0x24, 0x47, 0x50, 0x0D, 0x0A, 0x24, 0x47] ["help"] true 0
  have hwhole : ((Framer.new Block.maxSize).feed [0x24, 0x47, 0x50, 0x0D, 0x0A, 0x24, 0x47]
      0).telegrams.toList.map line = ["nmea                   $GP"] := by
    decide +kernel
  rw [← hwhole]
  refine hends _ ⟨(notices s).length, ?_⟩
  have hroom : ((List.range (notices s).length).map fun _ => Turn.mk 1 .telegram).length ≤ _ :=
    length_le_room (by simp)
  rwa [List.length_map, List.length_range] at hroom

end ReceiverLink.Monitor
