import VueCartReader.Device.Parts
import VueCartReader.Transfer.Contained
import VueCartReader.Transfer.Write

/-!
# What a run leaves in the cartridge

Only the tasks write to the cartridge: while a control request reads the header, and while the reset
block writes the default state, no write strobe is low (`mainLoop_onlyTasks`). So the memory of a
cartridge changes with the cycles of the tasks only, and with `mainLoop_contained` a word keeps what
it holds as long as no command to write it is in progress (`mainLoop_untouched`).
-/

set_option autoImplicit false

namespace VueCartReader

open Program

/-! ## Who writes -/

/-- No write strobe is low. -/
structure Board.Unwriting (b : Board) : Prop where
  nUWR : b.nUWR = true
  nLWR : b.nLWR = true

theorem Board.Unwriting.of_idle {b : Board} (idle : b.Idle) : b.Unwriting := ⟨idle.2.1, idle.2.2⟩

/-- A write strobe rises under a task only. -/
def Event.OnlyTask : Event → Prop
  | .port by_ before _ => by_ = .task ∨ before.Unwriting
  | _ => True

theorem onlyTask_of_trace (by_ : Actor) {start : Board} {trace : List Board}
    (quiet : start.Unwriting) (all : ∀ s ∈ trace, s.Unwriting) :
    ∀ e ∈ portEvents by_ start trace, e.OnlyTask := by
  induction trace generalizing start with
  | nil =>
      intro e member
      cases member
  | cons after rest ih =>
      intro e member
      rcases List.mem_append.mp member with later | now
      · exact ih (all after (List.mem_cons_self ..)) (fun s member =>
          all s (List.mem_cons_of_mem _ member)) e later
      · rw [List.mem_singleton.mp now]
        exact .inr quiet

/-- Code that writes no word, started on a board at rest, and leaves it at rest. -/
structure Rig.Unwriting (g : Rig → Rig) : Prop where
  reaches : ∀ r : Rig, r.board.Resting → Reaches Board.Unwriting r (g r) (g r).board
  resting : ∀ r : Rig, r.board.Resting → (g r).board.Resting

namespace Rig.Unwriting

theorem comp {g h : Rig → Rig} (second : Rig.Unwriting g) (first : Rig.Unwriting h) :
    Rig.Unwriting fun r => g (h r) where
  reaches r rest := (first.reaches r rest).trans (second.reaches (h r) (first.resting r rest))
  resting r rest := second.resting (h r) (first.resting r rest)

theorem address (address : BitVec 32) : Rig.Unwriting (vueWriteAddressFull address) where
  reaches r rest := by
    have written := vueWriteAddressFull_spec rest.low address
    rw [written.choose_spec.2.1]
    exact written.mono fun s step => .of_idle (step.idle rest.idle)
  resting r rest := by
    rw [(vueWriteAddressFull_spec rest.low address).choose_spec.2.1]
    exact rest.addressed address

/-- The strobe of a reading. -/
theorem read : Rig.Unwriting fun r => (r.ctrlAnd (~~~vueNOe)).ctrlOr vueNOe := by
  have steps (r : Rig) (rest : r.board.Resting) :
      Reaches Board.Unwriting r ((r.ctrlAnd (~~~vueNOe)).ctrlOr vueNOe) r.board := by
    have restored := and_not_or_of_set (set_of_idle rest.idle (m := vueNOe) rfl)
    have fallen := (Reaches.refl (P := Board.Unwriting) r).ctrlAnd (~~~vueNOe) rest.low
      ⟨by simpa [Board.nUWR] using rest.idle.2.1, by simpa [Board.nLWR] using rest.idle.2.2⟩
    have risen := fallen.ctrlOr vueNOe (Board.strobed_low (b := r.board) rest.low vueNOe)
      (by simp only [restored]; exact rest.low) (by simp only [restored]; exact .of_idle rest.idle)
    simpa only [restored] using risen
  have board (r : Rig) (rest : r.board.Resting) := (steps r rest).choose_spec.2.1
  exact ⟨fun r rest => by rw [board r rest]; exact steps r rest,
    fun r rest => by rw [board r rest]; exact rest⟩

/-- Control lines that are as they are set to. -/
theorem still {g : Rig → Rig} {x : Byte → Byte}
    (write : ∀ r, g r = r.write fun b => { b with ctrl := { b.ctrl with out := x b.ctrl.out } })
    (same : ∀ b : Board, b.Resting → x b.ctrl.out = b.ctrl.out) : Rig.Unwriting g := by
  have steps (r : Rig) (rest : r.board.Resting) : Reaches Board.Unwriting r (g r) r.board := by
    have out := same r.board rest
    rw [write]
    have written := (Reaches.refl (P := Board.Unwriting) r).write
      (f := fun b => { b with ctrl := { b.ctrl with out := x b.ctrl.out } }) (c := r.board)
      (by rw [out]; exact Board.settle_low rest.low rest.low) (.of_idle rest.idle) rfl
    exact written
  have board (r : Rig) (rest : r.board.Resting) := (steps r rest).choose_spec.2.1
  exact ⟨fun r rest => by rw [board r rest]; exact steps r rest,
    fun r rest => by rw [board r rest]; exact rest⟩

theorem defaultState : Rig.Unwriting writeDefaultState :=
  (address allFlags).comp <| .comp
    (still (x := fun y => y &&& ~~~vueCartReaderPl) (fun _ => rfl) fun _ rest =>
      and_not_pl_of_low rest.low)
    (still (x := fun y => y ||| (vueNOe ||| vueNUwr ||| vueNLwr)) (fun _ => rfl) fun _ rest =>
      or_strobes rest.idle.1 rest.idle.2.1 rest.idle.2.2)

/-- The events of such code. -/
theorem events {g : Rig → Rig} (quiet : Rig.Unwriting g) (by_ : Actor) {b : Board}
    (rest : b.Resting) : ∀ e ∈ portEvents by_ b (g ⟨b, []⟩).seen, e.OnlyTask := by
  obtain ⟨trace, settled, -, all⟩ := quiet.reaches ⟨b, []⟩ rest
  rw [show (g ⟨b, []⟩).seen = trace from settled.seen]
  exact onlyTask_of_trace by_ (.of_idle rest.idle) all

end Rig.Unwriting

theorem HeaderReader.loop_unwriting (fuel : Nat) : ∀ h : HeaderReader, h.rig.board.Resting →
    Reaches Board.Unwriting h.rig (loop fuel h).rig (loop fuel h).rig.board ∧
      (loop fuel h).rig.board.Resting := by
  induction fuel with
  | zero => exact fun h rest => ⟨.refl h.rig, rest⟩
  | succ fuel ih =>
      intro h rest
      have round := Rig.Unwriting.read.comp (.address h.address)
      rw [loop]
      split
      · obtain ⟨more, rest'⟩ := ih h.round (round.resting h.rig rest)
        exact ⟨(round.reaches h.rig rest).trans more, rest'⟩
      · exact ⟨.refl h.rig, rest⟩

theorem readHeader_unwriting (address : BitVec 32) (myBuffer : Vector Byte 32) :
    Rig.Unwriting fun r => (readHeader r address myBuffer).rig := by
  have parts (r : Rig) (rest : r.board.Resting) :
      Reaches Board.Unwriting r (readHeader r address myBuffer).rig
        (readHeader r address myBuffer).rig.board ∧
      (readHeader r address myBuffer).rig.board.Resting := by
    unfold readHeader
    obtain ⟨read, rest'⟩ := HeaderReader.loop_unwriting 0x20 ⟨r, _, myBuffer, 0⟩ rest
    exact ⟨read.trans (Rig.Unwriting.reaches (.address _) _ rest'),
      Rig.Unwriting.resting (.address _) _ rest'⟩
  exact ⟨fun r rest => (parts r rest).1, fun r rest => (parts r rest).2⟩

/-- What the firmware does to a board at rest: it comes to rest again, and no write strobe but those
of the tasks has risen. -/
def Unwritten (s t : World) : Prop :=
  s.board.Resting → t.board.Resting ∧ Logs Event.OnlyTask s t

instance : IsPreorder World Unwritten where
  refl s := fun rest => ⟨rest, .refl s⟩
  trans s t u one two := fun rest => by
    obtain ⟨rest', first⟩ := one rest
    obtain ⟨rest'', second⟩ := two rest'
    exact ⟨rest'', first.trans second⟩

theorem unwritten_of_framed {α : Type} {m : Fw α} (framed : Moves (Framed OfUsb) m) :
    Moves Unwritten m := framed.mono fun _ _ framed rest =>
  ⟨by rw [framed.board]; exact rest, framed.log.mono fun e ok => by
    cases e <;> trivial⟩

theorem unwritten_bus {g : Rig → Rig} (quiet : Rig.Unwriting g) (by_ : Actor) :
    Moves Unwritten (onBus by_ g) :=
  Moves.modify fun w rest => ⟨quiet.resting ⟨w.board, []⟩ rest, _, rfl, quiet.events by_ rest⟩

theorem requests_unwritten : RequestPartsKeep Unwritten where
  moment := unwritten_of_framed moment_framed
  setup := nextSetup_moves fun _ _ rest => ⟨rest, .none rfl⟩
  select address := unwritten_of_framed (endpointSelectEndpoint_framed address)
  poll := unwritten_of_framed controlPoll_framed
  apart f _ := unwritten_of_framed (onUsb_framed f)
  note e ok := Moves.modify fun _ rest => ⟨rest, .one rfl (by cases e <;> trivial)⟩
  header := Moves.modify fun w rest => by
    have quiet := readHeader_unwriting w.vars.address w.vars.myBuffer
    exact ⟨quiet.resting ⟨w.board, []⟩ rest, _, rfl, quiet.events .control rest⟩
  reset := Moves.modify fun _ rest => ⟨rest, .one rfl trivial⟩
  stall := unwritten_of_framed endpointStallTransaction_framed
  clearStall := unwritten_of_framed endpointClearStall_framed
  resetEndpoint address := unwritten_of_framed (endpointResetEndpoint_framed .control address)
  configured := (unwritten_of_framed configureBulkEndpoints_framed).bind fun _ =>
    Moves.modify fun _ rest => ⟨rest, .one rfl trivial⟩

theorem mark_unwritten {e : Event} (ok : e.ofFirmware = true) : Moves Unwritten (note e) :=
  Moves.modify fun _ rest => ⟨rest, .one rfl (by cases e <;> trivial)⟩

theorem bulkAccess_unwritten (length : BitVec 32) : Moves Unwritten (bulkAccess length) := by
  refine bulkAccess_moves (fun _ => mark_unwritten) (fun w f length a called rest => ?_) length
  have call : SteeredCall (fun _ => True) ⟨w.board, []⟩ w.vars.bulkAddress a :=
    AccessFunc.call_steered called rest.low rest.idle (.inl trivial)
  refine ⟨⟨call.low, call.idle⟩, _, rfl, fun e member => ?_⟩
  obtain ⟨_, _, rfl⟩ := portEvents_kind _ _ _ e member
  exact .inl rfl

theorem rounds_unwritten : RoundPartsKeep Unwritten where
  usbTask := requests_unwritten.usbUsbTask
  moment := unwritten_of_framed moment_framed
  select address := unwritten_of_framed (endpointSelectEndpoint_framed address)
  stall := unwritten_of_framed endpointStallTransaction_framed
  clearStall := unwritten_of_framed endpointClearStall_framed
  offer _ := Moves.modify fun _ rest => ⟨⟨rest.low, rest.idle⟩, .none rfl⟩
  mark _ := mark_unwritten
  vars _ := Moves.modify fun _ rest => ⟨rest, .none rfl⟩
  latch address := unwritten_bus (.address address) .task
  restore := unwritten_bus .defaultState .main
  access := bulkAccess_unwritten
  free by_ := unwritten_of_framed (freeOut_framed by_)
  resetIn := unwritten_of_framed (onUsb_framed _)
  clearIn := unwritten_of_framed endpointClearIn_framed
  abort := unwritten_of_framed endpointAbortPendingIn_framed
  take := by
    refine .bind .state fun w => ?_
    split
    · exact .bind (Moves.modify fun _ rest => ⟨rest, .none rfl⟩) fun _ =>
        .bind (Moves.modify fun _ rest => ⟨rest, .one rfl trivial⟩) fun _ => .pure _
    · exact .pure _
  give _ := .bind (Moves.modify fun _ rest => ⟨rest, .none rfl⟩) fun _ =>
    Moves.modify fun _ rest => ⟨rest, .one rfl trivial⟩

/-- Only the tasks write to the cartridge. -/
theorem mainLoop_onlyTasks {start : World} (started : Started start) (inputs : List Input) :
    ∀ e ∈ (mainLoop inputs start).state.log, e.OnlyTask := by
  obtain ⟨new, log, all⟩ := (wp.exit (rounds_unwritten.mainLoop inputs start)
    started.busInvariant.ready.resting).2
  obtain ⟨_, _, _, _, _, rfl⟩ := started
  intro e member
  rw [log] at member
  exact all e (by simpa [World.started] using member)

/-! ## The memory -/

/-- The bus cycle that is over with a port write, whoever makes it. -/
def Event.anyCycle : Event → Option BusCycle
  | .port _ before after => busCycle before after
  | _ => none

/-- What a cartridge holds after all that a log records. -/
def Cartridge.recorded (stray : Byte) (m : Cartridge) (log : List Event) : Cartridge :=
  m.after stray (occurrences Event.anyCycle log)

/-- A cycle that writes is one of a task. -/
theorem cycle_of_writes {e : Event} {y : BusCycle} (only : e.OnlyTask)
    (found : e.anyCycle = some y) (writes : y.drive.writes = true) : e.cycle = some y := by
  cases e with
  | port by_ before after =>
      rcases only with rfl | quiet
      · exact found
      · -- with both write strobes high before, neither rises
        simp only [Event.anyCycle, busCycle, quiet.nUWR, quiet.nLWR, Bool.not_true, Bool.false_and]
          at found
        split at found
        · cases found
          simp only [Drive.writes, AvrGpio.lane_writes, Bool.or_self] at writes
          cases writes
        · cases found
  | _ => cases found

theorem anyCycle_of_cycle {e : Event} {y : BusCycle} (found : e.cycle = some y) :
    e.anyCycle = some y := by
  cases e with
  | port by_ before after =>
      cases by_ with
      | task => exact found
      | _ => cases found
  | _ => cases found

/-- What the tasks have done is all that a cartridge remembers. -/
theorem Cartridge.recorded_tasks (stray : Byte) (m : Cartridge) {log : List Event}
    (only : ∀ e ∈ log, e.OnlyTask) : m.recorded stray log = m.after stray (cyclesOf log) := by
  induction log with
  | nil => rfl
  | cons e log ih =>
      have past := ih fun f member => only f (List.mem_cons_of_mem _ member)
      rw [recorded] at past
      rw [recorded, cyclesOf, occurrences_cons, occurrences_cons, after_append, after_append, past,
        cyclesOf]
      cases task : e.cycle with
      | some y => rw [anyCycle_of_cycle task]
      | none =>
          -- a cycle that is not of a task writes nothing
          refine after_quiet stray _ fun y member => ?_
          have found : e.anyCycle = some y := Option.mem_toList.mp member
          by_contra writes
          have cycle := cycle_of_writes (only e (List.mem_cons_self ..)) found
            (Bool.eq_true_of_not_eq_false writes)
          rw [task] at cycle
          cases cycle

/-- A command names a word of a chip. -/
def VueCommand.Covers (c : VueCommand) (flags : Byte) (word : BitVec 23) : Prop :=
  chips flags = chips (flagBits c.start) ∧
    ∃ k < c.words c.length.toNat, word = wordAddress c.start + BitVec.ofNat 23 k

/-- A command to write that is accepted in the newer part of a log, or that was accepted before and
has not come to its end. -/
def MayWrite (newer older : List Event) (c : VueCommand) : Prop :=
  c.task = .write ∧
    (.accept c ∈ newer ∨ acceptedCommand older = some c ∧ .finish ∉ sinceAccept older)

/-- At the end of a transfer all its words have had their cycles. -/
theorem words_of_finish {plug : Option Plug} {log : List Event} {c : VueCommand}
    (accounted : History (Account plug) log) (accepted : acceptedCommand log = some c)
    (finished : .finish ∈ sinceAccept log) :
    c.words c.length.toNat ≤ (cyclesOf (sinceAccept log)).length := by
  obtain ⟨late, early, split⟩ := List.append_of_mem finished
  obtain ⟨here, since, found⟩ := since_split split accepted
  obtain ⟨d, same, complete⟩ := (accounted.split here).finish rfl
  obtain rfl : c = d := Option.some.inj (found.symm.trans same)
  have cycles := complete.cycles
  rw [since] at cycles
  rw [← cycles, split]
  simp only [cyclesOf, occurrences_append, occurrences_cons, List.length_append]
  omega

/-- A command that was accepted last is to be found in the newer part of a log or in the older. -/
theorem acceptedCommand_cases {newer older : List Event} {c : VueCommand}
    (found : acceptedCommand (newer ++ older) = some c) :
    .accept c ∈ newer ∨
      acceptedCommand older = some c ∧
        sinceAccept (newer ++ older) = newer ++ sinceAccept older := by
  by_cases none_ : ∀ e ∈ newer, e.accepted = none
  · rw [acceptedCommand_append none_] at found
    exact .inr ⟨found, sinceAccept_append none_ older⟩
  · left
    rw [acceptedCommand, List.findSome?_append] at found
    cases here : newer.findSome? Event.accepted with
    | none => exact absurd (List.findSome?_eq_none_iff.mp here) none_
    | some d =>
        rw [here] at found
        cases found
        obtain ⟨e, member, is⟩ := List.exists_of_findSome?_eq_some here
        cases e with
        | accept d =>
            cases is
            exact member
        | _ => cases is

theorem recorded_untouched {start : World} (started : Started start) {inputs : List Input}
    {later newer older : List Event}
    (log : (mainLoop inputs start).state.log = later ++ (newer ++ older))
    (stray : Byte) (m : Cartridge) {flags : Byte} {word : BitVec 23}
    (outside : ∀ c, MayWrite newer older c → ¬ c.Covers flags word) :
    m.recorded stray (newer ++ older) flags word = m.recorded stray older flags word := by
  have accounted := (mainLoop_keepsLedger none inputs fun _ _ _ found => nomatch found).exit
    (fun _ held => held.books.history) started.ledger
  rw [Accounted, log] at accounted
  have accounted : History (Account none) (newer ++ older) := accounted.suffix
  have only : ∀ e ∈ newer ++ older, e.OnlyTask := fun e member =>
    mainLoop_onlyTasks started inputs e (log ▸ List.mem_append_right later member)
  rw [Cartridge.recorded_tasks stray m only,
    Cartridge.recorded_tasks stray m fun e member => only e (List.mem_append_right _ member),
    cyclesOf, occurrences_append, Cartridge.after_append]
  refine Cartridge.after_untouched stray _ fun y member touches => ?_
  obtain ⟨late, e, early, split, cycle⟩ := mem_occurrences member
  have here : (mainLoop inputs start).state.log = (later ++ late) ++ e :: (early ++ older) := by
    rw [log, split, List.append_assoc, List.append_assoc]
    rfl
  obtain ⟨c, accepted, belongs⟩ := mainLoop_belongs started inputs here cycle
  obtain ⟨flags', address⟩ := belongs.place.resolve_left
    (ne_true_of_eq_false touches.selects)
  refine outside c ⟨belongs.writes.mp touches.writes, ?_⟩
    ⟨by rw [touches.chip, flags'], _, belongs.inside, touches.word.trans address⟩
  rcases acceptedCommand_cases accepted with new | ⟨old, since⟩
  · left
    rw [split]
    exact List.mem_append_right _ (List.mem_cons_of_mem _ new)
  · -- a transfer that has come to its end has no cycles left
    refine .inr ⟨old, fun finished => ?_⟩
    have whole : History (Account none) older := accounted.suffix
    have enough := words_of_finish whole old finished
    have inside := belongs.inside
    rw [since, cyclesOf, occurrences_append, List.length_append] at inside
    rw [cyclesOf] at enough
    omega

/-- **A word that no command may write keeps what it holds.** From any point of any run to any
other, whatever else happens, the cartridge changes in the words of the commands to write that are
in progress at first or accepted on the way, and nowhere else. -/
theorem mainLoop_untouched {start : World} (started : Started start) (inputs : List Input)
    {later newer older : List Event}
    (log : (mainLoop inputs start).state.log = later ++ (newer ++ older))
    (stray : Byte) (m : Cartridge) {flags : Byte} {word : BitVec 23}
    (outside : ∀ c, MayWrite newer older c → ¬ c.Covers flags word) :
    m.recorded stray (newer ++ older) flags word = m.recorded stray older flags word :=
  recorded_untouched started log stray m outside

/-- The word of `wordInputs` is stored at 1, and the word at 5 keeps what it holds. -/
theorem mainLoop_untouched_word :
    Cartridge.recorded 0#8 plainCartridge ((wordEnd none).log ++ []) 0x12#8 5#23 =
      plainCartridge 0x12#8 5#23 := by
  have apart : ∀ e ∈ (wordEnd none).log, ∀ c ∈ e.accepted, ∀ k < c.words c.length.toNat,
      5#23 ≠ wordAddress c.start + BitVec.ofNat 23 k := by decide +kernel
  have log :
      (mainLoop (wordInputs none) wordStart).state.log = [] ++ ((wordEnd none).log ++ []) := by
    rw [List.append_nil]
    exact (List.nil_append _).symm
  refine mainLoop_untouched wordStart_started (wordInputs none) log _ _ ?_
  rintro c ⟨-, new | old⟩ ⟨-, k, inside, same⟩
  · exact apart _ new c rfl k inside same
  · cases old.1

end VueCartReader
