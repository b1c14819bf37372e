import VueCartReader.Safety.Reset

/-!
# The state machine

While the firmware is not idle, a transfer is in progress (`InProgress`): the phase,
the access routine, the command with what is left of its length, and the running
address fit the command that was accepted last. While it is idle, no chip is selected.
Every round of the main loop keeps this (`mainLoop_keepsMachine`).

A chunk is counted in the running address before it is counted in the remaining
length, or the other way round; `InProgress c n` says that the address is `n` bytes
ahead.
-/

set_option autoImplicit false

namespace VueCartReader

open Program

/-! ## The command of a transfer -/

def Event.accepted : Event → Option VueCommand
  | .accept c => some c
  | _ => none

/-- The command that was accepted last. -/
def acceptedCommand (log : List Event) : Option VueCommand := log.findSome? Event.accepted

theorem acceptedCommand_append {new : List Event} (none_ : ∀ e ∈ new, e.accepted = none)
    (log : List Event) : acceptedCommand (new ++ log) = acceptedCommand log := by
  rw [acceptedCommand, List.findSome?_append, List.findSome?_eq_none_iff.mpr none_]
  rfl

theorem acceptedCommand_cons {e : Event} (none_ : e.accepted = none) (log : List Event) :
    acceptedCommand (e :: log) = acceptedCommand log := by
  rw [acceptedCommand, List.findSome?_cons, none_]
  rfl

/-- How many words some bytes of a transfer take. -/
def VueCommand.words (c : VueCommand) (bytes : Nat) : Nat := rounds bytes c.func.step

/-- The bytes of a command that the remaining length says are over. -/
def VueCommand.moved (c : VueCommand) (w : World) : Nat :=
  c.length.toNat - w.vars.curCommand.length.toNat

structure InProgress (c : VueCommand) (ahead : Nat) (w : World) : Prop where
  defined : c.defined = true
  clamped : c.Clamped
  task : w.vars.curVueState = c.task
  phase : w.vars.curCmdPhase = 1#32
  command : w.vars.curCommand = { c with length := w.vars.curCommand.length }
  positive : 0 < w.vars.curCommand.length.toNat
  bounded : w.vars.curCommand.length.toNat ≤ c.length.toNat
  whole : 64 ∣ c.moved w
  func : w.vars.bulkAccessFunc = some c.func
  address : w.vars.bulkReset = 0#32 →
    w.vars.bulkAddress = vueIncAddress^[c.words (c.moved w + ahead)] c.start

/-- A transfer is in progress, or no chip is selected. -/
structure Tracked (w : World) : Prop where
  progress : w.vars.curVueState ≠ .idle →
    ∃ c, acceptedCommand w.log = some c ∧ InProgress c 0 w
  released : w.vars.curVueState = .idle → noSelect w.board.flagLatch = true

structure Machine (w : World) : Prop where
  bus : BusInvariant w
  tracked : Tracked w

/-! ## Code that leaves a transfer alone -/

/-- What streams and control requests change of a transfer. -/
structure Unmoved (s t : World) : Prop where
  vars : ∃ buffer reset address myBuffer, t.vars =
    { s.vars with bulkBuffer := buffer, bulkReset := reset, address := address
                  myBuffer := myBuffer }
  accepted : acceptedCommand t.log = acceptedCommand s.log
  reset : t.vars.bulkReset = 0#32 → s.vars.bulkReset = 0#32
  board : s.BusReady → t.board = s.board ∨ t.board = s.board.addressed headerEnd

theorem accepted_of_stream {e : Event} (ok : e.ofStream = true) : e.accepted = none := by
  cases e with
  | accept c => exact nomatch ok
  | _ => rfl

theorem Unmoved.of_streamed {s t : World} (streamed : Streamed s t)
    (command : t.vars.curCommand = s.vars.curCommand) : Unmoved s t := by
  obtain ⟨new, log, all, reset⟩ := streamed.log
  obtain ⟨buffer, _, flag, address, myBuffer, vars⟩ := streamed.vars
  refine ⟨⟨buffer, flag, address, myBuffer, ?_⟩, ?_, fun clear => ?_, streamed.board⟩
  · rw [vars] at command
    simp only at command
    rw [vars, command]
  · rw [log]
    exact acceptedCommand_append (fun e member => accepted_of_stream (all e member)) s.log
  · rw [reset] at clear
    split at clear
    · exact absurd clear (by decide)
    · exact clear

theorem Unmoved.of_served {s t : World} (served : Served s t) : Unmoved s t := by
  obtain ⟨_, _, _, vars⟩ := served.vars
  exact .of_streamed (.of_served served) (by rw [vars])

theorem Unmoved.of_framed {s t : World} (framed : Framed OfUsb s t) : Unmoved s t :=
  .of_served (.of_framed framed)

theorem InProgress.unmoved {c : VueCommand} {n : Nat} {s t : World} (going : InProgress c n s)
    (unmoved : Unmoved s t) : InProgress c n t := by
  obtain ⟨_, _, _, _, vars⟩ := unmoved.vars
  have command : t.vars.curCommand = s.vars.curCommand := by rw [vars]
  have moved : c.moved t = c.moved s := by rw [VueCommand.moved, command, VueCommand.moved]
  refine ⟨going.defined, going.clamped, ?_, ?_, ?_, ?_, ?_, ?_, ?_, fun clear => ?_⟩
  · rw [vars]
    exact going.task
  · rw [vars]
    exact going.phase
  · rw [command]
    exact going.command
  · rw [command]
    exact going.positive
  · rw [command]
    exact going.bounded
  · rw [moved]
    exact going.whole
  · rw [vars]
    exact going.func
  · rw [moved, ← going.address (unmoved.reset clear), vars]

/-- The latch after a control request selects no chip, or what it selected before. -/
theorem Unmoved.released {s t : World} (unmoved : Unmoved s t) (ready : s.BusReady)
    (none_ : noSelect s.board.flagLatch = true) : noSelect t.board.flagLatch = true := by
  rcases unmoved.board ready with same | read
  · rw [same]
    exact none_
  · rw [read]
    show noSelect (flagBits headerEnd) = true
    decide

theorem Tracked.unmoved {s t : World} (held : Tracked s) (unmoved : Unmoved s t)
    (ready : s.BusReady) : Tracked t := by
  obtain ⟨_, _, _, _, vars⟩ := unmoved.vars
  have state : t.vars.curVueState = s.vars.curVueState := by rw [vars]
  refine ⟨fun busy => ?_, fun idle => ?_⟩
  · rw [state] at busy
    obtain ⟨c, accepted, going⟩ := held.progress busy
    exact ⟨c, unmoved.accepted.trans accepted, going.unmoved unmoved⟩
  · rw [state] at idle
    exact unmoved.released ready (held.released idle)

theorem machine_of_framed (s t : World) (framed : Framed OfUsb s t) (held : Machine s) :
    Machine t :=
  ⟨busInvariant_of_served (.of_framed framed) held.bus,
    held.tracked.unmoved (.of_framed framed) held.bus.ready⟩

/-- What is known of a run besides bus safety. -/
theorem machine_of_tracked {m : Fw Unit} (keeps : KeepsBus m) {s : World} (bus : BusInvariant s)
    (ends : wp m (fun _ t => Tracked t) Anywhere s) : wp m (fun _ t => Machine t) Anywhere s :=
  ((keeps s bus).and ends).mono (fun _ _ both => ⟨both.1, both.2⟩) fun _ _ => trivial

/-! ## Streams of a transfer -/

/-- The memory of the command is as before. -/
def SameCommand (s t : World) : Prop := t.vars.curCommand = s.vars.curCommand

instance : IsPreorder World SameCommand where
  refl _ := rfl
  trans _ _ _ one two := two.trans one

theorem stream_sameCommand {d : Direction} (transfer : ∀ i, Moves SameCommand (d.transferByte i))
    (clear : Moves (Framed OfUsb) d.clearEndpoint) (length : Nat) :
    Moves SameCommand (stream d length) := by
  have framed (s t : World) (framed : Framed OfUsb s t) : SameCommand s t := by
    rw [SameCommand, framed.vars]
  refine Moves.stream (fun _ _ => Moves.modify fun _ => rfl) framed ?_ transfer clear length
  refine usbUsbTask_served.mono fun s t served => ?_
  obtain ⟨_, _, _, vars⟩ := served.vars
  rw [SameCommand, vars]

theorem receiveChunk_unmoved (length : Nat) (s : World) :
    wp (stream (readStream storeBuffer) length) (fun _ t => Unmoved s t) (fun t => Unmoved s t)
      s := by
  have read : Moves SameCommand endpointRead8 := by
    refine .bind .state fun w => ?_
    split
    · exact Moves.bind (Moves.modify fun _ => rfl) fun _ =>
        Moves.bind (Moves.modify fun _ => rfl) fun _ => .pure _
    · exact .pure _
  have stored (i : Nat) (x : Byte) : Moves SameCommand (onVars (storeBuffer i x)) :=
    Moves.modify fun _ => rfl
  have same : Moves SameCommand (stream (readStream storeBuffer) length) :=
    stream_sameCommand (fun i => read.bind (stored i)) (endpointClearOut_framed _) length
  exact ((readStream_streamed storeBuffer (fun _ _ _ => ⟨_, _, rfl⟩) length s).and (same s)).mono
    (fun _ _ ends => .of_streamed ends.1 ends.2) fun _ cut => .of_streamed cut.1 cut.2

theorem sendChunk_unmoved (length : Nat) (s : World) :
    wp (stream (writeStream loadBuffer) length) (fun _ t => Unmoved s t) (fun t => Unmoved s t)
      s := by
  have same : Moves SameCommand (stream (writeStream loadBuffer) length) :=
    stream_sameCommand (d := writeStream loadBuffer) (fun _ => .bind .state fun _ =>
      Moves.bind (Moves.modify fun _ => rfl) fun _ => Moves.modify fun _ => rfl)
      endpointClearIn_framed length
  exact ((writeStream_streamed loadBuffer length s).and (same s)).mono
    (fun _ _ ends => .of_streamed ends.1 ends.2) fun _ cut => .of_streamed cut.1 cut.2

/-! ## A chunk -/

/-- What is left fits in a chunk, or a chunk is full. -/
theorem chunkLength_toNat (v : Vars) :
    (chunkLength v).toNat = min v.curCommand.length.toNat 64 := by
  unfold chunkLength
  split
  · rename_i short
    have := BitVec.lt_def.mp short
    simp only [BitVec.toNat_ofNat] at this
    omega
  · rename_i long
    have := BitVec.not_lt.mp long
    have := BitVec.le_def.mp this
    simp only [BitVec.toNat_ofNat] at this ⊢
    omega

theorem chunkLength_setWidth (v : Vars) :
    ((chunkLength v).setWidth 8).toNat = (chunkLength v).toNat := by
  rw [BitVec.toNat_setWidth, Nat.mod_eq_of_lt]
  exact lt_of_le_of_lt (chunkLength_le v) (by decide)

/-- Whole chunks and a further piece take as many words as each of them does. -/
theorem words_add (c : VueCommand) {bytes more : Nat} (whole : 64 ∣ bytes) :
    c.words (bytes + more) = c.words bytes + rounds more c.func.step := by
  obtain ⟨k, rfl⟩ := whole
  have range : c.func.step = 1 ∨ c.func.step = 2 := by cases c.func <;> simp [AccessFunc.step]
  rcases range with eq | eq <;> simp only [VueCommand.words, rounds, eq] <;> omega

/-- An access moves the running address past a chunk. -/
theorem InProgress.accessed {c : VueCommand} {w : World} (going : InProgress c 0 w) {a : Access}
    (progress : c.func.Progress ⟨w.board, []⟩ w.vars.bulkAddress w.vars.bulkBuffer
      (rounds ((chunkLength w.vars).setWidth 8).toNat c.func.step) a) :
    InProgress c (chunkLength w.vars).toNat (w.accessed c.func (chunkLength w.vars) a) := by
  refine ⟨going.defined, going.clamped, going.task, going.phase, going.command, going.positive,
    going.bounded, going.whole, going.func, fun clear => ?_⟩
  have before := going.address clear
  rw [Nat.add_zero] at before
  show a.address = vueIncAddress^[c.words (c.moved w + _)] c.start
  rw [progress.running, before, chunkLength_setWidth, words_add c going.whole,
    ← Function.iterate_add_apply, Nat.add_comm]

/-- The world after a chunk has been counted. -/
def World.shortened (w : World) (length : BitVec 32) : World :=
  { w with
    vars :=
      { w.vars with
        curCommand := { w.vars.curCommand with length := w.vars.curCommand.length - length } } }

theorem shortened_length (w : World) :
    (w.shortened (chunkLength w.vars)).vars.curCommand.length.toNat =
      w.vars.curCommand.length.toNat - (chunkLength w.vars).toNat :=
  BitVec.toNat_sub_of_le (BitVec.le_def.mpr (by rw [chunkLength_toNat]; omega))

/-- A chunk that is ahead is counted in the remaining length. -/
theorem InProgress.shortened {c : VueCommand} {w : World}
    (going : InProgress c (chunkLength w.vars).toNat w)
    (more : (w.shortened (chunkLength w.vars)).vars.curCommand.length ≠ 0#32) :
    InProgress c 0 (w.shortened (chunkLength w.vars)) := by
  have chunk := chunkLength_toNat w.vars
  have left := shortened_length w
  have positive : 0 < (w.shortened (chunkLength w.vars)).vars.curCommand.length.toNat :=
    Nat.pos_of_ne_zero fun zero => more (BitVec.eq_of_toNat_eq zero)
  have bounded := going.bounded
  have whole := going.whole
  have moved : c.moved (w.shortened (chunkLength w.vars)) =
      c.moved w + (chunkLength w.vars).toNat := by
    simp only [VueCommand.moved]
    omega
  refine ⟨going.defined, going.clamped, going.task, going.phase, ?_, positive, by omega, ?_,
    going.func, fun clear => ?_⟩
  · exact congrArg (fun d : VueCommand =>
      { d with length := w.vars.curCommand.length - chunkLength w.vars }) going.command
  · rw [moved]
    omega
  · rw [moved]
    exact going.address clear

/-! ## The tasks -/

theorem deselect_eq (w : World) :
    deselect w = .value ()
      { w with
        board := (vueWriteAddressFull (w.vars.bulkAddress ||| vueFlagMask) ⟨w.board, []⟩).board
        log := portEvents .task w.board
          (vueWriteAddressFull (w.vars.bulkAddress ||| vueFlagMask) ⟨w.board, []⟩).seen ++
            .finish :: w.log } := by
  rfl

/-- A target that is released leaves no chip selected. -/
theorem deselect_released {w : World} (bus : BusInvariant w) :
    wp deselect (fun _ t => noSelect t.board.flagLatch = true ∧ t.BusReady) Anywhere w := by
  have selects : oneSelect (flagBits (w.vars.bulkAddress ||| vueFlagMask)) = true :=
    oneSelect_of_noSelect (flagBits_or_mask _)
  obtain ⟨run, board⟩ := vueWriteAddressFull_run bus.ready.resting bus.ready.selects selects
  rw [wp_of_value (deselect_eq w)]
  refine ⟨?_, run.resting, ?_, bus.ready.header⟩
  · show noSelect (vueWriteAddressFull _ _).board.flagLatch = true
    rw [board]
    exact flagBits_or_mask _
  · show oneSelect (vueWriteAddressFull _ _).board.flagLatch = true
    rw [board]
    exact selects

theorem finishWrite_tracked {w : World} (bus : BusInvariant w) :
    wp finishWrite (fun _ t => Tracked t) Anywhere w :=
  (deselect_released bus).bind fun _ _ ends => ⟨fun busy => absurd rfl busy, fun _ => ends.1⟩

theorem finishRead_tracked {w : World} (bus : BusInvariant w) :
    wp finishRead (fun _ t => Tracked t) Anywhere w :=
  (deselect_released bus).bind fun _ t ends =>
    wp.bind ((taskClearIn_framed t).mono (fun _ _ framed => framed) fun _ _ => trivial)
      fun _ u framed => ⟨fun busy => absurd rfl busy, fun _ => by
        show noSelect u.board.flagLatch = true
        rw [framed.board]
        exact ends.1⟩

/-- The end of a chunk, whichever way it went. -/
theorem endChunk_tracked {finish : Fw Unit} {c : VueCommand} {w : World}
    (going : InProgress c (chunkLength w.vars).toNat w) (accepted : acceptedCommand w.log = some c)
    (bus : BusInvariant w)
    (finished : ∀ u, BusInvariant u → wp finish (fun _ t => Tracked t) Anywhere u) :
    wp (do
      shortenCommand (chunkLength w.vars)
      whenever ((← state).vars.curCommand.length = 0#32) finish) (fun _ t => Tracked t) Anywhere
      w := by
  have counted := shortenCommand_keepsBus (chunkLength w.vars) w bus
  rw [wp_bind, shortenCommand, onVars, wp_modify, wp_bind, wp_state, wp_whenever]
  refine ⟨fun _ => finished _ counted, fun more => ⟨fun _ => ⟨c, accepted, going.shortened more⟩,
    fun idle => ?_⟩⟩
  exact absurd (going.task.symm.trans idle) (VueCommand.task_ne_idle going.defined)

theorem portEvents_accepted (by_ : Actor) (start : Board) (trace : List Board) :
    ∀ e ∈ portEvents by_ start trace, e.accepted = none := by
  intro e member
  obtain ⟨before, after, rfl⟩ := portEvents_kind by_ start trace e member
  rfl

theorem accessed_accepted (w : World) (func : AccessFunc) (length : BitVec 32) (a : Access) :
    acceptedCommand (w.accessed func length a).log = acceptedCommand w.log :=
  acceptedCommand_append (portEvents_accepted _ _ _) (.access func length :: w.log)

/-- An access and what is known of the world after it. -/
theorem bulkAccess_machine {c : VueCommand} {w : World} (bus : BusInvariant w)
    (going : InProgress c 0 w) :
    ∃ a, bulkAccess (chunkLength w.vars) w =
        .value () (w.accessed c.func (chunkLength w.vars) a) ∧
      BusInvariant (w.accessed c.func (chunkLength w.vars) a) ∧
      InProgress c (chunkLength w.vars).toNat (w.accessed c.func (chunkLength w.vars) a) := by
  obtain ⟨a, progress, run⟩ :=
    bulkAccess_eq (chunkLength_inside w.vars) bus.ready.resting going.func
  have kept := bulkAccess_keepsBus (chunkLength_inside w.vars) w bus
  rw [wp_of_value run] at kept
  exact ⟨a, run, kept, going.accessed progress⟩

theorem chunkLength_unmoved {s t : World} (unmoved : Unmoved s t) :
    chunkLength t.vars = chunkLength s.vars := by
  obtain ⟨_, _, _, _, vars⟩ := unmoved.vars
  rw [vars]
  rfl

theorem vueBulkWriteTask_tracked {s : World} (held : Machine s)
    (busy : s.vars.curVueState ≠ .idle) :
    wp vueBulkWriteTask (fun _ t => Tracked t) Anywhere s := by
  obtain ⟨c, accepted, going⟩ := held.tracked.progress busy
  rw [vueBulkWriteTask, wp_bind, wp_state, if_neg (by rw [going.phase]; decide), if_pos going.phase]
  have received := (receiveChunk_unmoved (chunkLength s.vars).toNat s).and
    (readStream_keepsBus storeBuffer (fun _ _ _ => rfl) (fun _ _ _ => ⟨rfl, rfl⟩)
      (chunkLength s.vars).toNat s held.bus)
  refine wp.bind (received.mono (fun _ _ ends => ends) fun _ _ => trivial)
    fun ok t received => ?_
  obtain ⟨unmoved, bus⟩ := received
  rw [wp_ite]
  refine ⟨fun _ => ?_, fun _ => held.tracked.unmoved unmoved held.bus.ready⟩
  obtain ⟨a, run, accessed, ahead⟩ := bulkAccess_machine bus (going.unmoved unmoved)
  rw [← chunkLength_unmoved unmoved, wp_bind, wp_of_value run]
  exact endChunk_tracked ahead ((accessed_accepted t _ _ a).trans (unmoved.accepted.trans accepted))
    accessed fun _ => finishWrite_tracked

theorem vueBulkReadTask_tracked {s : World} (held : Machine s)
    (busy : s.vars.curVueState ≠ .idle) :
    wp vueBulkReadTask (fun _ t => Tracked t) Anywhere s := by
  obtain ⟨c, accepted, going⟩ := held.tracked.progress busy
  rw [vueBulkReadTask, wp_bind, wp_state, if_neg (by rw [going.phase]; decide), if_pos going.phase]
  obtain ⟨a, run, accessed, ahead⟩ := bulkAccess_machine held.bus going
  rw [wp_bind, wp_of_value run]
  have sent := ((sendChunk_unmoved (chunkLength s.vars).toNat (s.accessed _ _ a)).and
    (writeStream_reset loadBuffer (chunkLength s.vars).toNat (s.accessed _ _ a))).and
      (writeStream_keepsBus loadBuffer (chunkLength s.vars).toNat _ accessed)
  refine wp.bind (sent.mono (fun _ _ ends => ends) fun _ _ => trivial)
    fun ok t sent => ?_
  obtain ⟨⟨unmoved, reset⟩, bus⟩ := sent
  have accepted := unmoved.accepted.trans ((accessed_accepted s _ _ a).trans accepted)
  have ahead := ahead.unmoved unmoved
  rw [wp_ite]
  refine ⟨fun _ => ?_, fun abandoned => ?_⟩
  · have same := chunkLength_unmoved unmoved
    rw [show chunkLength s.vars = chunkLength t.vars from same.symm] at ahead ⊢
    exact endChunk_tracked ahead accepted bus fun _ => finishRead_tracked
  · -- the address stays ahead until the reset block has run
    have set : t.vars.bulkReset ≠ 0#32 := reset.2 (by simpa using abandoned)
    have going : InProgress c 0 t :=
      ⟨ahead.defined, ahead.clamped, ahead.task, ahead.phase, ahead.command, ahead.positive,
        ahead.bounded, ahead.whole, ahead.func, fun clear => absurd clear set⟩
    exact ⟨fun _ => ⟨c, accepted, going⟩, fun idle =>
      absurd (going.task.symm.trans idle) (VueCommand.task_ne_idle going.defined)⟩

theorem begun_accepted (w : World) (c : VueCommand) :
    acceptedCommand (w.begun c).log = some c :=
  acceptedCommand_append (portEvents_accepted _ _ _) (.accept c :: w.log)

/-- A command that is taken up is in progress. -/
theorem begun_inProgress {w : World} (defined : w.vars.curCommand.defined = true)
    (clamped : w.vars.curCommand.Clamped) (positive : w.vars.curCommand.length ≠ 0#32) :
    InProgress w.vars.curCommand 0 (w.begun w.vars.curCommand) := by
  have none_ : w.vars.curCommand.moved (w.begun w.vars.curCommand) = 0 := Nat.sub_self _
  refine ⟨defined, clamped, rfl, rfl, rfl, ?_, le_refl _, ?_, rfl, fun _ => ?_⟩
  · exact Nat.pos_of_ne_zero fun zero => positive (BitVec.eq_of_toNat_eq zero)
  · rw [none_]
    exact Nat.dvd_zero 64
  · rw [none_]
    have range : w.vars.curCommand.func.step = 1 ∨ w.vars.curCommand.func.step = 2 := by
      cases w.vars.curCommand.func <;> simp [AccessFunc.step]
    rcases range with eq | eq <;> simp [VueCommand.words, rounds, eq, World.begun]

theorem judgeCommand_tracked {s : World} (idle : s.vars.curVueState = .idle)
    (released : noSelect s.board.flagLatch = true) :
    wp judgeCommand (fun _ t => Tracked t) Anywhere s := by
  have resting {t : World} (state : t.vars.curVueState = .idle)
      (board : t.board = s.board) : Tracked t :=
    ⟨fun busy => absurd state busy, fun _ => by rw [board]; exact released⟩
  rw [judgeCommand, wp_bind, onVars, wp_modify, wp_bind, wp_state, wp_ite, wp_ite]
  refine ⟨fun defined => ⟨fun _ => resting idle rfl, fun positive => ?_⟩, fun _ => ?_⟩
  · rw [wp_of_value (startCommand_eq defined)]
    have going := begun_inProgress defined (VueCommand.correct_clamped _) positive
    exact ⟨fun _ => ⟨_, begun_accepted _ _, going⟩, fun idle =>
      absurd (going.task.symm.trans idle) (VueCommand.task_ne_idle going.defined)⟩
  · rw [wp_bind, note, wp_modify]
    refine (refuseOut_framed _).mono (fun _ t framed => resting ?_ framed.board) fun _ _ => trivial
    rw [framed.vars]
    exact idle

theorem vueCommandTask_tracked {s : World} (held : Machine s) (idle : s.vars.curVueState = .idle) :
    wp vueCommandTask (fun _ t => Tracked t) Anywhere s := by
  rw [vueCommandTask, wp_bind, wp_state, wp_bind, note, wp_modify]
  have noted := note_keepsBus (e := .command s.vars.curCommand) trivial s held.bus
  refine wp.bind ((readStream_streamed storeCommand (fun _ _ _ => ⟨_, _, rfl⟩) 32 _).mono
    (fun _ _ streamed => streamed) fun _ _ => trivial) fun ok t streamed => ?_
  obtain ⟨_, _, _, _, _, vars⟩ := streamed.vars
  have idle : t.vars.curVueState = .idle := by
    rw [vars]
    exact idle
  have released : noSelect t.board.flagLatch = true := by
    rcases streamed.board noted.ready with same | read
    · rw [same]
      exact held.tracked.released ‹_›
    · rw [read]
      show noSelect (flagBits headerEnd) = true
      decide
  rw [wp_ite]
  exact ⟨fun _ => judgeCommand_tracked idle released, fun _ =>
    ⟨fun busy => absurd idle busy, fun _ => released⟩⟩

theorem machine_endpoints : EndpointsKeep Machine Anywhere := by
  refine .of_framed (fun e ok s held => ?_) machine_of_framed fun _ _ => trivial
  refine machine_of_tracked (note_keepsBus (by cases e <;> trivial)) held.bus ?_
  refine held.tracked.unmoved (t := { s with log := e :: s.log }) ?_ held.bus.ready
  have none_ : e.accepted = none := by
    cases e <;> first | rfl | exact nomatch ok
  exact ⟨⟨_, _, _, _, rfl⟩, acceptedCommand_cons none_ s.log, id, fun _ => .inl rfl⟩

theorem machine_tasks : TasksKeep Machine Machine Anywhere :=
  machine_endpoints.tasks_of_framed machine_of_framed (fun _ _ => trivial)
    (fun _ held _ idle => machine_of_tracked vueCommandTask_keepsBus held.bus
      (vueCommandTask_tracked held idle))
    (fun _ held _ write => machine_of_tracked vueBulkWriteTask_keepsBus held.bus
      (vueBulkWriteTask_tracked held (by rw [write]; exact nofun)))
    fun _ held _ read => machine_of_tracked vueBulkReadTask_keepsBus held.bus
      (vueBulkReadTask_tracked held (by rw [read]; exact nofun))

theorem vueTask_keepsMachine : Stays Machine Anywhere vueTask :=
  vueTask_stays machine_endpoints machine_tasks

/-! ## Runs -/

theorem usbUsbTask_keepsMachine : Stays Machine Anywhere usbUsbTask :=
  .of_moves usbUsbTask_served (fun _ _ served held => ⟨busInvariant_of_served served held.bus,
    held.tracked.unmoved (.of_served served) held.bus.ready⟩) fun _ _ => trivial

theorem resetBlock_keepsMachine : Stays Machine Anywhere resetBlock := fun s held =>
  machine_of_tracked resetBlock_keepsBus held.bus <|
    (resetBlock_spec held.bus.ready).mono (fun _ t ends => ⟨fun busy => absurd ends.1.idle busy,
      fun _ => by
        rw [ends.1.flags]
        decide⟩) fun _ _ => trivial

theorem Machine.offer {w : World} (held : Machine w) (i : Input) : Machine (w.offer i) :=
  ⟨⟨⟨⟨held.bus.ready.resting.low, held.bus.ready.resting.idle⟩, held.bus.ready.selects,
    held.bus.ready.header⟩, held.bus.bulk, held.bus.log⟩,
    ⟨fun busy => by
      obtain ⟨c, accepted, going⟩ := held.tracked.progress busy
      exact ⟨c, accepted, going.defined, going.clamped, going.task, going.phase, going.command,
        going.positive, going.bounded, going.whole, going.func, going.address⟩,
      held.tracked.released⟩⟩

theorem mainLoop_keepsMachine (inputs : List Input) : Stays Machine Anywhere (mainLoop inputs) :=
  mainLoop_stays inputs (fun i _ _ held => held.offer i)
    (mainIteration_stays usbUsbTask_keepsMachine vueTask_keepsMachine
      fun s held _ => resetBlock_keepsMachine s held)

theorem Started.machine {w : World} (started : Started w) : Machine w := by
  have bus := started.busInvariant
  obtain ⟨cartridge, lowLatch, flagLatch, pageLatch, serialString, rfl⟩ := started
  refine ⟨bus, fun busy => absurd rfl busy, fun _ => ?_⟩
  rw [World.started_board]
  show noSelect (flagBits allFlags) = true
  decide

theorem Reachable.machine {w : World} (reachable : Reachable w) : Machine w := by
  obtain ⟨start, inputs, started, run⟩ := reachable
  exact (mainLoop_keepsMachine inputs start started.machine).of_value run

/-- **The state machine.** Whenever `VUE_Task` returns with `bulk_reset` clear, the state
is idle, read or write. In the latter two the phase, the command, the access routine
and the remaining length fit the command that was accepted, and `bulk_address` holds
the flags of the target without the status flag, the word address reached, and no
other bits; when idle, no chip is selected. -/
theorem vueTask_machine {before polled w : World} (reachable : Reachable before) (i : Input)
    (served : usbUsbTask (before.offer i) = .value () polled)
    (returned : vueTask polled = .value () w) (clear : w.vars.bulkReset = 0#32) :
    (w.vars.curVueState = .idle ∨ w.vars.curVueState = .read ∨ w.vars.curVueState = .write) ∧
    (w.vars.curVueState ≠ .idle → ∃ c target, acceptedCommand w.log = some c ∧
      w.vars.curCmdPhase = 1#32 ∧
      w.vars.curCommand = { c with length := w.vars.curCommand.length } ∧
      c.accessMode ≤ 2#8 ∧ c.targetRegion ≤ 2#8 ∧
      FsmState.ofRaw (c.operation + 1#32) = w.vars.curVueState ∧
      w.vars.bulkAccessFunc = some (if w.vars.curVueState = .read then readFunc c.accessMode
        else writeFunc c.accessMode) ∧
      0 < w.vars.curCommand.length.toNat ∧ w.vars.curCommand.length.toNat ≤ c.length.toNat ∧
      64 ∣ c.length.toNat - w.vars.curCommand.length.toNat ∧
      targetSelectMap[c.targetRegion.toNat]? = some target ∧
      w.vars.bulkAddress = (target &&& ~~~vueCartReaderNStatus) |||
        (((c.address &&& 0xFFFFFF#32) >>> 1).setWidth 23 + BitVec.ofNat 23
          (if c.accessMode = 0#8 then (c.length.toNat - w.vars.curCommand.length.toNat) / 2
            else c.length.toNat - w.vars.curCommand.length.toNat)).setWidth 32) ∧
    (w.vars.curVueState = .idle → noSelect w.board.flagLatch = true) := by
  have polledOk := (usbUsbTask_keepsMachine _ (reachable.machine.offer i)).of_value served
  have held : Machine w := (vueTask_keepsMachine polled polledOk).of_value returned
  refine ⟨?_, fun busy => ?_, held.tracked.released⟩
  · by_cases idle : w.vars.curVueState = .idle
    · exact .inl idle
    · obtain ⟨c, -, going⟩ := held.tracked.progress idle
      rw [going.task]
      exact .inr ((VueCommand.task_cases going.defined).imp And.left And.left)
  · obtain ⟨c, accepted, going⟩ := held.tracked.progress busy
    obtain ⟨mode, region, -⟩ := VueCommand.defined_iff.mp going.defined
    refine ⟨c, c.target, accepted, going.phase, going.command, mode, region, going.task.symm, ?_,
      going.positive, going.bounded, going.whole, VueCommand.target_mem going.defined, ?_⟩
    · rw [going.func, going.task]
      rcases VueCommand.task_cases going.defined with ⟨task, func⟩ | ⟨task, func⟩
      · rw [task, func, if_pos rfl]
      · rw [task, func, if_neg nofun]
    · have words :
          c.words (c.moved w) = if c.accessMode = 0#8 then c.moved w / 2 else c.moved w := by
        have whole := going.whole
        rw [VueCommand.words, rounds, VueCommand.step_eq going.defined]
        split <;> omega
      rw [going.address clear, Nat.add_zero, words, VueCommand.start_iterate going.defined
        going.clamped, VueCommand.Clamped.mask going.clamped]
      rfl

/-- The device has been sent a command to write 66 bytes. -/
theorem vueTask_machine_write :
    ∃ polled w, vueTask polled = .value () w ∧ w.vars.curVueState = .write ∧
      (w.vars.curVueState ≠ .idle → ∃ c target, acceptedCommand w.log = some c ∧
        targetSelectMap[c.targetRegion.toNat]? = some target ∧ w.vars.curCmdPhase = 1#32) := by
  let i := packetInput ⟨commandBytes 0#8 0#8 1#8 0#32 66#32, by decide⟩ 37
  let polled := (usbUsbTask (configuredWorld.offer i)).state
  have served : usbUsbTask (configuredWorld.offer i) = .value () polled :=
    Exit.eq_value (by decide +kernel)
  have returned : vueTask polled = .value () (vueTask polled).state :=
    Exit.eq_value (by decide +kernel)
  have machine := vueTask_machine configuredWorld_reachable i served returned (by decide +kernel)
  refine ⟨polled, _, returned, by decide +kernel, fun busy => ?_⟩
  obtain ⟨c, target, accepted, phase, -, -, -, -, -, -, -, -, known, -⟩ := machine.2.1 busy
  exact ⟨c, target, accepted, known, phase⟩

end VueCartReader
