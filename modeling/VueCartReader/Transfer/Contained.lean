import VueCartReader.Board.Memory
import VueCartReader.Board.Steering
import VueCartReader.Transfer.Delivery

/-!
# A transfer keeps to its words

Control requests, failures, resets and configurations may come at any moment of a transfer; some of
them move the latches or leave the variables of a transfer as they were. Still no cycle of a task
finds a chip selected anywhere but at the next word of the command that was accepted last
(`mainLoop_contained`).

`World.Steered` carries this through the main loop. The running address counts the cycles of the
command, and the latches are good for it or select no chip. Both hold at all times, a pending reset
and an idle firmware included.
-/

set_option autoImplicit false

namespace VueCartReader

open Program

/-- The flags select no chip. -/
abbrev Unselected (flags : Byte) : Prop := noSelect flags = true

/-- A cycle of a task belongs to the command accepted last: no chip is selected, or it is at the
next word. -/
def Contained (e : Event) (past : List Event) : Prop :=
  ∀ y, e.cycle = some y → ∃ c, acceptedCommand past = some c ∧
    y.Steered Unselected c.start (cyclesOf (sinceAccept past)).length

structure World.Steered (w : World) : Prop where
  board : w.board.Steered Unselected w.vars.bulkAddress
  running : ∀ c, acceptedCommand w.log = some c →
    w.vars.bulkAddress = vueIncAddress^[(cyclesOf (sinceAccept w.log)).length] c.start
  history : History Contained w.log

/-! ## Code that leaves a transfer alone -/

/-- Events by which no command is accepted and no cycle of a task ends. -/
def Event.Inert (e : Event) : Prop := e.accepted = none ∧ e.cycle = none

theorem Event.Inert.contained {e : Event} (silent : e.Inert) (past : List Event) :
    Contained e past := by
  intro y found
  rw [silent.2] at found
  cases found

theorem Event.Plain.silent {e : Event} (plain : e.Plain) : e.Inert :=
  ⟨plain.accepted, plain.cycle⟩

theorem silent_of_stream {e : Event} (ok : e.ofStream = true) : e.Inert :=
  ⟨accepted_of_stream ok, cycle_of_stream ok⟩

theorem History.silent {log : List Event} (held : History Contained log) (new : List Event)
    (silent : ∀ e ∈ new, e.Inert) : History Contained (new ++ log) :=
  held.append_of_forall fun e member past => (silent e member).contained past

theorem World.Steered.extended {s t : World} (held : s.Steered)
    (board : t.board.Steered Unselected s.vars.bulkAddress)
    (address : t.vars.bulkAddress = s.vars.bulkAddress) (new : List Event)
    (log : t.log = new ++ s.log) (silent : ∀ e ∈ new, e.Inert) : t.Steered where
  board := by
    rw [address]
    exact board
  running c accepted := by
    have none_ : ∀ e ∈ new, e.accepted = none := fun e member => (silent e member).1
    rw [log, acceptedCommand_append none_] at accepted
    rw [log, sinceAccept_append none_, cyclesOf, occurrences_append,
      occurrences_eq_nil _ fun e member => (silent e member).2, List.append_nil, address]
    exact held.running c accepted
  history := by
    rw [log]
    exact held.history.silent new silent

/-- After the header has been read no chip is selected. -/
theorem World.Steered.streamed {s t : World} (held : s.Steered) (ready : s.BusReady)
    (streamed : Streamed s t) : t.Steered := by
  obtain ⟨new, log, all, -⟩ := streamed.log
  obtain ⟨_, _, _, _, _, vars⟩ := streamed.vars
  refine held.extended ?_ (by rw [vars]) new log fun e member => silent_of_stream (all e member)
  rcases streamed.board ready with same | read
  · rw [same]
    exact held.board
  · rw [read]
    exact .inl (by
      show noSelect (flagBits headerEnd) = true
      decide)

theorem World.Steered.framed {s t : World} (held : s.Steered) (framed : Framed OfUsb s t) :
    t.Steered := by
  obtain ⟨new, log, all⟩ := framed.log
  refine held.extended ?_ (by rw [framed.vars]) new log fun e member => ?_
  · rw [framed.board]
    exact held.board
  · have ok := all e member
    exact silent_of_stream (by cases e <;> first | exact ok | cases ok)

/-- The latches are loaded with an address that selects no chip. -/
theorem World.Steered.released {s t : World} (held : s.Steered)
    (board : noSelect t.board.flagLatch = true) (address : t.vars.bulkAddress = s.vars.bulkAddress)
    (new : List Event) (log : t.log = new ++ s.log) (silent : ∀ e ∈ new, e.Inert) : t.Steered :=
  held.extended (.inl board) address new log silent

/-! ## A chunk on the bus -/

theorem accessed_steered {w : World} {c : VueCommand} {func : AccessFunc} {length : BitVec 32}
    {a : Access} (held : w.Steered) (accepted : acceptedCommand w.log = some c)
    (call : SteeredCall Unselected ⟨w.board, []⟩ w.vars.bulkAddress a) :
    (w.accessed func length a).Steered := by
  obtain ⟨cs, ⟨trace, settled, -, cycles, -⟩, address, each⟩ := call.cycles
  have seen : a.rig.seen = trace := settled.seen
  have all : cyclesOf (portEvents .task w.board a.rig.seen) = cs := by
    rw [cyclesOf, portEvents_cycles, seen]
    exact cycles
  have running := held.running c accepted
  have called : History Contained (.access func length :: w.log) :=
    held.history.silent [.access func length] fun e member => by
      rw [List.mem_singleton.mp member]
      exact ⟨rfl, rfl⟩
  refine ⟨call.steered, fun d found => ?_, called.append fun later e earlier split y found => ?_⟩
  · rw [accessed_accepted, accepted] at found
    obtain rfl : c = d := Option.some.inj found
    show a.address = _
    have count : (cyclesOf (sinceAccept (w.accessed func length a).log)).length =
        cs.length + (cyclesOf (sinceAccept w.log)).length := by
      rw [accessed_since, cyclesOf, occurrences_append, occurrences_cons, List.length_append,
        List.length_append, ← all, Nat.add_comm]
      rfl
    rw [count, address, running, ← Function.iterate_add_apply]
  · have here := occurrences_getElem split found
    rw [show occurrences Event.cycle (portEvents .task w.board a.rig.seen) = cs from all] at here
    have none_ := portEvents_accepted_split split
    refine ⟨c, ?_, ?_⟩
    · rw [acceptedCommand_append none_, acceptedCommand_cons rfl]
      exact accepted
    · have count : (cyclesOf (sinceAccept (earlier ++ .access func length :: w.log))).length =
          (cyclesOf (sinceAccept w.log)).length + (occurrences Event.cycle earlier).length := by
        rw [sinceAccept_append none_, sinceAccept_cons rfl, cyclesOf, occurrences_append,
          occurrences_cons, List.length_append, List.length_append]
        rfl
      rw [count]
      refine (each _ y here).imp id fun place => ?_
      rw [running, flagBits_iterate, wordAddress_iterate, BitVec.add_assoc, ← BitVec.ofNat_add]
        at place
      exact place

/-- A call of the chosen routine keeps to the words of its command. -/
theorem bulkAccess_steered {w : World} {c : VueCommand} {func : AccessFunc} {length : BitVec 32}
    (bus : BusInvariant w) (held : w.Steered) (accepted : acceptedCommand w.log = some c)
    (chosen : w.vars.bulkAccessFunc = some func) (inside : (length.setWidth 8).toNat ≤ 64) :
    ∃ a, bulkAccess length w = .value () (w.accessed func length a) ∧
      (w.accessed func length a).Steered := by
  obtain ⟨a, called, -⟩ := func.call_spec inside ⟨w.board, []⟩ bus.ready.resting.low
    bus.ready.resting.idle w.vars.bulkAddress w.vars.bulkBuffer
  refine ⟨a, ?_, accessed_steered held accepted
    (AccessFunc.call_steered called bus.ready.resting.low bus.ready.resting.idle held.board)⟩
  simp only [bulkAccess, state_bind, chosen, note, modify_bind, called, Program.modify,
    World.accessed]

/-! ## The tasks -/

/-- What is known of a run wherever it is cut. -/
abbrev AllContained (w : World) : Prop := History Contained w.log

theorem deselect_steered {w : World} (bus : BusInvariant w) (held : w.Steered) :
    wp deselect (fun _ t => t.Steered) AllContained w := by
  have board := (vueWriteAddressFull_run bus.ready.resting bus.ready.selects
    (oneSelect_of_noSelect (flagBits_or_mask w.vars.bulkAddress))).2
  have silent := vueWriteAddressFull_cycles bus.ready.resting (w.vars.bulkAddress ||| vueFlagMask)
  rw [wp_of_value (deselect_eq w)]
  generalize vueWriteAddressFull (w.vars.bulkAddress ||| vueFlagMask) ⟨w.board, []⟩ = r
    at board silent ⊢
  have plain := portEvents_plain silent
  refine held.released ?_ rfl (portEvents .task w.board r.seen ++ [.finish])
    (List.append_assoc _ [_] _).symm fun e member => ?_
  · show noSelect r.board.flagLatch = true
    rw [board]
    exact flagBits_or_mask _
  · rcases List.mem_append.mp member with port | finish
    · exact (plain e port).silent
    · rw [List.mem_singleton.mp finish]
      exact ⟨rfl, rfl⟩

theorem enterIdle_steered {w : World} (held : w.Steered) :
    wp enterIdle (fun _ t => t.Steered) AllContained w :=
  held.extended held.board rfl [] rfl fun _ member => by cases member

theorem finishWrite_steered {w : World} (bus : BusInvariant w) (held : w.Steered) :
    wp finishWrite (fun _ t => t.Steered) AllContained w :=
  (deselect_steered bus held).bind fun _ _ held => enterIdle_steered held

theorem finishRead_steered {w : World} (bus : BusInvariant w) (held : w.Steered) :
    wp finishRead (fun _ t => t.Steered) AllContained w :=
  (deselect_steered bus held).bind fun _ t held =>
    wp.bind ((taskClearIn_framed t).mono (fun _ _ framed => held.framed framed)
      fun _ framed => (held.framed framed).history) fun _ _ held => enterIdle_steered held

theorem endChunk_steered {finish : Fw Unit} {w : World} (length : BitVec 32) (bus : BusInvariant w)
    (held : w.Steered)
    (finished : ∀ u, BusInvariant u → u.Steered → wp finish (fun _ t => t.Steered) AllContained u) :
    wp (do
      shortenCommand length
      whenever ((← state).vars.curCommand.length = 0#32) finish) (fun _ t => t.Steered) AllContained
      w := by
  have counted := shortenCommand_keepsBus length w bus
  have still : (w.shortened length).Steered :=
    held.extended held.board rfl [] rfl fun _ member => by cases member
  rw [wp_bind, shortenCommand, onVars, wp_modify, wp_bind, wp_state, wp_whenever]
  exact ⟨fun _ => finished _ counted still, fun _ => still⟩

theorem vueBulkWriteTask_steered {s : World} (machine : Machine s) (held : s.Steered)
    (busy : s.vars.curVueState ≠ .idle) :
    wp vueBulkWriteTask (fun _ t => t.Steered) AllContained s := by
  obtain ⟨c, accepted, going⟩ := machine.tracked.progress busy
  rw [vueBulkWriteTask, wp_bind, wp_state, if_neg (by rw [going.phase]; decide), if_pos going.phase]
  have received := ((receiveChunk_unmoved (chunkLength s.vars).toNat s).and
    (readStream_streamed storeBuffer (fun _ _ _ => ⟨_, _, rfl⟩) (chunkLength s.vars).toNat s)).and
      (readStream_keepsBus storeBuffer (fun _ _ _ => rfl) (fun _ _ _ => ⟨rfl, rfl⟩)
        (chunkLength s.vars).toNat s machine.bus)
  refine wp.bind (received.mono (fun _ _ ends => ends) fun _ cut =>
    (held.streamed machine.bus.ready cut.1.2).history) fun ok t received => ?_
  obtain ⟨⟨unmoved, streamed⟩, bus⟩ := received
  have held := held.streamed machine.bus.ready streamed
  rw [wp_ite]
  refine ⟨fun _ => ?_, fun _ => held⟩
  obtain ⟨a, run, steered⟩ := bulkAccess_steered bus held (unmoved.accepted.trans accepted)
    (going.unmoved unmoved).func (chunkLength_inside s.vars)
  have kept := bulkAccess_keepsBus (chunkLength_inside s.vars) t bus
  rw [wp_of_value run] at kept
  rw [wp_bind, wp_of_value run]
  exact endChunk_steered _ kept steered fun _ => finishWrite_steered

theorem vueBulkReadTask_steered {s : World} (machine : Machine s) (held : s.Steered)
    (busy : s.vars.curVueState ≠ .idle) :
    wp vueBulkReadTask (fun _ t => t.Steered) AllContained s := by
  obtain ⟨c, accepted, going⟩ := machine.tracked.progress busy
  rw [vueBulkReadTask, wp_bind, wp_state, if_neg (by rw [going.phase]; decide), if_pos going.phase]
  obtain ⟨a, run, held⟩ := bulkAccess_steered machine.bus held accepted going.func
    (chunkLength_inside s.vars)
  have bus := bulkAccess_keepsBus (chunkLength_inside s.vars) s machine.bus
  rw [wp_of_value run] at bus
  rw [wp_bind, wp_of_value run]
  have sent := (writeStream_streamed loadBuffer (chunkLength s.vars).toNat (s.accessed _ _ a)).and
    (writeStream_keepsBus loadBuffer (chunkLength s.vars).toNat _ bus)
  refine wp.bind (sent.mono (fun _ _ ends => ends) fun _ cut =>
    (held.streamed bus.ready cut.1).history) fun ok t sent => ?_
  have held := held.streamed bus.ready sent.1
  rw [wp_ite]
  exact ⟨fun _ => endChunk_steered _ sent.2 held fun _ => finishRead_steered, fun _ => held⟩

/-- A command that is taken up begins at its first word. -/
theorem begun_steered {s : World} (c : VueCommand) (ready : s.BusReady)
    (held : History Contained s.log) : (s.begun c).Steered := by
  have silent := vueWriteAddressFull_cycles ready.resting c.start
  have board : (s.begun c).board = s.board.addressed c.start :=
    (vueWriteAddressFull_spec (r := ⟨s.board, []⟩) ready.resting.low c.start).choose_spec.2.1
  have log : (s.begun c).log =
      portEvents .task s.board (vueWriteAddressFull c.start ⟨s.board, []⟩).seen ++
        .accept c :: s.log := rfl
  have plain := portEvents_plain silent
  generalize portEvents .task s.board (vueWriteAddressFull c.start ⟨s.board, []⟩).seen = ports
    at silent log plain
  refine ⟨?_, fun d found => ?_, ?_⟩
  · rw [board]
    exact .inr (.inr (Board.addressed_holdsHigh _ _))
  · rw [begun_accepted] at found
    obtain rfl : c = d := Option.some.inj found
    rw [log, sinceAccept_accept (fun e member => (plain e member).accepted),
      show cyclesOf ports = [] from silent]
    rfl
  · have accepted : Contained (.accept c) s.log := by
      intro y found
      cases found
    have begun : History Contained (.accept c :: s.log) := ⟨accepted, held⟩
    rw [log]
    exact begun.silent ports fun e member => (plain e member).silent

theorem judgeCommand_steered {s : World} (ready : s.BusReady) (held : s.Steered) :
    wp judgeCommand (fun _ t => t.Steered) AllContained s := by
  have noted (e : Event) (silent : e.Inert) : World.Steered { s with
      vars := { s.vars with curCommand := s.vars.curCommand.correct }, log := e :: s.log } :=
    held.extended held.board rfl [e] rfl fun f member => by
      rwa [List.mem_singleton.mp member]
  rw [judgeCommand, wp_bind, onVars, wp_modify, wp_bind, wp_state, wp_ite, wp_ite]
  refine ⟨fun defined => ⟨fun _ => ?_, fun _ => ?_⟩, fun _ => ?_⟩
  · exact noted (.ignore s.vars.curCommand.correct) ⟨rfl, rfl⟩
  · rw [wp_of_value (startCommand_eq defined)]
    exact begun_steered _ ⟨ready.resting, ready.selects, ready.header⟩ held.history
  · rw [wp_bind, note, wp_modify]
    have held := noted (.reject s.vars.curCommand.correct) ⟨rfl, rfl⟩
    exact (refuseOut_framed _).mono (fun _ t framed => held.framed framed)
      fun _ framed => (held.framed framed).history

theorem vueCommandTask_steered {s : World} (machine : Machine s) (held : s.Steered) :
    wp vueCommandTask (fun _ t => t.Steered) AllContained s := by
  rw [vueCommandTask, wp_bind, wp_state, wp_bind, note, wp_modify]
  have entered : World.Steered { s with log := .command s.vars.curCommand :: s.log } :=
    held.extended held.board rfl [.command s.vars.curCommand] rfl fun e member => by
      rw [List.mem_singleton.mp member]
      exact ⟨rfl, rfl⟩
  have ready : World.BusReady { s with log := .command s.vars.curCommand :: s.log } :=
    ⟨machine.bus.ready.resting, machine.bus.ready.selects, machine.bus.ready.header⟩
  refine wp.bind ((readStream_streamed storeCommand (fun _ _ _ => ⟨_, _, rfl⟩) 32 _).mono
    (fun _ _ streamed => streamed) fun _ cut => (entered.streamed ready cut).history)
    fun ok t streamed => ?_
  have held := entered.streamed ready streamed
  rw [wp_ite]
  exact ⟨fun _ => judgeCommand_steered (streamed.ready ready) held, fun _ => held⟩

/-! ## Runs -/

/-- The state machine, with its latches and its running address. -/
structure SteeredMachine (w : World) : Prop where
  machine : Machine w
  steered : w.Steered

theorem SteeredMachine.framed (s t : World) (framed : Framed OfUsb s t) (held : SteeredMachine s) :
    SteeredMachine t :=
  ⟨machine_of_framed s t framed held.machine, held.steered.framed framed⟩

theorem steered_endpoints : EndpointsKeep SteeredMachine AllContained := by
  refine .of_framed (fun e ok s held => ?_) SteeredMachine.framed fun _ held => held.steered.history
  have machine := machine_endpoints.note e ok s held.machine
  refine ⟨machine, held.steered.extended held.steered.board rfl [e] rfl fun f member => ?_⟩
  rw [List.mem_singleton.mp member]
  cases e <;> first | exact ⟨rfl, rfl⟩ | cases ok

theorem steered_tasks : TasksKeep SteeredMachine SteeredMachine AllContained := by
  have both {m : Fw Unit} {s : World} (machine : wp m (fun _ t => Machine t) Anywhere s)
      (steered : wp m (fun _ t => t.Steered) AllContained s) :
      wp m (fun _ t => SteeredMachine t) AllContained s :=
    (machine.and steered).mono (fun _ _ ends => ⟨ends.1, ends.2⟩) fun _ cut => cut.2
  refine steered_endpoints.tasks_of_framed SteeredMachine.framed
    (fun _ held => held.steered.history)
    (fun s held clear idle => ?_) (fun s held clear writing => ?_) fun s held clear reading => ?_
  · exact both (machine_of_tracked vueCommandTask_keepsBus held.machine.bus
      (vueCommandTask_tracked held.machine idle)) (vueCommandTask_steered held.machine held.steered)
  · have busy : s.vars.curVueState ≠ .idle := by
      rw [writing]
      decide
    exact both (machine_of_tracked vueBulkWriteTask_keepsBus held.machine.bus
      (vueBulkWriteTask_tracked held.machine busy))
      (vueBulkWriteTask_steered held.machine held.steered busy)
  · have busy : s.vars.curVueState ≠ .idle := by
      rw [reading]
      decide
    exact both (machine_of_tracked vueBulkReadTask_keepsBus held.machine.bus
      (vueBulkReadTask_tracked held.machine busy))
      (vueBulkReadTask_steered held.machine held.steered busy)

theorem resetBlock_steered {s : World} (machine : Machine s) (held : s.Steered) :
    wp resetBlock (fun _ t => t.Steered) AllContained s := by
  have noted {e : Event} (silent : e.Inert) : Stays World.Steered AllContained (note e) :=
    .modify fun w held => held.extended held.board rfl [e] rfl fun f member => by
      rwa [List.mem_singleton.mp member]
  have framed {m : Fw Unit} (framed : Moves (Framed OfUsb) m) :
      Stays World.Steered AllContained m :=
    .of_moves framed (fun _ _ framed held => held.framed framed) fun _ held => held.history
  have vars {f : Vars → Vars} (same : ∀ v, (f v).bulkAddress = v.bulkAddress) :
      Stays World.Steered AllContained (onVars f) :=
    .modify fun w held => held.extended held.board (same w.vars) [] rfl fun _ member => by
      cases member
  have reset (address : Nat) := framed (endpointResetEndpoint_framed .main address)
  have clear (address : Nat) := framed (clearEndpointStall_framed address)
  have written : wp (onBus .main writeDefaultState) (fun _ t => t.Steered) AllContained
      { s with log := .resetBegin :: s.log } := by
    have board := (writeDefaultState_run machine.bus.ready.resting machine.bus.ready.selects).2
    rw [onBus, wp_modify]
    generalize writeDefaultState ⟨s.board, []⟩ = r at board ⊢
    refine held.released ?_ rfl (portEvents .main s.board r.seen ++ [.resetBegin])
      (List.append_assoc _ [_] _).symm fun e member => ?_
    · show noSelect r.board.flagLatch = true
      rw [board]
      show noSelect (flagBits allFlags) = true
      decide
    · rcases List.mem_append.mp member with port | begun
      · obtain ⟨_, _, rfl⟩ := portEvents_kind _ _ _ e port
        exact ⟨rfl, rfl⟩
      · rw [List.mem_singleton.mp begun]
        exact ⟨rfl, rfl⟩
  have last : Stays World.Steered AllContained (do
      onVars fun v => { v with bulkReset := 0#32 }
      note .resetEnd) := .bind (vars fun _ => rfl) fun _ => noted ⟨rfl, rfl⟩
  rw [resetBlock, note, wp_bind, wp_modify]
  refine wp.bind (written.bind fun _ t held => ?_) fun _ t held => last t held
  have rest : Stays World.Steered AllContained (do
      enterIdle
      endpointResetEndpoint .main vueCartReaderOutEpAddr
      note .outReset
      endpointResetEndpoint .main vueCartReaderInEpAddr
      clearEndpointStall vueCartReaderOutEpAddr
      clearEndpointStall vueCartReaderInEpAddr
      endpointAbortPendingIn) :=
    .bind (vars fun _ => rfl) fun _ => .bind (reset _) fun _ => .bind (noted ⟨rfl, rfl⟩) fun _ =>
      .bind (reset _) fun _ => .bind (clear _) fun _ => .bind (clear _) fun _ =>
        framed endpointAbortPendingIn_framed
  exact rest t held

theorem mainLoop_steered (inputs : List Input) :
    Stays SteeredMachine AllContained (mainLoop inputs) := by
  refine mainLoop_stays inputs (fun i _ s held => ⟨held.machine.offer i, held.steered.extended
    held.steered.board rfl [] rfl fun _ member => by cases member⟩) ?_
  refine mainIteration_stays (fun s held => ?_) (vueTask_stays steered_endpoints steered_tasks)
    fun s held _ => ?_
  · exact ((usbUsbTask_keepsMachine s held.machine).and (usbUsbTask_served s)).mono
      (fun _ t ends => ⟨ends.1, held.steered.streamed held.machine.bus.ready (.of_served ends.2)⟩)
      fun _ cut => (held.steered.streamed held.machine.bus.ready (.of_served cut.2)).history
  · exact ((resetBlock_keepsMachine s held.machine).and
      (resetBlock_steered held.machine held.steered)).mono (fun _ _ ends => ⟨ends.1, ends.2⟩)
        fun _ cut => cut.2

theorem Started.steered {w : World} (started : Started w) : SteeredMachine w := by
  have machine := started.machine
  obtain ⟨_, _, _, _, _, rfl⟩ := started
  exact ⟨machine, .inl (machine.tracked.released rfl), fun _ found => (by cases found), trivial⟩

/-- A command that was accepted is a defined one. -/
theorem accepted_defined {plug : Option Plug} {log : List Event} {c : VueCommand}
    (accounted : History (Account plug) log) (found : acceptedCommand log = some c) :
    c.defined = true := by
  obtain ⟨past, eq⟩ := accepted_split found
  have whole := since_append_before log
  rw [eq] at whole
  exact (((accounted.split whole.symm).judged c rfl).2.1.mp rfl).1

/-- A routine writes to the cartridge unless it reads from it. -/
theorem AccessFunc.drive_read (f : AccessFunc) (data : List Byte) (k : Nat) :
    (f.drive data k).read = f.reads ∧ (f.drive data k).writes = !f.reads := by
  cases f <;> exact ⟨rfl, rfl⟩

/-- A cycle is the next one of a command of which there have been so many. -/
structure CycleOf (c : VueCommand) (n : Nat) (y : BusCycle) : Prop where
  defined : c.defined = true
  inside : n < c.words c.length.toNat
  reads : y.drive.read = true ↔ c.task = .read
  writes : y.drive.writes = true ↔ c.task = .write
  place : y.Steered Unselected c.start n

theorem mainLoop_belongs {start : World} (started : Started start) (inputs : List Input)
    {later past : List Event} {e : Event} {y : BusCycle}
    (log : (mainLoop inputs start).state.log = later ++ e :: past) (cycle : e.cycle = some y) :
    ∃ c, acceptedCommand past = some c ∧ CycleOf c (cyclesOf (sinceAccept past)).length y := by
  have accounted := (mainLoop_keepsLedger none inputs fun _ _ _ found => nomatch found).exit
    (fun _ held => held.books.history) started.ledger
  have contained := (mainLoop_steered inputs).exit (fun _ held => held.steered.history)
    started.steered
  obtain ⟨c, accepted, next⟩ := (accounted.split log).cycle y cycle
  obtain ⟨d, same, place⟩ := contained.split log y cycle
  obtain rfl : c = d := Option.some.inj (accepted.symm.trans same)
  rw [Accounted, log] at accounted
  have defined := accepted_defined accounted.suffix.2 accepted
  obtain ⟨data, k, drive⟩ := next.lanes
  obtain ⟨read, writes⟩ := c.func.drive_read data k
  refine ⟨c, accepted, defined, next.inside, ?_, ?_, place⟩
  · rw [drive, read]
    exact VueCommand.reads_iff defined
  · rw [drive, writes, Bool.not_eq_true']
    rcases VueCommand.task_cases defined with ⟨task, func⟩ | ⟨task, func⟩
    · rw [func, VueCommand.readFunc_reads, task]
      decide
    · rw [func, VueCommand.writeFunc_reads, task]
      decide

/-- **A transfer keeps to its words.** In every run, whatever the host asks for and whatever fails,
a cycle of a task is the next one of the command that was accepted last, and there are never more
than the command has words. It reads or writes as the command says. Either it finds no chip
selected, or the latches hold the flags of the target and the next word. -/
theorem mainLoop_contained {start : World} (started : Started start) (inputs : List Input)
    {later past : List Event} {e : Event} {y : BusCycle}
    (log : (mainLoop inputs start).state.log = later ++ e :: past) (cycle : e.cycle = some y) :
    ∃ c, acceptedCommand past = some c ∧ c.defined = true ∧
      (cyclesOf (sinceAccept past)).length < c.words c.length.toNat ∧
      (y.drive.read = true ↔ c.task = .read) ∧ (y.drive.writes = true ↔ c.task = .write) ∧
      (noSelect y.flags = true ∨ y.flags = flagBits c.start ∧
        y.address = wordAddress c.start + BitVec.ofNat 23
          (cyclesOf (sinceAccept past)).length) := by
  obtain ⟨c, accepted, belongs⟩ := mainLoop_belongs started inputs log cycle
  exact ⟨c, accepted, belongs.defined, belongs.inside, belongs.reads, belongs.writes, belongs.place⟩

/-- The word of `wordInputs`, with the header read in the middle of it: its only strobe finds no
chip selected. -/
theorem mainLoop_contained_header :
    ∃ c, acceptedCommand ((wordEnd (some readHeaderTransfer)).log.drop 22) = some c ∧
      (cyclesOf (sinceAccept ((wordEnd (some readHeaderTransfer)).log.drop 22))).length <
        c.words c.length.toNat ∧ noSelect 0x17#8 = true := by
  have header : TransferStrobe wordStart (wordInputs (some readHeaderTransfer)) wordCommand 0
      ((wordEnd (some readHeaderTransfer)).log.drop 22)
      ⟨0x17#8, 0x7F8001#23, ⟨false, .driven 1#8, .driven 2#8⟩⟩ :=
    wordEnd_strobe (by decide +kernel) (by decide +kernel) (by decide +kernel)
  obtain ⟨later, e, log, cycle⟩ := header.logged
  obtain ⟨c, accepted, -, inside, -, -, place⟩ := mainLoop_contained wordStart_started _ log cycle
  refine ⟨c, accepted, inside, place.resolve_right fun there => ?_⟩
  obtain rfl : wordCommand = c := Option.some.inj (header.command.symm.trans accepted)
  exact absurd there.1 (by decide +kernel)

end VueCartReader
