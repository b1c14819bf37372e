import VueCartReader.Device.Loop
import VueCartReader.Device.Requests

/-!
# A rule for the whole firmware

What `USB_USBTask` and every part of the tasks carry over, whatever the part is called for, is
carried over by the main loop (`RoundPartsKeep.mainLoop`). The parts are the records of the tasks,
their accesses to the bus and to the variables, and the operations on the banks. For what any access
to the board and any part of a control transfer carries over there is `FirmwareKeeps.mainLoop`.

The rule is for relations that do not depend on the control flow, such as those between a bank
and what the log says of it.
-/

set_option autoImplicit false

namespace VueCartReader

open Program

/-- What the tasks and the reset block record, apart from their accesses to the bus and to the
banks. -/
def Event.ofFirmware : Event → Bool
  | .refuse | .operate _ _ | .stream _ | .abandon _ | .inReady _ | .outReceived _ | .command _
  | .accept _ | .ignore _ | .reject _ | .finish | .access _ _ | .undefined | .resetBegin
  | .outReset | .resetEnd => true
  | _ => false

/-- Only the board and the variables change, and only port accesses are recorded. -/
def OnBoard (f : World → World) : Prop :=
  ∀ w, ∃ board vars by_ start trace,
    f w = { w with board := board, vars := vars, log := portEvents by_ start trace ++ w.log }

/-- Code of the bus routines changes the board by its port accesses. -/
theorem onBoard_bus (by_ : Actor) (f : Rig → Rig) : OnBoard fun w =>
    { w with
      board := (f ⟨w.board, []⟩).board
      log := portEvents by_ w.board (f ⟨w.board, []⟩).seen ++ w.log } :=
  fun w => ⟨_, w.vars, _, _, _, rfl⟩

theorem onBoard_vars (f : Vars → Vars) : OnBoard fun w => { w with vars := f w.vars } :=
  fun w => ⟨w.board, _, .task, w.board, [], rfl⟩

/-- A bulk access is recorded, and is a call of the chosen routine if there is one that returns. -/
theorem bulkAccess_moves {R : World → World → Prop} [IsPreorder World R]
    (mark : ∀ e : Event, e.ofFirmware = true → Moves R (note e))
    (call : ∀ (w : World) (func : AccessFunc) (length : BitVec 8) (a : Access),
      func.call length ⟨w.board, []⟩ w.vars.bulkAddress w.vars.bulkBuffer = some a →
      R w
        { w with
          board := a.rig.board
          vars := { w.vars with bulkAddress := a.address, bulkBuffer := a.buffer }
          log := portEvents .task w.board a.rig.seen ++ w.log })
    (length : BitVec 32) : Moves R (bulkAccess length) := by
  have undefined {α : Type} : Moves R (undefinedBehaviour : Fw α) :=
    (mark _ rfl).bind fun _ => .stop
  intro w
  cases chosen : w.vars.bulkAccessFunc with
  | none =>
      simp only [bulkAccess, wp_bind, wp_state, chosen]
      exact undefined w
  | some func =>
      have noted : R w { w with log := .access func length :: w.log } := mark _ rfl w
      simp only [bulkAccess, wp_bind, wp_state, chosen, note, wp_modify]
      cases called : func.call (length.setWidth 8) ⟨w.board, []⟩ w.vars.bulkAddress
          w.vars.bulkBuffer with
      | none =>
          exact (undefined { w with log := .access func length :: w.log }).mono
            (fun _ _ more => trans_of R noted more) fun _ more => trans_of R noted more
      | some a =>
          exact trans_of R noted
            (call { w with log := .access func length :: w.log } func _ a called)

/-- A relation between two worlds holds along `USB_USBTask` and along every part of the tasks, of
the reset block and of a round. -/
structure RoundPartsKeep (R : World → World → Prop) : Prop where
  usbTask : Moves R usbUsbTask
  moment : Moves R moment
  select : ∀ address, Moves R (endpointSelectEndpoint address)
  stall : Moves R endpointStallTransaction
  clearStall : Moves R endpointClearStall
  offer : ∀ i, Moves R (modify fun w => w.offer i)
  mark : ∀ e : Event, e.ofFirmware = true → Moves R (note e)
  vars : ∀ f, Moves R (onVars f)
  latch : ∀ address, Moves R (onBus .task (vueWriteAddressFull address))
  restore : Moves R (onBus .main writeDefaultState)
  access : ∀ length, Moves R (bulkAccess length)
  free : ∀ by_, Moves R (freeOut by_)
  resetIn : Moves R (onUsb fun u => { u with inBank := [], inBusy := false })
  clearIn : Moves R endpointClearIn
  abort : Moves R endpointAbortPendingIn
  take : Moves R endpointRead8
  give : ∀ x, Moves R (endpointWrite8 x)

namespace RoundPartsKeep

variable {R : World → World → Prop} (keep : RoundPartsKeep R)
include keep

variable [IsPreorder World R]

/-! ## The endpoints -/

theorem outReceived : Moves R endpointIsOutReceived :=
  keep.moment.bind fun _ => .bind .state fun _ => .pure _

theorem inReady : Moves R endpointIsInReady :=
  keep.moment.bind fun _ => .bind .state fun _ => .pure _

theorem allowed : Moves R endpointIsReadWriteAllowed :=
  keep.moment.bind fun _ => .ite (fun _ => (keep.mark _ rfl).bind fun _ => .pure _) fun _ =>
    .bind .state fun _ => .pure _

theorem ready : Moves R endpointWaitUntilReady :=
  keep.moment.bind fun _ => .bind .state fun _ => .ite (fun _ => .pure _) fun _ =>
    keep.moment.bind fun _ => .bind .state fun _ => .pure _

theorem clearOut (by_ : Actor) : Moves R (endpointClearOut by_) :=
  keep.moment.bind fun _ => .bind .state fun _ => .whenever fun _ => keep.free by_

theorem taskClearIn : Moves R taskClearIn :=
  .bind .state fun _ => (keep.mark _ rfl).bind fun _ => keep.clearIn

theorem resetEndpointBy (by_ : Actor) (address : Nat) :
    Moves R (endpointResetEndpoint by_ address) :=
  keep.moment.bind fun _ => .ite (fun _ => keep.free by_) fun _ =>
    .ite (fun _ => keep.resetIn) fun _ => .pure _

theorem refuse : Moves R refuseOut :=
  (keep.resetEndpointBy _ _).bind fun _ => .bind .state fun _ =>
    (keep.mark _ rfl).bind fun _ => keep.stall

theorem flush : Moves R flushIn :=
  keep.allowed.bind fun _ => .ite (fun _ => .pure _) fun _ => keep.taskClearIn.bind fun _ =>
    keep.ready.bind fun _ => .pure _

/-! ## Streams -/

/-- A stream call is made of the parts of its direction and of `USB_USBTask`. -/
theorem streamOf {d : Direction} (transfer : ∀ i, Moves R (d.transferByte i))
    (clear : Moves R d.clearEndpoint) (length : Nat) : Moves R (stream d length) := by
  have mark (e : Event) (ok : e.ofLoop = true) : Moves R (VueCartReader.note e) :=
    keep.mark e (by cases e <;> first | rfl | cases ok)
  refine Stays.moves fun s => Stays.stream (fun _ => id) (fun e ok => ?_) ?_ ?_ (fun i => ?_) ?_ ?_
    length
  · exact .of_transitive (mark e ok) s
  · exact .of_transitive keep.ready s
  · exact .of_transitive keep.allowed s
  · exact .of_transitive (transfer i) s
  · exact .of_transitive clear s
  · exact .of_transitive keep.usbTask s

theorem receives (store : Nat → Byte → Vars → Vars) (length : Nat) :
    Moves R (stream (readStream store) length) :=
  keep.streamOf (fun _ => keep.take.bind fun _ => keep.vars _) (keep.clearOut _) length

theorem sends (load : Nat → Vars → Byte) (length : Nat) :
    Moves R (stream (writeStream load) length) := by
  have give (i : Nat) : Moves R ((writeStream load).transferByte i) :=
    .bind .state fun _ => keep.give _
  exact keep.streamOf give keep.clearIn length

/-! ## The tasks -/

theorem undefinedBehaviour {α : Type} : Moves R (undefinedBehaviour : Fw α) :=
  (keep.mark _ rfl).bind fun _ => .stop

theorem beginTransfer (func : Byte → AccessFunc) : Moves R (beginTransfer func) := by
  refine .bind .state fun w => ?_
  dsimp only
  split
  · exact keep.undefinedBehaviour
  · exact (keep.vars _).bind fun _ => (keep.latch _).bind fun _ => keep.vars _

theorem deselect : Moves R deselect :=
  (keep.mark _ rfl).bind fun _ => .bind .state fun _ => keep.latch _

theorem finishWrite : Moves R finishWrite := keep.deselect.bind fun _ => keep.vars _

theorem finishRead : Moves R finishRead :=
  keep.deselect.bind fun _ => keep.taskClearIn.bind fun _ => keep.vars _

/-- Every phase of a write is made of the parts. -/
theorem bulkWriteTask : Moves R vueBulkWriteTask := by
  refine .bind .state fun w => .ite (fun _ => keep.beginTransfer _) fun _ =>
    .ite (fun _ => ?_) fun _ => keep.finishWrite
  refine (keep.receives _ _).bind fun _ => .ite (fun _ => ?_) fun _ => .pure _
  exact (keep.access _).bind fun _ => (keep.vars _).bind fun _ => .bind .state fun _ =>
    .whenever fun _ => keep.finishWrite

/-- Every phase of a read is made of the parts. -/
theorem bulkReadTask : Moves R vueBulkReadTask := by
  refine .bind .state fun w => .ite (fun _ => keep.beginTransfer _) fun _ =>
    .ite (fun _ => ?_) fun _ => keep.finishRead
  refine (keep.access _).bind fun _ => (keep.sends _ _).bind fun _ =>
    .ite (fun _ => ?_) fun _ => .pure _
  exact (keep.vars _).bind fun _ => .bind .state fun _ => .whenever fun _ => keep.finishRead

theorem startCommand (c : VueCommand) : Moves R (startCommand c) := by
  refine (keep.mark _ rfl).bind fun _ => (keep.vars _).bind fun _ => .bind .state fun w => ?_
  split
  · exact keep.bulkReadTask
  · exact keep.bulkWriteTask
  · exact .pure _

/-- A command is read and judged; a valid one begins its transfer. -/
theorem commandTask : Moves R vueCommandTask := by
  have judged : Moves R judgeCommand :=
    (keep.vars _).bind fun _ => .bind .state fun _ => .ite
      (fun _ => .ite (fun _ => keep.mark _ rfl) fun _ => keep.startCommand _)
      fun _ => (keep.mark _ rfl).bind fun _ => keep.refuse
  exact .bind .state fun _ => (keep.mark _ rfl).bind fun _ => (keep.receives _ _).bind fun _ =>
    .ite (fun _ => judged) fun _ => .pure _

theorem outTask (s : FsmState) : Moves R (outTask s) := by
  cases s with
  | idle => exact keep.commandTask
  | write => exact keep.bulkWriteTask
  | read => exact keep.refuse
  | other raw => exact keep.refuse

theorem serveOut : Moves R serveOut := by
  refine (keep.select _).bind fun _ => keep.outReceived.bind fun _ => .ite (fun _ => ?_)
    fun _ => .pure _
  exact .bind .state fun _ => (keep.mark _ rfl).bind fun _ => (keep.outTask _).bind fun _ =>
    .bind .state fun _ => (keep.mark _ rfl).bind fun _ => keep.clearOut _

theorem serveIn : Moves R serveIn := by
  refine (keep.select _).bind fun _ => keep.inReady.bind fun _ =>
    .ite (fun _ => ?_) fun _ => .pure _
  refine .bind .state fun _ => (keep.mark _ rfl).bind fun _ => keep.flush.bind fun _ =>
    .ite (fun _ => ?_) fun _ => .pure _
  exact .bind .state fun _ => .bind (.whenever fun _ => keep.bulkReadTask) fun _ =>
    keep.allowed.bind fun _ => .whenever fun _ => keep.taskClearIn

/-- Both halves of the task, in any state. -/
theorem vueTask : Moves R vueTask :=
  .bind .state fun _ => .ite (fun _ => .pure _) fun _ => .ite (fun _ => .pure _) fun _ =>
    keep.serveOut.bind fun _ => keep.serveIn

/-! ## The main loop -/

/-- The reset block operates the endpoints after it has written the default state. -/
theorem resetBlock : Moves R resetBlock := by
  have clear (address : Nat) : Moves R (clearEndpointStall address) :=
    (keep.select address).bind fun _ => keep.clearStall
  have restored : Moves R restoreDefaultState :=
    keep.restore.bind fun _ => (keep.vars _).bind fun _ =>
      (keep.resetEndpointBy _ _).bind fun _ => (keep.mark _ rfl).bind fun _ =>
        (keep.resetEndpointBy _ _).bind fun _ => (clear _).bind fun _ => (clear _).bind fun _ =>
          keep.abort
  exact (keep.mark _ rfl).bind fun _ => restored.bind fun _ => (keep.vars _).bind fun _ =>
    keep.mark _ rfl

theorem mainIteration : Moves R mainIteration :=
  keep.usbTask.bind fun _ => .bind .state fun _ => keep.vueTask.bind fun _ =>
    .whenever fun _ => keep.resetBlock

/-- **The rule for the main loop.** -/
theorem mainLoop (inputs : List Input) : Moves R (mainLoop inputs) := by
  induction inputs with
  | nil => exact .pure _
  | cons i rest ih =>
      exact (keep.offer i).bind fun _ => keep.mainIteration.bind fun _ => ih

end RoundPartsKeep

/-- A relation between two worlds holds along every part of the firmware. -/
structure FirmwareKeeps (R : World → World → Prop) : Prop extends RequestPartsKeep R where
  offer : ∀ i, Moves R (modify fun w => w.offer i)
  mark : ∀ e : Event, e.ofFirmware = true → Moves R (VueCartReader.note e)
  work : ∀ f, OnBoard f → Moves R (modify f)
  free : ∀ by_, Moves R (freeOut by_)
  resetIn : Moves R (onUsb fun u => { u with inBank := [], inBusy := false })
  clearIn : Moves R endpointClearIn
  abort : Moves R endpointAbortPendingIn
  take : Moves R endpointRead8
  give : ∀ x, Moves R (endpointWrite8 x)

namespace FirmwareKeeps

variable {R : World → World → Prop} [IsPreorder World R] (keep : FirmwareKeeps R)
include keep

theorem bulkAccess (length : BitVec 32) : Moves R (bulkAccess length) :=
  bulkAccess_moves keep.mark (fun w _ _ a _ => keep.work
    (fun w =>
      { w with
        board := a.rig.board
        vars := { w.vars with bulkAddress := a.address, bulkBuffer := a.buffer }
        log := portEvents .task w.board a.rig.seen ++ w.log })
    (fun _ => ⟨_, _, _, _, _, rfl⟩) w) length

/-- The parts of a control transfer make up `USB_USBTask`. -/
theorem rounds : RoundPartsKeep R where
  usbTask := keep.usbUsbTask
  moment := keep.moment
  select := keep.select
  stall := keep.stall
  clearStall := keep.clearStall
  offer := keep.offer
  mark := keep.mark
  vars f := keep.work _ (onBoard_vars f)
  latch _ := keep.work _ (onBoard_bus _ _)
  restore := keep.work _ (onBoard_bus _ _)
  access := keep.bulkAccess
  free := keep.free
  resetIn := keep.resetIn
  clearIn := keep.clearIn
  abort := keep.abort
  take := keep.take
  give := keep.give

/-- **The rule for the whole firmware.** -/
theorem mainLoop (inputs : List Input) : Moves R (mainLoop inputs) := keep.rounds.mainLoop inputs

end FirmwareKeeps

end VueCartReader
