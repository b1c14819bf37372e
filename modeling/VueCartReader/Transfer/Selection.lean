import VueCartReader.Device.Requests
import VueCartReader.Transfer.Packets

/-!
# The selected endpoint

Which endpoint an operation acts on is hidden state of the controller. The tasks select
one endpoint at the start of each half of `VUE_Task` and rely on the selection from then
on, through stream calls that serve control requests in between. A request may select
other endpoints, SET_CONFIGURATION ends with the OUT endpoint selected, and the library
selects again what was selected before.

A log is well aimed (`Aimed`) when every operation of the tasks finds the endpoint selected
that it is meant for, unless the bus has been reset since the task found something to do.
-/

set_option autoImplicit false

namespace VueCartReader

open Program

/-! ## What an operation is meant for -/

/-- The endpoint an operation is meant for. -/
def BulkOperation.endpoint : BulkOperation → Nat
  | .readStream | .clearOut | .stall => vueCartReaderOutEpAddr
  | .writeStream | .clearIn => vueCartReaderInEpAddr

/-- The bus has been reset since `VUE_Task` last found something to do. -/
def resetSinceFound : List Event → Bool
  | [] => false
  | .outReceived _ :: _ | .inReady _ :: _ => false
  | .interrupt .endOfReset :: _ => true
  | _ :: log => resetSinceFound log

/-- An operation finds the right endpoint selected. -/
def Aimed (e : Event) (past : List Event) : Prop :=
  ∀ operation selected, e = .operate operation selected → resetSinceFound past = false →
    selected = operation.endpoint

theorem Aimed.of_silent {e : Event} (silent : e.ofPoll = false) (past : List Event) :
    Aimed e past := by
  rintro operation selected rfl
  cases silent

/-- Events that are no operation and find nothing leave the matter as it is, unless one of
them is a reset of the bus. -/
theorem resetSinceFound_append {new : List Event} (silent : ∀ e ∈ new, e.ofPoll = false)
    (log : List Event) :
    resetSinceFound (new ++ log) = true ↔
      .interrupt .endOfReset ∈ new ∨ resetSinceFound log = true := by
  induction new with
  | nil => simp
  | cons e new ih =>
      have rest := ih fun f member => silent f (List.mem_cons_of_mem _ member)
      have here := silent e (List.mem_cons_self ..)
      rw [List.cons_append, List.mem_cons]
      cases e with
      | interrupt i => cases i <;> simp [resetSinceFound, rest]
      | outReceived s => cases here
      | inReady s => cases here
      | operate operation selected => cases here
      | _ => simp [resetSinceFound, rest]

/-! ## Code that operates no endpoint of the tasks -/

/-- The log grows by events that are no operation of a task. -/
abbrev Silent (s t : World) : Prop := Logs (fun e => e.ofPoll = false) s t

/-- Code between two operations: it records none, and unless the bus is reset it leaves
the selection alone. -/
structure Passive {α : Type} (m : Fw α) : Prop where
  silent : Moves Silent m
  selected : ∀ s, wp m (fun _ t => SameSelected s t) Anywhere s

theorem passive_of_moves {α : Type} {m : Fw α} (silent : Moves Silent m)
    (selected : Moves SameSelected m) : Passive m :=
  ⟨silent, fun s => (selected s).mono (fun _ _ same => same) fun _ _ => trivial⟩

/-- A step that records some events and changes no selection. -/
theorem modify_passive {f : World → World}
    (log : ∀ w, ∃ new, (f w).log = new ++ w.log ∧ ∀ e ∈ new, e.ofPoll = false)
    (selected : ∀ w, (f w).usb.selected = w.usb.selected) : Passive (modify f) := by
  refine passive_of_moves (Moves.modify log) (Moves.modify fun w => ?_)
  obtain ⟨new, grown, -⟩ := log w
  exact .of_log new grown (selected w)

theorem silent_one {e : Event} (ok : e.ofPoll = false) : ∀ f ∈ [e], f.ofPoll = false :=
  fun _ member => by rwa [List.mem_singleton.mp member]

theorem note_passive {e : Event} (ok : e.ofPoll = false) : Passive (note e) :=
  modify_passive (fun _ => ⟨[e], rfl, silent_one ok⟩) fun _ => rfl

theorem onVars_passive (f : Vars → Vars) : Passive (onVars f) :=
  modify_passive (fun _ => ⟨[], rfl, List.forall_mem_nil _⟩) fun _ => rfl

theorem onUsb_passive {f : Usb → Usb} (same : ∀ u, (f u).selected = u.selected) :
    Passive (onUsb f) :=
  modify_passive (fun _ => ⟨[], rfl, List.forall_mem_nil _⟩) fun w => same w.usb

theorem portEvents_silent (by_ : Actor) (start : Board) (trace : List Board) :
    ∀ e ∈ portEvents by_ start trace, e.ofPoll = false := by
  intro e member
  obtain ⟨before, after, rfl⟩ := portEvents_kind by_ start trace e member
  rfl

theorem onBus_passive (by_ : Actor) (f : Rig → Rig) : Passive (onBus by_ f) :=
  modify_passive (fun _ => ⟨_, rfl, portEvents_silent _ _ _⟩) fun _ => rfl

theorem Passive.bind {α β : Type} {m : Fw α} {f : α → Fw β} (first : Passive m)
    (rest : ∀ a, Passive (f a)) : Passive (m >>= f) := by
  refine ⟨first.silent.bind fun a => (rest a).silent, fun s => ?_⟩
  refine wp.bind (first.selected s) fun a t same => ?_
  exact ((rest a).selected t).mono (fun _ _ further => same.trans further) fun _ cut => cut

theorem Passive.pure {α : Type} (a : α) : Passive (pure a) := passive_of_moves (.pure a) (.pure a)

theorem Passive.state : Passive (state : Fw World) := passive_of_moves .state .state

theorem Passive.stop {α : Type} : Passive (stop : Fw α) := passive_of_moves .stop .stop

theorem Passive.ite {α : Type} {c : Prop} [Decidable c] {m n : Fw α} (onTrue : c → Passive m)
    (onFalse : ¬ c → Passive n) : Passive (if c then m else n) := by
  by_cases h : c
  · rw [if_pos h]
    exact onTrue h
  · rw [if_neg h]
    exact onFalse h

theorem Passive.whenever {c : Prop} [Decidable c] {m : Fw Unit} (onTrue : c → Passive m) :
    Passive (whenever c m) := .ite onTrue fun _ => .pure ()

theorem undefinedBehaviour_passive {α : Type} : Passive (undefinedBehaviour : Fw α) :=
  (note_passive rfl).bind fun _ => .stop

/-! ## Endpoint operations -/

theorem act_silent (w : World) (a : HostAct) : Silent w (w.act a) := by
  cases a with
  | sendOut packet =>
      rw [World.act]
      split
      · exact .one rfl rfl
      · exact .refl w
  | collectIn =>
      rw [World.act]
      split
      · exact .one rfl rfl
      · exact .refl w
  | interrupt i => exact .one rfl rfl

theorem moment_passive : Passive moment :=
  passive_of_moves (moment_moves (fun _ _ => .none rfl) act_silent) moment_sameSelected

theorem freeOut_passive (by_ : Actor) : Passive (freeOut by_) := by
  refine modify_passive (fun w => ?_) fun w => ?_
  · split
    · exact ⟨[_], rfl, silent_one rfl⟩
    · exact ⟨[], rfl, List.forall_mem_nil _⟩
  · split <;> rfl

theorem endpointClearOut_passive (by_ : Actor) : Passive (endpointClearOut by_) :=
  moment_passive.bind fun _ => Passive.state.bind fun _ => .whenever fun _ => freeOut_passive by_

theorem endpointClearIn_passive : Passive endpointClearIn := by
  refine moment_passive.bind fun _ => modify_passive (fun w => ?_) fun w => ?_
  · split
    · exact ⟨[_], rfl, silent_one rfl⟩
    · exact ⟨[], rfl, List.forall_mem_nil _⟩
  · split <;> rfl

theorem setStalled_selected (x : Bool) (u : Usb) : (u.setStalled x).selected = u.selected := by
  unfold Usb.setStalled
  split_ifs <;> rfl

theorem endpointResetEndpoint_passive (by_ : Actor) (address : Nat) :
    Passive (endpointResetEndpoint by_ address) :=
  moment_passive.bind fun _ => .ite (fun _ => freeOut_passive by_) fun _ =>
    .ite (fun _ => onUsb_passive fun _ => rfl) fun _ => .pure _

theorem endpointStallTransaction_passive : Passive endpointStallTransaction :=
  moment_passive.bind fun _ => Passive.state.bind fun _ => (note_passive rfl).bind fun _ =>
    onUsb_passive (setStalled_selected true)

theorem endpointIsReadWriteAllowed_passive : Passive endpointIsReadWriteAllowed :=
  moment_passive.bind fun _ => .ite (fun _ => (note_passive rfl).bind fun _ => .pure _)
    fun _ => Passive.state.bind fun _ => .pure _

theorem endpointWaitUntilReady_passive : Passive endpointWaitUntilReady :=
  moment_passive.bind fun _ => Passive.state.bind fun _ => .ite (fun _ => .pure _) fun _ =>
    moment_passive.bind fun _ => Passive.state.bind fun _ => .pure _

theorem endpointRead8_passive : Passive endpointRead8 := by
  refine Passive.state.bind fun w => ?_
  split
  · exact .bind (onUsb_passive fun _ => rfl) fun _ => .bind (note_passive rfl) fun _ => .pure _
  · exact .pure _

theorem endpointWrite8_passive (x : Byte) : Passive (endpointWrite8 x) :=
  .bind (onUsb_passive fun _ => rfl) fun _ => note_passive rfl

/-- The parts of a control transfer operate no endpoint of the tasks. -/
theorem silent_requestsKeep : RequestsKeep Silent where
  moment := moment_passive.silent
  setup := nextSetup_moves fun _ _ => .none rfl
  select _ := Moves.modify fun _ => .none rfl
  poll := controlPoll_moves (fun _ _ => .none rfl) act_silent
  apart _ _ := Moves.modify fun _ => .none rfl
  note e ok := Moves.modify fun _ => .one rfl (by cases e <;> first | rfl | cases ok)
  header := Moves.modify fun _ => ⟨_, rfl, portEvents_silent _ _ _⟩
  reset := Moves.modify fun _ => .one rfl rfl
  stall := endpointStallTransaction_passive.silent
  clearStall := moment_passive.silent.bind fun _ => Moves.modify fun _ => .none rfl
  resetEndpoint address := (endpointResetEndpoint_passive .control address).silent
  configure := moment_passive.silent.bind fun _ => Moves.modify fun _ => .none rfl

/-- The task of the library operates no bulk endpoint for the firmware. -/
theorem usbUsbTask_passive : Passive usbUsbTask :=
  ⟨silent_requestsKeep.parts.usbUsbTask, usbUsbTask_sameSelected⟩

/-! ## The invariant under a task -/

/-- Every operation so far was well aimed. -/
abbrev WellAimed (w : World) : Prop := History Aimed w.log

/-- Every operation so far was well aimed, and unless the bus has been reset, the endpoint
is selected that the task is about. -/
structure Aiming (endpoint : Nat) (w : World) : Prop where
  history : WellAimed w
  selected : resetSinceFound w.log = false → w.usb.selected = endpoint

theorem wellAimed_of_silent {s t : World} (silent : Silent s t) (held : WellAimed s) :
    WellAimed t := by
  obtain ⟨new, log, all⟩ := silent
  show History Aimed t.log
  rw [log]
  exact held.append_of_forall fun e member past => .of_silent (all e member) past

theorem keepsAimed {α : Type} {m : Fw α} (silent : Moves Silent m) : Stays WellAimed WellAimed m :=
  .of_moves silent (fun _ _ => wellAimed_of_silent) fun _ => id

section Endpoint

variable {endpoint : Nat}

/-- Code between two operations keeps the aim. -/
theorem Passive.aiming {α : Type} {m : Fw α} (passive : Passive m) :
    Stays (Aiming endpoint) WellAimed m := by
  intro s held
  refine ((passive.silent s).and (passive.selected s)).mono (fun _ t ends => ?_) fun t ends =>
    wellAimed_of_silent ends.1 held.history
  obtain ⟨silent, new, log, same⟩ := ends
  refine ⟨wellAimed_of_silent silent held.history, fun undisturbed => ?_⟩
  obtain ⟨new', log', all⟩ := silent
  obtain rfl : new' = new := List.append_cancel_right (log'.symm.trans log)
  have kept := not_or.mp (mt (resetSinceFound_append all s.log).mpr (by
    rw [← log, undisturbed]
    exact Bool.false_ne_true))
  rw [same kept.1]
  exact held.selected (Bool.not_eq_true _ |>.mp kept.2)

/-- An operation meant for the endpoint is well aimed. -/
theorem Aiming.operate {s : World} (held : Aiming endpoint s) {operation : BulkOperation}
    (meant : operation.endpoint = endpoint) :
    Aiming endpoint { s with log := .operate operation s.usb.selected :: s.log } where
  history := by
    refine ⟨fun o x same undisturbed => ?_, held.history⟩
    cases same
    rw [held.selected undisturbed, meant]
  selected := held.selected

/-- A task that finds something to do has just selected its endpoint. -/
theorem Aiming.found {s : World} (held : WellAimed s) {e : Event}
    (finds : ∃ state, e = .outReceived state ∨ e = .inReady state)
    (selected : s.usb.selected = endpoint) :
    Aiming endpoint { s with log := e :: s.log } where
  history := by
    refine ⟨?_, held⟩
    obtain ⟨state, rfl | rfl⟩ := finds <;> exact fun _ _ same => by cases same
  selected _ := selected

/-- A stream call operates the endpoint that is selected. -/
theorem stream_aiming {d : Direction} (meant : d.operation.endpoint = endpoint)
    (transfer : ∀ i, Passive (d.transferByte i)) (clear : Passive d.clearEndpoint) (length : Nat) :
    Stays (Aiming endpoint) WellAimed (stream d length) :=
  Stays.stream_of_called (fun _ held => held.history) (fun _ held => held.operate meant)
    (fun _ => (note_passive rfl).aiming) (fun _ => (note_passive rfl).aiming)
    endpointWaitUntilReady_passive.aiming endpointIsReadWriteAllowed_passive.aiming
    (fun i => (transfer i).aiming) clear.aiming usbUsbTask_passive.aiming length

theorem readStream_aiming (store : Nat → Byte → Vars → Vars) (length : Nat) :
    Stays (Aiming vueCartReaderOutEpAddr) WellAimed (stream (readStream store) length) :=
  stream_aiming (d := readStream store) rfl
    (fun _ => endpointRead8_passive.bind fun _ => onVars_passive _)
    (endpointClearOut_passive .task) length

theorem writeStream_aiming (load : Nat → Vars → Byte) (length : Nat) :
    Stays (Aiming vueCartReaderInEpAddr) WellAimed (stream (writeStream load) length) :=
  stream_aiming (d := writeStream load) rfl
    (fun _ => Passive.state.bind fun _ => endpointWrite8_passive _) endpointClearIn_passive length

end Endpoint

/-! ## The tasks -/

theorem beginTransfer_passive (func : Byte → AccessFunc) : Passive (beginTransfer func) := by
  refine Passive.state.bind fun w => ?_
  dsimp only
  split
  · exact undefinedBehaviour_passive
  · exact (onVars_passive _).bind fun _ => (onBus_passive _ _).bind fun _ => onVars_passive _

theorem bulkAccess_passive (length : BitVec 32) : Passive (bulkAccess length) := by
  refine Passive.state.bind fun w => ?_
  cases w.vars.bulkAccessFunc with
  | none => exact undefinedBehaviour_passive
  | some func =>
      refine (note_passive rfl).bind fun _ => ?_
      dsimp only
      split
      · exact undefinedBehaviour_passive
      · exact modify_passive (fun _ => ⟨_, rfl, portEvents_silent _ _ _⟩) fun _ => rfl

theorem deselect_passive : Passive deselect :=
  (note_passive rfl).bind fun _ => Passive.state.bind fun _ => onBus_passive _ _

theorem finishWrite_passive : Passive finishWrite :=
  deselect_passive.bind fun _ => onVars_passive _

/-- A command that is taken up operates no endpoint: its sub-task is in the phase in which
a transfer begins. -/
theorem startCommand_passive (c : VueCommand) : Passive (startCommand c) := by
  -- `u` is where the sub-task is called
  have begun {task : Fw Unit} (func : Byte → AccessFunc) {s u : World}
      (first : task u = beginTransfer func u) (log : u.log = .accept c :: s.log)
      (usb : u.usb = s.usb) :
      wp task (fun _ t => Silent s t ∧ SameSelected s t) (Silent s) u := by
    have silent : Silent s u := .one log rfl
    have same : SameSelected s u := .of_log [_] log (by rw [usb])
    unfold wp
    rw [first]
    exact (((beginTransfer_passive func).silent u).and
      ((beginTransfer_passive func).selected u)).mono
      (fun _ _ ends => ⟨silent.trans ends.1, same.trans ends.2⟩) fun _ cut => silent.trans cut.1
  have whole (s : World) :
      wp (startCommand c) (fun _ t => Silent s t ∧ SameSelected s t) (Silent s) s := by
    rw [startCommand, note, wp_bind, wp_modify, onVars, wp_bind, wp_modify, wp_bind, wp_state]
    split
    · exact begun readFunc (vueBulkReadTask_begin rfl) rfl rfl
    · exact begun writeFunc (vueBulkWriteTask_begin rfl) rfl rfl
    · exact ⟨.one rfl rfl, .of_log [_] rfl rfl⟩
  exact ⟨fun s => (whole s).mono (fun _ _ ends => ends.1) fun _ cut => cut,
    fun s => (whole s).mono (fun _ _ ends => ends.2) fun _ _ => trivial⟩

theorem taskClearIn_aiming : Stays (Aiming vueCartReaderInEpAddr) WellAimed taskClearIn := by
  intro s held
  rw [taskClearIn, wp_bind, wp_state, note, wp_bind, wp_modify]
  exact endpointClearIn_passive.aiming _ (held.operate rfl)

theorem refuseOut_aiming : Stays (Aiming vueCartReaderOutEpAddr) WellAimed refuseOut := by
  refine (endpointResetEndpoint_passive _ _).aiming.bind fun _ s held => ?_
  rw [wp_bind, wp_state, note, wp_bind, wp_modify]
  exact endpointStallTransaction_passive.aiming _ (held.operate rfl)

theorem vueBulkWriteTask_aiming :
    Stays (Aiming vueCartReaderOutEpAddr) WellAimed vueBulkWriteTask := by
  refine .bind .state fun _ => .ite (fun _ => (beginTransfer_passive _).aiming) fun _ =>
    .ite (fun _ => ?_) fun _ => finishWrite_passive.aiming
  refine (readStream_aiming storeBuffer _).bind fun _ => .ite (fun _ => ?_) fun _ => .pure _
  refine Passive.aiming ?_
  exact (bulkAccess_passive _).bind fun _ => (onVars_passive _).bind fun _ =>
    Passive.state.bind fun _ => .whenever fun _ => finishWrite_passive

theorem vueBulkReadTask_aiming :
    Stays (Aiming vueCartReaderInEpAddr) WellAimed vueBulkReadTask := by
  have finish : Stays (Aiming vueCartReaderInEpAddr) WellAimed finishRead :=
    deselect_passive.aiming.bind fun _ => taskClearIn_aiming.bind fun _ => (onVars_passive _).aiming
  refine .bind .state fun _ => .ite (fun _ => (beginTransfer_passive _).aiming) fun _ =>
    .ite (fun _ => ?_) fun _ => finish
  refine (bulkAccess_passive _).aiming.bind fun _ => (writeStream_aiming loadBuffer _).bind fun _ =>
    .ite (fun _ => ?_) fun _ => .pure _
  exact (onVars_passive _).aiming.bind fun _ => .bind .state fun _ => .whenever fun _ => finish

theorem vueCommandTask_aiming :
    Stays (Aiming vueCartReaderOutEpAddr) WellAimed vueCommandTask := by
  refine .bind .state fun _ => (note_passive rfl).aiming.bind fun _ =>
    (readStream_aiming storeCommand _).bind fun _ => .ite (fun _ => ?_) fun _ => .pure _
  refine (onVars_passive _).aiming.bind fun _ => .bind .state fun _ =>
    .ite (fun _ => ?_) fun _ => ?_
  · exact .ite (fun _ => (note_passive rfl).aiming) fun _ => (startCommand_passive _).aiming
  · exact (note_passive rfl).aiming.bind fun _ => refuseOut_aiming

theorem outTask_aiming (s : FsmState) :
    Stays (Aiming vueCartReaderOutEpAddr) WellAimed (outTask s) := by
  cases s with
  | idle => exact vueCommandTask_aiming
  | write => exact vueBulkWriteTask_aiming
  | read => exact refuseOut_aiming
  | other raw => exact refuseOut_aiming

/-! ## The two halves of `VUE_Task` -/

theorem keepsAimed_select (address : Nat) :
    Stays WellAimed WellAimed (endpointSelectEndpoint address) :=
  keepsAimed (silent_requestsKeep.select address)

theorem serveOut_wellAimed : Stays WellAimed WellAimed serveOut := by
  refine (keepsAimed_select _).bind fun _ s held => ?_
  have looked : Moves Silent endpointIsOutReceived :=
    moment_passive.silent.bind fun _ => .bind .state fun _ => .pure _
  refine wp.bind (((keepsAimed looked s held).and (endpointIsOutReceived_found s)).mono
    (fun _ _ ends => ends) fun _ cut => cut.1) fun found t ends => ?_
  obtain ⟨held, isFound⟩ := ends
  rw [wp_ite]
  refine ⟨fun there => ?_, fun _ => held⟩
  have selected : t.usb.selected = vueCartReaderOutEpAddr :=
    Usb.selected_of_outReceived (isFound ▸ there)
  simp only [note, wp_bind, wp_state, wp_modify]
  refine (outTask_aiming _ _ (.found held ⟨_, .inl rfl⟩ selected)).mono (fun _ u aiming => ?_)
    fun _ => id
  exact ((endpointClearOut_passive .task).aiming _ (aiming.operate rfl)).mono
    (fun _ _ aiming => aiming.history) fun _ => id

theorem serveIn_wellAimed : Stays WellAimed WellAimed serveIn := by
  refine (keepsAimed_select _).bind fun _ s held => ?_
  have looked : Moves Silent endpointIsInReady :=
    moment_passive.silent.bind fun _ => .bind .state fun _ => .pure _
  refine wp.bind (((keepsAimed looked s held).and (endpointIsInReady_found s)).mono
    (fun _ _ ends => ends) fun _ cut => cut.1) fun found t ends => ?_
  obtain ⟨held, isFound⟩ := ends
  rw [wp_ite]
  refine ⟨fun there => ?_, fun _ => held⟩
  have selected : t.usb.selected = vueCartReaderInEpAddr := by
    have ready : t.usb.inReady = true := isFound ▸ there
    simp only [Usb.inReady, Bool.and_eq_true, beq_iff_eq] at ready
    exact ready.1
  have flush : Stays (Aiming vueCartReaderInEpAddr) WellAimed flushIn :=
    endpointIsReadWriteAllowed_passive.aiming.bind fun _ => .ite (fun _ => .pure _) fun _ =>
      taskClearIn_aiming.bind fun _ => endpointWaitUntilReady_passive.aiming.bind fun _ => .pure _
  have rest : Stays (Aiming vueCartReaderInEpAddr) WellAimed (do
      if ← flushIn then
        whenever ((← state).vars.curVueState = .read) vueBulkReadTask
        whenever (¬ (← endpointIsReadWriteAllowed)) taskClearIn) :=
    flush.bind fun _ => .ite (fun _ => .bind .state fun _ =>
      .bind (.whenever fun _ => vueBulkReadTask_aiming) fun _ =>
        endpointIsReadWriteAllowed_passive.aiming.bind fun _ => .whenever fun _ =>
          taskClearIn_aiming) fun _ => .pure _
  rw [wp_bind, wp_state, note, wp_bind, wp_modify]
  exact (rest _ (.found held ⟨_, .inr rfl⟩ selected)).mono (fun _ _ aiming => aiming.history)
    fun _ => id

/-- Each half of the task operates its own endpoint. -/
theorem vueTask_wellAimed : Stays WellAimed WellAimed vueTask :=
  .bind .state fun _ => .ite (fun _ => .pure _) fun _ => .ite (fun _ => .pure _) fun _ =>
    serveOut_wellAimed.bind fun _ => serveIn_wellAimed

/-! ## Runs -/

theorem resetBlock_silent : Moves Silent resetBlock := by
  have note {e : Event} (ok : e.ofPoll = false) : Moves Silent (note e) := (note_passive ok).silent
  have select (address : Nat) : Moves Silent (endpointSelectEndpoint address) :=
    silent_requestsKeep.select address
  have clearStall (address : Nat) : Moves Silent (clearEndpointStall address) :=
    (select address).bind fun _ => silent_requestsKeep.clearStall
  have abort : Moves Silent endpointAbortPendingIn :=
    moment_passive.silent.bind fun _ => Moves.modify fun _ => .none rfl
  have restored : Moves Silent restoreDefaultState :=
    (onBus_passive _ _).silent.bind fun _ => (onVars_passive _).silent.bind fun _ =>
      (endpointResetEndpoint_passive _ _).silent.bind fun _ => (note rfl).bind fun _ =>
        (endpointResetEndpoint_passive _ _).silent.bind fun _ => (clearStall _).bind fun _ =>
          (clearStall _).bind fun _ => abort
  exact (note rfl).bind fun _ => restored.bind fun _ => (onVars_passive _).silent.bind fun _ =>
    note rfl

/-- So does every round. -/
theorem mainLoop_wellAimed (inputs : List Input) : Stays WellAimed WellAimed (mainLoop inputs) :=
  mainLoop_stays inputs (fun _ _ _ => id) <|
    mainIteration_stays (keepsAimed usbUsbTask_passive.silent) vueTask_wellAimed
      fun s held _ => keepsAimed resetBlock_silent s held

theorem Started.wellAimed {w : World} (started : Started w) : WellAimed w := by
  obtain ⟨_, _, _, _, _, rfl⟩ := started
  trivial

/-- In a log without a reset of the bus there is none since anything. -/
theorem resetSinceFound_of_none {log : List Event} (none_ : .interrupt .endOfReset ∉ log) :
    resetSinceFound log = false := by
  induction log with
  | nil => rfl
  | cons e log ih =>
      rw [List.mem_cons, not_or] at none_
      have rest := ih none_.2
      cases e with
      | interrupt i =>
          cases i with
          | endOfReset => exact absurd rfl none_.1
          | _ => exact rest
      | outReceived s => rfl
      | inReady s => rfl
      | _ => exact rest

/-- **Every operation hits the endpoint it is meant for.** In every run, whatever the host
sends and whatever requests are served at the top of the loop or in the middle of a stream
call, a stream call, a ClearOUT, a ClearIN or a stall of the tasks finds the right endpoint
selected, unless the bus has been reset since the task found something to do, as it cannot
have been if it never was (`resetSinceFound_of_none`). The call of a sub-task from
`VUE_Command_Task` comes to no such operation at all. -/
theorem mainLoop_aimed {start : World} (started : Started start) (inputs : List Input) :
    (∀ newer operation selected past,
      (mainLoop inputs start).state.log = newer ++ .operate operation selected :: past →
      resetSinceFound past = false → selected = operation.endpoint) ∧
    ∀ (c : VueCommand) (w : World),
      Logs (fun e => ∀ operation selected, e ≠ .operate operation selected) w
        (startCommand c w).state := by
  refine ⟨fun newer operation selected past log undisturbed => ?_, fun c w => ?_⟩
  · have aimed := (mainLoop_wellAimed inputs).exit (fun _ => id) started.wellAimed
    rw [WellAimed, log] at aimed
    exact aimed.split rfl operation selected rfl undisturbed
  · have silent := wp.exit ((startCommand_passive c).silent w)
    refine silent.mono fun e quiet operation selected same => ?_
    rw [same] at quiet
    cases quiet

/-- Which operation an event records, and what is selected. -/
def Event.operated : Event → Option (BulkOperation × Nat)
  | .operate operation selected => some (operation, selected)
  | _ => none

/-- A read of one word during which the IN bank refuses the second byte; the device is
configured again before the stream call is repeated. -/
def reconfiguringInputs : List Input :=
  let reading := packetInput ⟨commandBytes 0#8 0#8 0#8 0x40#32 2#32, by simp [commandBytes]⟩ 45
  [configuringInput,
    { reading with
      script := reading.script.set 39 ⟨[], true⟩, setups := [none, some setConfiguration, none] }]

def reconfiguredEnd : World := (mainLoop reconfiguringInputs wordStart).state

/-- The repeated call finds the IN endpoint selected. -/
theorem mainLoop_aimed_reconfigured :
    reconfiguredEnd.log[19]?.bind Event.operated = some (.writeStream, vueCartReaderInEpAddr) := by
  have writes : (reconfiguredEnd.log[19]?.bind Event.operated).map Prod.fst =
      some .writeStream := by decide +kernel
  obtain ⟨⟨_, x⟩, found, rfl⟩ := Option.map_eq_some_iff.mp writes
  obtain ⟨e, entry, operated⟩ := Option.bind_eq_some_iff.mp found
  obtain rfl : e = .operate .writeStream x := by
    cases e <;> cases operated
    rfl
  have log := log_split entry
  rw [found, (mainLoop_aimed wordStart_started reconfiguringInputs).1 _ _ _ _ log
    (by decide +kernel)]
  rfl

end VueCartReader
