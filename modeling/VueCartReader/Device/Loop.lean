import VueCartReader.Device.Begin
import VueCartReader.Device.Retry

/-!
# A rule for invariants of the main loop

An invariant that the endpoint operations keep, that serving a control request keeps,
and that the bodies of the three tasks and the reset block keep, each in the states in
which it is reached, is an invariant of the main loop (`mainLoop_stays`).

What a body may rely on comes from the control flow around it. A task is only run with
`bulk_reset` clear: the second half of `VUE_Task` does not test the flag again, but a
request to reset that was served in the first half leaves a state in which the second
half does no bulk work (`outTask_reset`). The selected endpoint is the one the task is
about, unless a bus reset has selected the control endpoint (`World.At`).
-/

set_option autoImplicit false

namespace VueCartReader

open Program

/-! ## The selected endpoint -/

/-- An endpoint is selected, or else the control endpoint. -/
def World.At (endpoint : Nat) (w : World) : Prop :=
  w.usb.selected = endpoint ∨ w.usb.selected = endpointControlEp

/-- Of a cut run nothing is said. -/
abbrev Anywhere (_ : World) : Prop := True

/-- What the host and the bus leave true of the controller is true after a moment. -/
theorem moment_usb {P : Usb → Prop} (out : ∀ u packet, P u → P { u with outBank := some packet })
    (collect : ∀ u : Usb, P u → P { u with inBank := [], inBusy := false })
    (interrupt : ∀ u i, P u → P (u.interrupted i)) :
    Stays (fun w => P w.usb) Anywhere moment := by
  have acted (w : World) (a : HostAct) (held : P w.usb) : P (w.act a).usb := by
    cases a with
    | sendOut packet =>
        rw [World.act]
        split
        · exact out _ _ held
        · exact held
    | collectIn =>
        rw [World.act]
        split
        · exact collect _ held
        · exact held
    | interrupt i => exact interrupt _ i held
  have passed (acts : List HostAct) : ∀ w : World, P w.usb → P (acts.foldl World.act w).usb := by
    induction acts with
    | nil => exact fun _ held => held
    | cons a rest ih => exact fun w held => ih (w.act a) (acted w a held)
  intro w held
  unfold wp moment
  cases w.script with
  | nil => trivial
  | cons m rest => exact passed m.acts { w with script := rest } held

section Selected

variable {x : Nat}

theorem moment_at : Stays (World.At x) Anywhere moment :=
  moment_usb (P := fun u => u.selected = x ∨ u.selected = endpointControlEp) (fun _ _ => id)
    (fun _ => id) fun _ i held => by
      cases i with
      | suspend => exact held
      | wakeUp => exact held
      | endOfReset => exact .inr rfl

theorem note_at (e : Event) : Stays (World.At x) Anywhere (note e) := Stays.modify fun _ => id

theorem endpointIsReadWriteAllowed_at :
    Stays (World.At x) Anywhere endpointIsReadWriteAllowed :=
  moment_at.bind fun _ => .ite (fun _ => (note_at _).bind fun _ => .pure _) fun _ =>
    .bind .state fun _ => .pure _

theorem endpointWaitUntilReady_at : Stays (World.At x) Anywhere endpointWaitUntilReady :=
  moment_at.bind fun _ => .bind .state fun _ => .ite (fun _ => .pure _) fun _ =>
    moment_at.bind fun _ => .bind .state fun _ => .pure _

theorem freeOut_at (by_ : Actor) : Stays (World.At x) Anywhere (freeOut by_) :=
  Stays.modify fun w selected => by
    split <;> exact selected

theorem endpointClearOut_at (by_ : Actor) : Stays (World.At x) Anywhere (endpointClearOut by_) :=
  moment_at.bind fun _ => .bind .state fun _ => .whenever fun _ => freeOut_at by_

theorem endpointClearIn_at : Stays (World.At x) Anywhere endpointClearIn :=
  moment_at.bind fun _ => Stays.modify fun w selected => by
    split <;> exact selected

theorem taskClearIn_at : Stays (World.At x) Anywhere taskClearIn :=
  .bind .state fun _ => (note_at _).bind fun _ => endpointClearIn_at

/-- The task of the library selects the endpoint again that was selected before. -/
theorem usbUsbTask_at : Stays (World.At x) Anywhere usbUsbTask := by
  refine moment_at.bind fun _ s selected => ?_
  rw [wp_bind, wp_state, wp_ite]
  refine ⟨fun _ => selected, fun _ => ?_⟩
  refine wp.bind (wp_trivial _) fun _ t _ => wp.bind (wp_trivial _) fun _ u _ =>
    wp.bind (wp_trivial _) fun _ v _ => selected

end Selected

/-! ## `bulk_reset` after the first half -/

theorem bulkAccess_reset (length : BitVec 32) : Moves SameReset (bulkAccess length) := by
  refine .bind .state fun w => ?_
  cases w.vars.bulkAccessFunc with
  | none => exact .bind (Moves.modify fun _ => rfl) fun _ => .stop
  | some func =>
      refine .bind (Moves.modify fun _ => rfl) fun _ => ?_
      dsimp only
      split
      · exact .bind (Moves.modify fun _ => rfl) fun _ => .stop
      · exact Moves.modify fun _ => rfl

theorem beginTransfer_reset (func : Byte → AccessFunc) : Moves SameReset (beginTransfer func) := by
  refine .bind .state fun w => ?_
  dsimp only
  split
  · exact .bind (Moves.modify fun _ => rfl) fun _ => .stop
  · exact .bind (Moves.modify fun _ => rfl) fun _ => .bind (Moves.modify fun _ => rfl) fun _ =>
      Moves.modify fun _ => rfl

/-- Whatever is made of a received command, `bulk_reset` is as before. -/
theorem judgeCommand_reset : Moves SameReset judgeCommand := by
  refine .bind (Moves.modify fun _ => rfl) fun _ => fun w => ?_
  rw [wp_bind, wp_state, wp_ite]
  refine ⟨fun defined => ?_, fun _ => ?_⟩
  · rw [wp_ite]
    refine ⟨fun _ => rfl, fun _ => ?_⟩
    rw [wp_of_value (startCommand_eq defined)]
    rfl
  · have rejected : Moves SameReset (note (.reject w.vars.curCommand)) :=
      Moves.modify fun _ => rfl
    exact (rejected.bind fun _ => refuseOut_framed.mono fun _ _ => sameReset_of_framed) _

theorem deselect_reset : Moves SameReset deselect :=
  .bind (Moves.modify fun _ => rfl) fun _ => .bind .state fun _ => Moves.modify fun _ => rfl

theorem finishWrite_reset : Moves SameReset finishWrite :=
  deselect_reset.bind fun _ => Moves.modify fun _ => rfl

/-- A request to reset that is served in the first half of `VUE_Task` leaves no read
to go on with in the second. -/
theorem outTask_reset (w : World) (clear : w.vars.bulkReset = 0#32) :
    wp (outTask w.vars.curVueState)
      (fun _ t => t.vars.bulkReset ≠ 0#32 → t.vars.curVueState ≠ .read) Anywhere w := by
  -- where `bulk_reset` is as before, it is clear
  have still {α : Type} {m : Fw α} (same : Moves SameReset m) {s : World}
      (clear : s.vars.bulkReset = 0#32) :
      wp m (fun _ t => t.vars.bulkReset ≠ 0#32 → t.vars.curVueState ≠ .read) Anywhere s :=
    (same s).mono (fun _ _ kept set => absurd (kept.trans clear) set) fun _ _ => trivial
  have refused : Moves SameReset refuseOut := refuseOut_framed.mono fun _ _ => sameReset_of_framed
  cases current : w.vars.curVueState with
  | read => exact still refused clear
  | other raw => exact still refused clear
  | idle =>
      rw [outTask, vueCommandTask, wp_bind, wp_state]
      simp only [note, wp_bind, wp_modify]
      refine ((readStream_reset storeCommand (fun _ _ _ => rfl) 32 _).and
        (readStream_streamed storeCommand (fun _ _ _ => ⟨_, _, rfl⟩) 32 _)).mono
        (fun ok t ends => ?_) fun _ _ => trivial
      obtain ⟨⟨done, -⟩, streamed⟩ := ends
      rw [wp_ite]
      refine ⟨fun finished => still judgeCommand_reset (done finished clear), fun _ _ => ?_⟩
      obtain ⟨_, _, _, _, _, vars⟩ := streamed.vars
      rw [vars]
      exact ne_of_eq_of_ne current (by decide)
  | write =>
      rw [outTask, vueBulkWriteTask, wp_bind, wp_state, wp_ite, wp_ite]
      refine ⟨fun phase => still (beginTransfer_reset _) clear, fun _ => ⟨fun _ => ?_, fun _ =>
        still finishWrite_reset clear⟩⟩
      dsimp only
      refine wp.bind (((readStream_reset storeBuffer (fun _ _ _ => rfl) _ _).and
        (readStream_streamed storeBuffer (fun _ _ _ => ⟨_, _, rfl⟩) _ _)).mono
          (fun _ _ ends => ends) fun _ _ => trivial) fun ok t ends => ?_
      obtain ⟨⟨done, -⟩, streamed⟩ := ends
      rw [wp_ite]
      refine ⟨fun finished => still ?_ (done finished clear), fun _ _ => ?_⟩
      · exact (bulkAccess_reset _).bind fun _ => Moves.bind (Moves.modify fun _ => rfl) fun _ =>
          .bind .state fun _ => .whenever fun _ => finishWrite_reset
      · obtain ⟨_, _, _, _, _, vars⟩ := streamed.vars
        rw [vars]
        exact ne_of_eq_of_ne current (by decide)

/-! ## The rule -/

/-- The events by which the tasks record what they see. -/
def Event.ofPoll : Event → Bool
  | .outReceived _ | .inReady _ | .operate _ _ => true
  | _ => false

/-- How the first half of `VUE_Task` reaches the task for a packet: the packet has been
seen, and no reset is due. -/
structure World.OutFound (w : World) : Prop where
  clear : w.vars.bulkReset = 0#32
  there : w.usb.outReceived = true
  seen : ∃ past, w.log = .outReceived w.vars.curVueState :: past

theorem Usb.selected_of_outReceived {u : Usb} (there : u.outReceived = true) :
    u.selected = vueCartReaderOutEpAddr := by
  simp only [Usb.outReceived, Bool.and_eq_true, beq_iff_eq] at there
  exact there.1

/-- A packet is only found in the bank of the OUT endpoint. -/
theorem World.OutFound.selected {w : World} (found : w.OutFound) :
    w.usb.selected = vueCartReaderOutEpAddr :=
  Usb.selected_of_outReceived found.there

/-- The tasks keep an invariant while they only look at the bulk endpoints. -/
structure LooksKeep (I C : World → Prop) : Prop where
  note : ∀ e : Event, e.ofPoll = true → Stays I C (note e)
  select : ∀ address, address ≠ endpointControlEp → Stays I C (endpointSelectEndpoint address)
  outReceived : Stays I C endpointIsOutReceived
  inReady : Stays I C endpointIsInReady
  allowed : Stays I C endpointIsReadWriteAllowed
  ready : Stays I C endpointWaitUntilReady

/-- The endpoint operations of the tasks keep an invariant. -/
structure EndpointsKeep (I C : World → Prop) : Prop extends LooksKeep I C where
  clearIn : Stays I C endpointClearIn

/-- The bodies of the tasks lead from an invariant `I` to `J`, from which freeing the
OUT bank leads back. -/
structure TasksKeep (I J C : World → Prop) : Prop where
  command : ∀ s, I s → s.OutFound → s.vars.curVueState = .idle →
    wp vueCommandTask (fun _ t => J t) C s
  write : ∀ s, I s → s.OutFound → s.vars.curVueState = .write →
    wp vueBulkWriteTask (fun _ t => J t) C s
  refuse : ∀ s, I s → s.OutFound → s.vars.curVueState ≠ .idle → s.vars.curVueState ≠ .write →
    wp refuseOut (fun _ t => J t) C s
  free : ∀ s x, J s →
    wp (endpointClearOut .task) (fun _ t => I t) C { s with log := .operate .clearOut x :: s.log }
  read : ∀ s, I s → s.vars.bulkReset = 0#32 → s.vars.curVueState = .read →
    s.At vueCartReaderInEpAddr → wp vueBulkReadTask (fun _ t => I t) C s

namespace EndpointsKeep

variable {I C : World → Prop}

/-- An invariant that does not depend on the controller. -/
theorem of_framed (noted : ∀ e : Event, e.ofPoll = true → Stays I C (VueCartReader.note e))
    (framed : ∀ s t, Framed OfUsb s t → I s → I t) (weaker : ∀ s, I s → C s) :
    EndpointsKeep I C where
  note := noted
  select address _ := .of_moves (endpointSelectEndpoint_framed address) framed weaker
  outReceived := .of_moves endpointIsOutReceived_framed framed weaker
  inReady := .of_moves endpointIsInReady_framed framed weaker
  allowed := .of_moves endpointIsReadWriteAllowed_framed framed weaker
  ready := .of_moves endpointWaitUntilReady_framed framed weaker
  clearIn := .of_moves endpointClearIn_framed framed weaker

/-- For such an invariant only the bodies with bulk work need be looked at. -/
theorem tasks_of_framed (keep : EndpointsKeep I C)
    (framed : ∀ s t, Framed OfUsb s t → I s → I t) (weaker : ∀ s, I s → C s)
    (command : ∀ s, I s → s.vars.bulkReset = 0#32 → s.vars.curVueState = .idle →
      wp vueCommandTask (fun _ t => I t) C s)
    (write : ∀ s, I s → s.vars.bulkReset = 0#32 → s.vars.curVueState = .write →
      wp vueBulkWriteTask (fun _ t => I t) C s)
    (read : ∀ s, I s → s.vars.bulkReset = 0#32 → s.vars.curVueState = .read →
      wp vueBulkReadTask (fun _ t => I t) C s) : TasksKeep I I C where
  command s held found := command s held found.clear
  write s held found := write s held found.clear
  refuse s held _ _ _ := Stays.of_moves refuseOut_framed framed weaker s held
  free s x held := Stays.of_moves (endpointClearOut_framed .task) framed weaker _
    (keep.note (.operate .clearOut x) rfl s held)
  read s held clear reading _ := read s held clear reading

variable (keep : EndpointsKeep I C)
include keep

theorem taskClearIn : Stays I C taskClearIn :=
  .bind .state fun _ => (keep.note _ rfl).bind fun _ => keep.clearIn

theorem flushIn : Stays I C flushIn :=
  keep.allowed.bind fun _ => .ite (fun _ => .pure _) fun _ => keep.taskClearIn.bind fun _ =>
    keep.ready.bind fun _ => .pure _

end EndpointsKeep

/-- An invariant and the variables, through an operation that leaves these alone. -/
theorem stays_withVars {α : Type} {I C : World → Prop} {m : Fw α} (stays : Stays I C m)
    (framed : Moves (Framed OfUsb) m) (v : Vars) :
    Stays (fun t => I t ∧ t.vars = v) C m :=
  (stays.and (.of_moves (I := fun t => t.vars = v) (C := Anywhere) framed
    (fun _ _ framed same => framed.vars.trans same) fun _ _ => trivial)).mono fun _ cut => cut.1

theorem endpointIsOutReceived_found (s : World) :
    wp endpointIsOutReceived (fun found t => found = t.usb.outReceived) Anywhere s :=
  wp.bind (wp_trivial _) fun _ _ _ => rfl

theorem endpointIsInReady_found (s : World) :
    wp endpointIsInReady (fun found t => found = t.usb.inReady) Anywhere s :=
  wp.bind (wp_trivial _) fun _ _ _ => rfl

/-- An event of a task is recorded on the way. -/
theorem LooksKeep.noted {I C : World → Prop} (keep : LooksKeep I C) {e : Event}
    (ok : e.ofPoll = true) {s : World} (held : I s) : I { s with log := e :: s.log } :=
  keep.note e ok s held

section Rule

variable {I J C : World → Prop}

theorem serveOut_stays (keep : LooksKeep I C) (tasks : TasksKeep I J C) (s : World) (held : I s)
    (clear : s.vars.bulkReset = 0#32) :
    wp serveOut (fun _ t => I t ∧ (t.vars.bulkReset ≠ 0#32 → t.vars.curVueState ≠ .read)) C s := by
  have selected := stays_withVars (keep.select vueCartReaderOutEpAddr (by decide))
    (endpointSelectEndpoint_framed _) s.vars s ⟨held, rfl⟩
  refine wp.bind selected fun _ t chosen => ?_
  obtain ⟨held, vars⟩ := chosen
  have looked := (stays_withVars keep.outReceived endpointIsOutReceived_framed s.vars t
    ⟨held, vars⟩).and (endpointIsOutReceived_found t)
  refine wp.bind (looked.mono (fun _ _ ends => ends) fun _ cut => cut.1) fun found u looked => ?_
  obtain ⟨⟨held, vars⟩, isFound⟩ := looked
  rw [← vars] at clear
  rw [wp_ite]
  refine ⟨fun there => ?_, fun _ => ⟨held, fun set => absurd clear set⟩⟩
  simp only [note, wp_bind, wp_state, wp_modify]
  have body : wp (outTask u.vars.curVueState) (fun _ t => J t) C
      { u with log := .outReceived u.vars.curVueState :: u.log } := by
    have held := keep.noted (e := .outReceived u.vars.curVueState) rfl held
    have found : World.OutFound { u with log := .outReceived u.vars.curVueState :: u.log } :=
      ⟨clear, isFound ▸ there, u.log, rfl⟩
    cases current : u.vars.curVueState with
    | idle => exact tasks.command _ (current ▸ held) (current ▸ found) current
    | write => exact tasks.write _ (current ▸ held) (current ▸ found) current
    | read =>
        exact tasks.refuse _ (current ▸ held) (current ▸ found) (by simp [current])
          (by simp [current])
    | other raw =>
        exact tasks.refuse _ (current ▸ held) (current ▸ found) (by simp [current])
          (by simp [current])
  have reset := outTask_reset { u with log := .outReceived u.vars.curVueState :: u.log } clear
  refine (body.and reset).mono (fun _ x ends => ?_) fun _ cut => cut.1
  obtain ⟨held, quiet⟩ := ends
  refine ((tasks.free x x.usb.selected held).and
    (endpointClearOut_framed .task
      { x with log := .operate .clearOut x.usb.selected :: x.log })).mono
    (fun _ y freed => ⟨freed.1, ?_⟩) fun _ cut => cut.1
  rw [freed.2.vars]
  exact quiet

variable (keep : EndpointsKeep I C) (tasks : TasksKeep I J C)
include keep tasks

theorem serveIn_stays (s : World) (held : I s)
    (quiet : s.vars.bulkReset ≠ 0#32 → s.vars.curVueState ≠ .read) :
    wp serveIn (fun _ t => I t) C s := by
  have selected := stays_withVars (keep.select vueCartReaderInEpAddr (by decide))
    (endpointSelectEndpoint_framed _) s.vars s ⟨held, rfl⟩
  refine wp.bind selected fun _ t chosen => ?_
  obtain ⟨held, vars⟩ := chosen
  have looked := (stays_withVars keep.inReady endpointIsInReady_framed s.vars t
    ⟨held, vars⟩).and (endpointIsInReady_found t)
  refine wp.bind (looked.mono (fun _ _ ends => ends) fun _ cut => cut.1) fun found u looked => ?_
  obtain ⟨⟨held, vars⟩, isFound⟩ := looked
  rw [wp_ite]
  refine ⟨fun there => ?_, fun _ => held⟩
  have chosen : u.At vueCartReaderInEpAddr := by
    have ready : u.usb.inReady = true := isFound ▸ there
    simp only [Usb.inReady, Bool.and_eq_true, beq_iff_eq] at ready
    exact .inl ready.1
  simp only [note, wp_bind, wp_state, wp_modify]
  have flushed := (stays_withVars keep.flushIn flushIn_framed s.vars _
    ⟨keep.noted (e := .inReady u.vars.curVueState) rfl held, vars⟩).and
    ((endpointIsReadWriteAllowed_at.bind fun _ => .ite (fun _ => .pure _) fun _ =>
      taskClearIn_at.bind fun _ => endpointWaitUntilReady_at.bind fun _ => .pure _ :
        Stays (World.At vueCartReaderInEpAddr) Anywhere flushIn)
      { u with log := .inReady u.vars.curVueState :: u.log } chosen)
  refine flushed.mono (fun ok x flushed => ?_) fun _ cut => cut.1
  obtain ⟨⟨held, vars⟩, chosen⟩ := flushed
  rw [wp_ite]
  refine ⟨fun _ => ?_, fun _ => held⟩
  have rest : Stays I C (do
      whenever (¬ (← endpointIsReadWriteAllowed)) taskClearIn) :=
    keep.allowed.bind fun _ => .whenever fun _ => keep.taskClearIn
  rw [wp_bind, wp_state, wp_bind, wp_whenever]
  refine ⟨fun reading => wp.mono (tasks.read x held ?_ reading chosen) (fun _ y held => rest y held)
    fun _ cut => cut, fun _ => rest x held⟩
  by_contra set
  rw [vars] at set reading
  exact quiet set reading

/-- **The rule for `VUE_Task`.** -/
theorem vueTask_stays : Stays I C vueTask := by
  intro s held
  rw [vueTask, wp_bind, wp_state, wp_ite, wp_ite]
  refine ⟨fun _ => held, fun _ => ⟨fun _ => held, fun clear => ?_⟩⟩
  exact (serveOut_stays keep.toLooksKeep tasks s held (not_not.mp clear)).bind
    fun _ t ends => serveIn_stays keep tasks t ends.1 ends.2

end Rule

theorem vueTask_of_reset {w : World} (set : w.vars.bulkReset ≠ 0#32) :
    vueTask w = .value () w := by
  rw [vueTask, state_bind, if_pos set, ite_self]
  rfl

/-- A run is gone on with from where a part of it has returned. -/
theorem mainLoop_append {first : List Input} {s t : World}
    (returned : mainLoop first s = .value () t) (second : List Input) :
    mainLoop (first ++ second) s = mainLoop second t := by
  induction first generalizing s with
  | nil =>
      cases returned
      rfl
  | cons i rest ih =>
      have opened (inputs : List Input) :
          mainLoop (i :: inputs) s = (mainIteration >>= fun _ => mainLoop inputs) (s.offer i) := rfl
      rw [opened] at returned
      rw [List.cons_append, opened]
      cases round : mainIteration (s.offer i) with
      | value _ u =>
          rw [bind_of_value round] at returned ⊢
          exact ih returned
      | cut u =>
          have cut : (mainIteration >>= fun _ => mainLoop rest) (s.offer i) = .cut u := by
            show andThen mainIteration _ _ = _
            rw [andThen, round]
          cases cut.symm.trans returned

section MainLoop

variable {I C : World → Prop}

/-- One round of the main loop; the reset block runs with `bulk_reset` set. -/
theorem mainIteration_stays (usb : Stays I C usbUsbTask) (task : Stays I C vueTask)
    (reset : ∀ s, I s → s.vars.bulkReset ≠ 0#32 → wp resetBlock (fun _ t => I t) C s) :
    Stays I C mainIteration := by
  refine usb.bind fun _ s held => ?_
  rw [wp_bind, wp_state]
  by_cases set : s.vars.bulkReset = 0#32
  · refine (task s held).bind fun _ t held => ?_
    rw [wp_whenever]
    exact ⟨fun other => absurd set other, fun _ => held⟩
  · rw [wp_bind, wp_of_value (vueTask_of_reset set), wp_whenever]
    exact ⟨fun _ => reset s held set, fun none_ => absurd set none_⟩

/-- **The rule for the main loop.** -/
theorem mainLoop_stays (inputs : List Input)
    (offer : ∀ i ∈ inputs, ∀ s, I s → I (s.offer i)) (round : Stays I C mainIteration) :
    Stays I C (mainLoop inputs) := by
  induction inputs with
  | nil => exact .pure _
  | cons i rest ih =>
      refine .bind (.modify (offer i (List.mem_cons_self ..))) fun _ => round.bind fun _ => ?_
      exact ih fun j member => offer j (List.mem_cons_of_mem _ member)

end MainLoop

end VueCartReader
