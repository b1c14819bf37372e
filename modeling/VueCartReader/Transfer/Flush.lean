import VueCartReader.Device.Requests
import VueCartReader.Transfer.Marks

/-!
# A packet after a reset

`REQ_RESET_ALL` is acknowledged in the control handler; the endpoints are emptied later, by
the reset block. A packet that the OUT endpoint accepts after the reset block has emptied it
(`emptied`) is waiting for the tasks from then on (`waiting`): nothing but a request of the
host or a reset of the bus removes it, and `VUE_Task` finds it in state IDLE.

A packet that comes in between is dropped by the reset block although the host has been told
that the reset is over (`reset_drops_packet`).
-/

set_option autoImplicit false

namespace VueCartReader

open Program

/-! ## What the log says about the OUT bank -/

/-- A reset block has emptied the OUT bank; since then no reset has been requested, and
`VUE_Task` has found nothing in the bank. -/
def emptied : List Event → Bool
  | [] => false
  | .outReset :: _ => true
  | .resetRequest :: _ | .outReceived _ :: _ => false
  | _ :: log => emptied log

/-- What takes a packet out of a bank that has been emptied by a reset block, or gets the
tasks to look at it: `VUE_Task` finds it, another reset is requested, or the host has the
endpoint reset in some other way. -/
def Event.decides : Event → Bool
  | .outReceived _ | .resetRequest | .interrupt .endOfReset | .configurationChanged
  | .free .control _ => true
  | _ => false

/-- The packet that is waiting for the tasks: it has been accepted since the reset block
emptied the bank. -/
def waiting : List Event → Option (List Byte)
  | [] => none
  | .outReset :: _ => none
  | .packet data :: log =>
      match waiting log with
      | some first => some first
      | none => if emptied log then some data else none
  | e :: log => if e.decides then none else waiting log

/-- What must not happen to a packet that is waiting. -/
def Event.drops : Event → Bool
  | .packet _ | .free .task _ | .free .main _ | .outReset => true
  | .outReceived s => s != .idle
  | _ => false

/-- Nothing removes a packet that is waiting, and `VUE_Task` finds it in state IDLE. -/
def Undropped (e : Event) (past : List Event) : Prop := waiting past ≠ none → e.drops = false

/-- What concerns neither the bank nor resets. -/
def Event.neutral (e : Event) : Prop :=
  e.decides = false ∧ e.drops = false

theorem emptied_neutral {e : Event} (neutral : e.neutral) (log : List Event) :
    emptied (e :: log) = emptied log := by
  obtain ⟨other, kept⟩ := neutral
  cases e <;> first | rfl | exact absurd other.symm Bool.false_ne_true |
    exact absurd kept.symm Bool.false_ne_true

theorem waiting_neutral {e : Event} (neutral : e.neutral) (log : List Event) :
    waiting (e :: log) = waiting log := by
  obtain ⟨other, kept⟩ := neutral
  have passed : (if e.decides then none else waiting log) = waiting log := by rw [other]; rfl
  cases e <;> first | exact passed | exact absurd kept.symm Bool.false_ne_true

/-- A packet only waits in a bank that has been emptied by a reset block. -/
theorem emptied_of_waiting {log : List Event} (waits : waiting log ≠ none) :
    emptied log = true := by
  induction log with
  | nil => exact absurd rfl waits
  | cons e log ih =>
      cases e with
      | packet data =>
          cases first : waiting log with
          | some _ =>
              exact ih (by rw [first]; exact Option.some_ne_none _)
          | none =>
              rw [waiting, first] at waits
              by_contra full
              exact waits (if_neg full)
      | outReset => rfl
      | resetRequest => exact absurd rfl waits
      | outReceived s => exact absurd rfl waits
      | interrupt i => cases i <;> first | exact ih waits | exact absurd rfl waits
      | free actor unread => cases actor <;> first | exact ih waits | exact absurd rfl waits
      | configurationChanged => exact absurd rfl waits
      | _ => exact ih waits

/-! ## The invariant -/

/-- Between a reset block and the next packet that is found the firmware is idle, and the
packet that is waiting is in the bank. -/
structure HoldsWaiting (w : World) : Prop where
  idle : emptied w.log = true → w.vars.curVueState = .idle
  there : ∀ data, waiting w.log = some data → w.usb.outBank = some data
  history : History Undropped w.log

namespace HoldsWaiting

variable {s t : World}

/-- Events that do not concern the bank, and a bank that is left alone. -/
theorem neutral (held : HoldsWaiting s) {new : List Event} (log : t.log = new ++ s.log)
    (all : ∀ e ∈ new, e.neutral) (bank : t.usb.outBank = s.usb.outBank)
    (state : t.vars.curVueState = s.vars.curVueState) : HoldsWaiting t where
  idle := by
    rw [log, append_of_cons (fun _ => emptied_neutral) all, state]
    exact held.idle
  there := by
    rw [log, append_of_cons (fun _ => waiting_neutral) all, bank]
    exact held.there
  history := by
    rw [log]
    exact held.history.append_of_forall fun e member _ _ => (all e member).2

theorem unrecorded (held : HoldsWaiting s) (log : t.log = s.log)
    (bank : t.usb.outBank = s.usb.outBank) (state : t.vars.curVueState = s.vars.curVueState) :
    HoldsWaiting t := by
  have log : t.log = [] ++ s.log := log
  exact held.neutral log (List.forall_mem_nil _) bank state

theorem one (held : HoldsWaiting s) {e : Event} (log : t.log = e :: s.log) (alone : e.neutral)
    (bank : t.usb.outBank = s.usb.outBank) (state : t.vars.curVueState = s.vars.curVueState) :
    HoldsWaiting t := by
  have log : t.log = [e] ++ s.log := log
  exact held.neutral log (fun f member => by rwa [List.mem_singleton.mp member]) bank state

/-- The bank is emptied by the host, or another reset is requested. -/
theorem decided (held : HoldsWaiting s) {e : Event} (log : t.log = e :: s.log)
    (decides : e.decides = true) (kept : e.drops = false)
    (state : t.vars.curVueState = s.vars.curVueState) : HoldsWaiting t where
  idle flushed := by
    rw [state]
    rw [log] at flushed
    cases e <;> first | exact held.idle flushed | exact absurd flushed Bool.false_ne_true |
      exact absurd kept.symm Bool.false_ne_true
  there data waits := by
    rw [log] at waits
    have none_ : waiting (e :: s.log) = none := by
      have gone : (if e.decides then none else waiting s.log) = none := by rw [decides]; rfl
      cases e <;> first | exact gone | exact absurd decides Bool.false_ne_true
    rw [none_] at waits
    cases waits
  history := by
    rw [log]
    exact ⟨fun _ => kept, held.history⟩

/-- A packet comes into an empty bank. -/
theorem packet (held : HoldsWaiting s) (empty : s.usb.outBank = none) {data : List Byte}
    (log : t.log = .packet data :: s.log) (bank : t.usb.outBank = some data)
    (state : t.vars.curVueState = s.vars.curVueState) : HoldsWaiting t := by
  have unseen : waiting s.log = none := by
    cases waits : waiting s.log with
    | none => rfl
    | some first =>
        have there := held.there first waits
        rw [empty] at there
        cases there
  refine ⟨?_, fun data' waits => ?_, ?_⟩
  · rw [log, state]
    exact held.idle
  · rw [log, waiting, unseen] at waits
    by_cases flushed : emptied s.log = true
    · rw [bank]
      exact (if_pos flushed).symm.trans waits
    · cases (if_neg flushed).symm.trans waits
  · rw [log]
    exact ⟨fun waits => absurd unseen waits, held.history⟩

end HoldsWaiting

/-- The code keeps the packet that is waiting, returned or cut. -/
abbrev KeepsWaiting {α : Type} (m : Fw α) : Prop := Stays HoldsWaiting HoldsWaiting m

theorem holdsWaiting_act (w : World) (a : HostAct) (held : HoldsWaiting w) :
    HoldsWaiting (w.act a) := by
  cases a with
  | sendOut packet =>
      rw [World.act]
      split
      · rename_i open_
        simp only [Bool.and_eq_true, Option.isNone_iff_eq_none] at open_
        exact held.packet open_.1.2 rfl rfl rfl
      · exact held
  | collectIn =>
      rw [World.act]
      split
      · exact held.one rfl ⟨rfl, rfl⟩ rfl rfl
      · exact held
  | interrupt i =>
      cases i with
      | endOfReset => exact held.decided rfl rfl rfl rfl
      | _ => exact held.one rfl ⟨rfl, rfl⟩ rfl rfl

/-! ## Outside the tasks -/

theorem moment_waiting : KeepsWaiting moment := by
  refine Moves.stays_of_carries (moment_moves (fun w rest held => ?_) holdsWaiting_act)
  exact held.unrecorded rfl rfl rfl

/-- A step that records neutral events and leaves the bank and the state alone. -/
theorem modify_waiting {f : World → World}
    (log : ∀ w, ∃ new, (f w).log = new ++ w.log ∧ ∀ e ∈ new, e.neutral)
    (bank : ∀ w, (f w).usb.outBank = w.usb.outBank)
    (state : ∀ w, (f w).vars.curVueState = w.vars.curVueState) : KeepsWaiting (modify f) :=
  Stays.modify fun w held => by
    obtain ⟨new, grown, all⟩ := log w
    exact held.neutral grown all (bank w) (state w)

theorem note_waiting {e : Event} (alone : e.neutral) : KeepsWaiting (note e) :=
  Stays.modify fun _ held => held.one rfl alone rfl rfl

theorem onUsb_waiting {f : Usb → Usb} (bank : ∀ u, (f u).outBank = u.outBank) :
    KeepsWaiting (onUsb f) :=
  modify_waiting (fun _ => ⟨[], rfl, List.forall_mem_nil _⟩) (fun w => bank w.usb) fun _ => rfl

theorem portEvents_neutral (by_ : Actor) (start : Board) (trace : List Board) :
    ∀ e ∈ portEvents by_ start trace, e.neutral := by
  intro e member
  obtain ⟨before, after, rfl⟩ := portEvents_kind by_ start trace e member
  exact ⟨rfl, rfl⟩

theorem freeOut_waiting : KeepsWaiting (freeOut .control) :=
  Stays.modify fun w held => by
    split
    · exact held.decided rfl rfl rfl rfl
    · exact held

theorem endpointStallTransaction_waiting : KeepsWaiting endpointStallTransaction :=
  moment_waiting.bind fun _ => .bind .state fun _ => (note_waiting ⟨rfl, rfl⟩).bind fun _ =>
    onUsb_waiting (setStalled_outBank true)

theorem endpointClearStall_waiting : KeepsWaiting endpointClearStall :=
  moment_waiting.bind fun _ => onUsb_waiting (setStalled_outBank false)

theorem endpointSelectEndpoint_waiting (address : Nat) :
    KeepsWaiting (endpointSelectEndpoint address) := onUsb_waiting fun _ => rfl

theorem endpointIsReadWriteAllowed_waiting : KeepsWaiting endpointIsReadWriteAllowed :=
  moment_waiting.bind fun _ => .ite (fun _ => (note_waiting ⟨rfl, rfl⟩).bind fun _ => .pure _)
    fun _ => .bind .state fun _ => .pure _

theorem endpointWaitUntilReady_waiting : KeepsWaiting endpointWaitUntilReady :=
  moment_waiting.bind fun _ => .bind .state fun _ => .ite (fun _ => .pure _) fun _ =>
    moment_waiting.bind fun _ => .bind .state fun _ => .pure _

theorem taskClearIn_waiting : KeepsWaiting taskClearIn := by
  refine .bind .state fun _ => (note_waiting ⟨rfl, rfl⟩).bind fun _ =>
    moment_waiting.bind fun _ => Stays.modify fun w held => ?_
  split
  · exact held.one rfl ⟨rfl, rfl⟩ rfl rfl
  · exact held

/-- Both bulk endpoints are configured anew, which empties them. -/
theorem eventUsbDeviceConfigurationChanged_waiting :
    KeepsWaiting eventUsbDeviceConfigurationChanged := by
  intro s held
  rw [eventUsbDeviceConfigurationChanged, configureBulkEndpoints, wp_bind, wp_bind]
  exact (moment_waiting s held).mono (fun _ t held => held.decided rfl rfl rfl rfl) fun _ => id

theorem waiting_requestPartsKeep : RequestPartsKeep (Carries HoldsWaiting) where
  moment := moment_waiting.carries
  setup := nextSetup_moves fun _ _ held => held.unrecorded rfl rfl rfl
  select address := (endpointSelectEndpoint_waiting address).carries
  poll := controlPoll_moves (fun _ _ held => held.unrecorded rfl rfl rfl) holdsWaiting_act
  apart f same := (onUsb_waiting fun u => (same u).outBank).carries
  note e ok := by
    refine Stays.carries (Stays.modify fun w held => ?_)
    cases e with
    | request _ _ _ => exact held.one rfl ⟨rfl, rfl⟩ rfl rfl
    | statusStage => exact held.one rfl ⟨rfl, rfl⟩ rfl rfl
    | reply _ => exact held.one rfl ⟨rfl, rfl⟩ rfl rfl
    | stall _ => exact held.one rfl ⟨rfl, rfl⟩ rfl rfl
    | _ => cases ok
  header := Stays.carries <| Stays.modify fun _ held =>
    held.neutral rfl (portEvents_neutral _ _ _) rfl rfl
  reset := Stays.carries (Stays.modify fun _ held => held.decided rfl rfl rfl rfl)
  stall := endpointStallTransaction_waiting.carries
  clearStall := endpointClearStall_waiting.carries
  resetEndpoint address := Stays.carries <| moment_waiting.bind fun _ =>
    .ite (fun _ => freeOut_waiting) fun _ => .ite (fun _ => onUsb_waiting fun _ => rfl) fun _ =>
      .pure _
  configured := eventUsbDeviceConfigurationChanged_waiting.carries

theorem usbUsbTask_waiting : KeepsWaiting usbUsbTask :=
  waiting_requestPartsKeep.usbUsbTask.stays_of_carries

/-! ## Under the tasks -/

/-- A packet has been found since the bank was emptied, so none is waiting. -/
structure NoneWaiting (w : World) : Prop where
  found : emptied w.log = false
  history : History Undropped w.log

theorem waiting_of_found {log : List Event} (found : emptied log = false) : waiting log = none := by
  by_contra waits
  rw [emptied_of_waiting waits] at found
  cases found

theorem NoneWaiting.holdsWaiting {w : World} (held : NoneWaiting w) : HoldsWaiting w where
  idle flushed := by
    rw [held.found] at flushed
    cases flushed
  there data waits := by
    rw [waiting_of_found held.found] at waits
    cases waits
  history := held.history

/-- Without a mark of the reset block the bank does not become an emptied one. -/
theorem emptied_append_unmarked {new log : List Event}
    (unmarked : ∀ e ∈ new, e.marksReset = false) (flushed : emptied (new ++ log) = true) :
    emptied log = true ∧ .resetRequest ∉ new := by
  induction new with
  | nil => exact ⟨flushed, List.not_mem_nil⟩
  | cons e new ih =>
      have here := unmarked e (List.mem_cons_self ..)
      have rest (flushed : emptied (new ++ log) = true) :
          emptied log = true ∧ .resetRequest ∉ new :=
        ih (fun f member => unmarked f (List.mem_cons_of_mem _ member)) flushed
      rw [List.mem_cons, not_or]
      cases e with
      | outReset => cases here
      | resetRequest => cases flushed
      | outReceived s => cases flushed
      | _ =>
          obtain ⟨before, unasked⟩ := rest flushed
          exact ⟨before, Event.noConfusion, unasked⟩

theorem NoneWaiting.unmarked {s t : World} (held : NoneWaiting s) (unmarked : Unmarked s t) :
    NoneWaiting t := by
  obtain ⟨new, log, all⟩ := unmarked
  have found {part : List Event} (inside : ∀ e ∈ part, e ∈ new) :
      emptied (part ++ s.log) = false := by
    by_contra flushed
    have before := emptied_append_unmarked (fun e member => all e (inside e member))
      (Bool.not_eq_false _ |>.mp flushed)
    rw [held.found] at before
    cases before.1
  refine ⟨?_, ?_⟩
  · rw [log]
    exact found fun _ => id
  · rw [log]
    refine held.history.append fun later e earlier split waits => ?_
    refine absurd (waiting_of_found (found fun f member => ?_)) waits
    rw [split]
    exact List.mem_append_right _ (List.mem_cons_of_mem _ member)

theorem keepsNoneWaiting {α : Type} {m : Fw α} (unmarked : Moves Unmarked m) :
    Stays NoneWaiting HoldsWaiting m :=
  .of_moves unmarked (fun _ _ unmarked held => held.unmarked unmarked) fun _ held =>
    held.holdsWaiting

theorem outTask_unmarked (s : FsmState) : Moves Unmarked (outTask s) := by
  have refused : Moves Unmarked refuseOut := refuseOut_framed.mono fun _ _ => unmarked_of_framed
  cases s with
  | idle => exact vueCommandTask_unmarked
  | write => exact vueBulkWriteTask_unmarked
  | read => exact refused
  | other raw => exact refused

theorem serveOut_waiting : KeepsWaiting serveOut := by
  refine (endpointSelectEndpoint_waiting _).bind fun _ => ?_
  refine (moment_waiting.bind fun _ => .bind .state fun _ => .pure _ :
    KeepsWaiting endpointIsOutReceived).bind fun _ => .ite (fun _ s held => ?_) fun _ => .pure _
  have rest : Moves Unmarked (do
      outTask s.vars.curVueState
      note (.operate .clearOut (← state).usb.selected)
      endpointClearOut .task) :=
    (outTask_unmarked _).bind fun _ => .bind .state fun _ => (note_unmarked rfl).bind fun _ =>
      (endpointClearOut_framed .task).mono fun _ _ => unmarked_of_framed
  have found : NoneWaiting { s with log := .outReceived s.vars.curVueState :: s.log } := by
    refine ⟨rfl, fun waits => ?_, held.history⟩
    have idle := held.idle (emptied_of_waiting waits)
    rw [idle]
    rfl
  rw [wp_bind, wp_state, wp_bind]
  exact (keepsNoneWaiting rest _ found).mono (fun _ _ held => held.holdsWaiting) fun _ => id

/-- A read only goes on when none is waiting. -/
theorem serveIn_waiting : KeepsWaiting serveIn := by
  have flush : KeepsWaiting flushIn :=
    endpointIsReadWriteAllowed_waiting.bind fun _ => .ite (fun _ => .pure _) fun _ =>
      taskClearIn_waiting.bind fun _ => endpointWaitUntilReady_waiting.bind fun _ => .pure _
  refine (endpointSelectEndpoint_waiting _).bind fun _ => ?_
  refine (moment_waiting.bind fun _ => .bind .state fun _ => .pure _ :
    KeepsWaiting endpointIsInReady).bind fun _ => .ite (fun _ => ?_) fun _ => .pure _
  refine .bind .state fun _ => (note_waiting ⟨rfl, rfl⟩).bind fun _ => flush.bind fun _ =>
    .ite (fun _ => ?_) fun _ => .pure _
  have rest : KeepsWaiting (do
      whenever (¬ (← endpointIsReadWriteAllowed)) taskClearIn) :=
    endpointIsReadWriteAllowed_waiting.bind fun _ => .whenever fun _ => taskClearIn_waiting
  intro s held
  rw [wp_bind, wp_state, wp_bind, wp_whenever]
  refine ⟨fun reading => ?_, fun _ => rest s held⟩
  have found : emptied s.log = false := by
    by_contra flushed
    cases reading.symm.trans (held.idle (Bool.not_eq_false _ |>.mp flushed))
  exact (keepsNoneWaiting vueBulkReadTask_unmarked s ⟨found, held.history⟩).mono
    (fun _ t held => rest t held.holdsWaiting) fun _ => id

theorem vueTask_waiting : KeepsWaiting vueTask :=
  .bind .state fun _ => .ite (fun _ => .pure _) fun _ => .ite (fun _ => .pure _) fun _ =>
    serveOut_waiting.bind fun _ => serveIn_waiting

/-! ## The reset block -/

/-- The reset block up to where it marks the OUT bank as emptied. -/
theorem emptying_spec {s : World} (held : NoneWaiting s) {next : Fw Unit}
    {Q : Unit → World → Prop}
    (rest : ∀ t, NoneWaiting t → t.vars.curVueState = .idle → wp next Q HoldsWaiting t) :
    wp (do
      onBus .main writeDefaultState
      enterIdle
      endpointResetEndpoint .main vueCartReaderOutEpAddr
      next) Q HoldsWaiting s := by
  have written : Moves Unmarked (onBus .main writeDefaultState) := Moves.modify fun w =>
    ⟨_, rfl, fun e member => by
      obtain ⟨_, _, rfl⟩ := portEvents_kind _ _ _ e member
      rfl⟩
  refine wp.bind (keepsNoneWaiting written s held) fun _ t held => ?_
  rw [enterIdle, onVars, wp_bind, wp_modify]
  have entered : NoneWaiting { t with vars := { t.vars with curVueState := .idle } } :=
    ⟨held.found, held.history⟩
  refine wp.bind ((endpointResetEndpoint_framed .main vueCartReaderOutEpAddr _).mono
    (fun _ _ framed => framed) fun u framed =>
      (entered.unmarked (unmarked_of_framed framed)).holdsWaiting) fun _ u framed => ?_
  exact rest u (entered.unmarked (unmarked_of_framed framed)) (by rw [framed.vars])

theorem clearEndpointStall_waiting (address : Nat) : KeepsWaiting (clearEndpointStall address) :=
  (endpointSelectEndpoint_waiting address).bind fun _ => endpointClearStall_waiting

theorem endpointAbortPendingIn_waiting : KeepsWaiting endpointAbortPendingIn := by
  refine moment_waiting.bind fun _ => onUsb_waiting fun u => ?_
  split <;> rfl

/-- Resetting the IN endpoint leaves the OUT bank alone. -/
theorem endpointResetEndpoint_in_waiting :
    KeepsWaiting (endpointResetEndpoint .main vueCartReaderInEpAddr) :=
  moment_waiting.bind fun _ => .ite (fun out => absurd out (by decide)) fun _ =>
    .ite (fun _ => onUsb_waiting fun _ => rfl) fun _ => .pure _

/-- What the reset block does from the mark on. -/
theorem emptied_waiting : KeepsWaiting (do
    endpointResetEndpoint .main vueCartReaderInEpAddr
    clearEndpointStall vueCartReaderOutEpAddr
    clearEndpointStall vueCartReaderInEpAddr
    endpointAbortPendingIn) :=
  endpointResetEndpoint_in_waiting.bind fun _ => (clearEndpointStall_waiting _).bind fun _ =>
    (clearEndpointStall_waiting _).bind fun _ => endpointAbortPendingIn_waiting

/-- A packet that is waiting, and no reset that is due once the bank has been emptied. -/
structure Guarded (w : World) : Prop where
  reset : ResetInvariant w
  waits : HoldsWaiting w
  settled : emptied w.log = true → resetPending w.log = false

theorem resetBlock_guarded (s : World) (held : Guarded s) (set : s.vars.bulkReset ≠ 0#32) :
    wp resetBlock (fun _ t => Guarded t) HoldsWaiting s := by
  have found : emptied s.log = false := by
    by_contra flushed
    have none_ := held.settled (Bool.not_eq_false _ |>.mp flushed)
    rw [held.reset.pending.mp set] at none_
    cases none_
  have begun : NoneWaiting { s with log := .resetBegin :: s.log } :=
    ⟨found, fun _ => rfl, held.waits.history⟩
  have waits : wp resetBlock (fun _ t => HoldsWaiting t ∧ ∃ past, t.log = .resetEnd :: past)
      HoldsWaiting s := by
    rw [resetBlock, note, wp_bind, wp_modify, restoreDefaultState, wp_bind]
    refine emptying_spec begun fun t none_ idle => ?_
    have emptied : HoldsWaiting { t with log := .outReset :: t.log } := by
      refine ⟨fun _ => idle, fun data waits => ?_, fun waits => ?_, none_.history⟩
      · cases waits
      · exact absurd (waiting_of_found none_.found) waits
    rw [note, wp_bind, wp_modify]
    refine (emptied_waiting _ emptied).mono (fun _ u held => ⟨?_, _, rfl⟩) fun _ => id
    exact held.one rfl ⟨rfl, rfl⟩ rfl rfl
  refine ((resetBlock_keepsReset s held.reset).and waits).mono
    (fun _ t ends => ?_) fun _ cut => cut.2
  obtain ⟨reset, waits, past, log⟩ := ends
  exact ⟨reset, waits, fun _ => by rw [log]; rfl⟩

/-! ## Runs -/

/-- Code outside the reset block asks for no reset that would go unnoticed. -/
theorem settled_unmarked {s t : World} (unmarked : Unmarked s t)
    (settled : emptied s.log = true → resetPending s.log = false) :
    emptied t.log = true → resetPending t.log = false := by
  intro flushed
  obtain ⟨new, log, all⟩ := unmarked
  rw [log] at flushed ⊢
  obtain ⟨before, unasked⟩ := emptied_append_unmarked all flushed
  rw [resetPending_append fun e member => ?_, settled before,
    resetRequested_eq_false fun e member => ?_]
  · rfl
  · rintro rfl
    exact unasked member
  · rintro rfl
    cases all _ member

theorem mainLoop_guarded (inputs : List Input) : Stays Guarded HoldsWaiting (mainLoop inputs) := by
  have stays {m : Fw Unit} (reset : KeepsReset m) (waits : KeepsWaiting m)
      (unmarked : Moves Unmarked m) : Stays Guarded HoldsWaiting m := fun s held =>
    ((reset s held.reset).and ((waits s held.waits).and (unmarked s))).mono
      (fun _ _ ends => ⟨ends.1, ends.2.1, settled_unmarked ends.2.2 held.settled⟩)
      fun _ cut => cut.2.1
  have usb : KeepsReset usbUsbTask := .of_moves usbUsbTask_served
    (fun _ _ served => resetInvariant_of_streamed (.of_served served)) fun _ => id
  exact mainLoop_stays inputs
    (fun _ _ _ held => ⟨⟨held.reset.pending, held.reset.log⟩,
      held.waits.unrecorded rfl rfl rfl, held.settled⟩)
    (mainIteration_stays (stays usb usbUsbTask_waiting usbUsbTask_unmarked)
      (stays vueTask_keepsReset vueTask_waiting vueTask_unmarked) resetBlock_guarded)

theorem Started.guarded {w : World} (started : Started w) : Guarded w := by
  have reset := started.resetInvariant
  obtain ⟨_, _, _, _, _, rfl⟩ := started
  refine ⟨reset, ⟨fun _ => rfl, fun data waits => ?_, trivial⟩, fun flushed => ?_⟩
  · cases waits
  · cases flushed

/-- Until `VUE_Task` finds a packet, or the host has it removed, nothing drops it; and it is
found in state IDLE. -/
def KeptUntilFound (later : List Event) : Prop :=
  ∀ newer e mid, later = newer ++ e :: mid → (∀ f ∈ mid, f.decides = false) → e.drops = false

/-- A packet that has been accepted into an emptied bank is waiting until that is decided. -/
theorem waiting_since {mid past : List Event} {data : List Byte}
    (history : History Undropped (mid ++ .packet data :: past)) (flushed : emptied past = true)
    (undecided : ∀ e ∈ mid, e.decides = false) :
    waiting (mid ++ .packet data :: past) = some data := by
  induction mid with
  | nil =>
      have first : waiting past = none := by
        by_contra waits
        cases history.1 waits
      rw [List.nil_append, waiting, first]
      exact if_pos flushed
  | cons e mid ih =>
      have waits := ih history.2 fun f member => undecided f (List.mem_cons_of_mem _ member)
      have kept : e.drops = false :=
        history.1 (ne_of_eq_of_ne waits (Option.some_ne_none data))
      rw [List.cons_append, waiting_neutral ⟨undecided e (List.mem_cons_self ..), kept⟩, waits]

/-- **A packet that comes after the reset is kept**, if it comes after the reset block has
emptied the OUT bank: in every run it stays in the bank until `VUE_Task` finds it, and it is
found in state IDLE. -/
theorem reset_keeps_packet {start : World} (started : Started start) (inputs : List Input)
    {later past : List Event} {data : List Byte}
    (log : (mainLoop inputs start).state.log = later ++ .packet data :: past)
    (flushed : emptied past = true) :
    KeptUntilFound later ∧
      ((∀ e ∈ later, e.decides = false) →
        (mainLoop inputs start).state.usb.outBank = some data) := by
  have held := (mainLoop_guarded inputs).exit (fun _ held => held.waits) started.guarded
  have history := held.history
  rw [log] at history
  refine ⟨fun newer e mid split undecided => ?_, fun undecided => held.there data ?_⟩
  · rw [split, List.append_assoc, List.cons_append] at history
    have here := history.suffix
    have waits := waiting_since here.2 flushed undecided
    exact here.1 (ne_of_eq_of_ne waits (Option.some_ne_none data))
  · rw [log]
    exact waiting_since history flushed undecided

/-! ## A command right after the acknowledgement -/

/-- A reset has been requested, and the host has not been told yet that it is over. -/
def unacknowledged : List Event → Bool
  | [] => false
  | .resetRequest :: _ => true
  | .request _ _ _ :: _ | .reply _ :: _ => false
  | _ :: log => unacknowledged log

/-- The status stage of a request to reset is over, and `VUE_Task` has not found anything
since. -/
def acknowledged : List Event → Bool
  | [] => false
  | .resetRequest :: _ | .outReceived _ :: _ => false
  | .reply _ :: log => unacknowledged log || acknowledged log
  | _ :: log => acknowledged log

/-- The device is configured and then reset; the host sends a command after some looks of
the reset block at the hardware. -/
def resettingInputs (looks : Nat) : List Input :=
  [configuringInput,
    ⟨plainCartridge,
      ⟨[], false⟩ :: (quietMoments looks ++ ⟨[.sendOut wordBytes], false⟩ :: quietMoments 4),
      [some resetTransfer]⟩]

def resettingEnd (looks : Nat) : World := (mainLoop (resettingInputs looks) wordStart).state

theorem resettingEnd_eq (looks : Nat) :
    (mainLoop (resettingInputs looks) wordStart).state = resettingEnd looks := rfl

theorem resettingEnd_packet (looks i : Nat)
    (sent : ((resettingEnd looks).log[i]?.bind Event.sent) = some wordBytes.val) :
    (mainLoop (resettingInputs looks) wordStart).state.log =
      (resettingEnd looks).log.take i ++
        .packet wordBytes.val :: (resettingEnd looks).log.drop (i + 1) := by
  obtain ⟨e, entry, sent⟩ := Option.bind_eq_some_iff.mp sent
  obtain rfl : e = .packet wordBytes.val := by
    cases e <;> cases sent
    rfl
  rw [resettingEnd_eq]
  exact log_split entry

/-- The command comes when the reset block looks at the hardware for the second time. -/
theorem reset_keeps_packet_command :
    (resettingEnd 1).usb.outBank = some wordBytes.val := by
  have log := resettingEnd_packet 1 1 (by decide +kernel)
  have kept := (reset_keeps_packet wordStart_started (resettingInputs 1) log (by decide +kernel)).2
    (by decide +kernel)
  rw [resettingEnd_eq] at kept
  exact kept

/-- The command comes when the reset block looks at the hardware for the first time, after
the status stage of the request. -/
theorem reset_drops_packet :
    ¬ ∀ (start : World) (inputs : List Input) (later past : List Event) (data : List Byte),
      Started start → (mainLoop inputs start).state.log = later ++ .packet data :: past →
      acknowledged past = true → KeptUntilFound later := by
  intro claim
  have log := resettingEnd_packet 0 3 (by decide +kernel)
  have kept := claim _ _ _ _ _ wordStart_started log (by decide +kernel)
  have dropped : ((resettingEnd 0).log.take 3)[2]?.map Event.drops = some true := by
    decide +kernel
  obtain ⟨e, entry, drops⟩ := Option.map_eq_some_iff.mp dropped
  have mid : ((resettingEnd 0).log.take 3).drop 3 = [] := List.drop_eq_nil_of_le (by
    rw [List.length_take]
    exact Nat.min_le_left _ _)
  have split := log_split entry
  rw [kept _ e _ split (by rw [mid]; exact List.forall_mem_nil _)] at drops
  exact absurd drops Bool.false_ne_true

end VueCartReader
