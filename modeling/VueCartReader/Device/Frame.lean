import VueCartReader.Device.Task

/-!
# What the USB side leaves alone

An endpoint operation changes the controller and appends to the log, nothing else
(`Framed`). So does the library while it processes a request; only the vendor
requests reach the variables and the board (`Served`).
-/

set_option autoImplicit false

namespace VueCartReader

open Program

/-! ## Occurrences in a log -/

/-- What a log holds of some kind of event, oldest first. -/
def occurrences {α : Type} (kind : Event → Option α) (log : List Event) : List α :=
  (log.filterMap kind).reverse

section Occurrences

variable {α : Type} (kind : Event → Option α)

@[simp] theorem occurrences_nil : occurrences kind [] = [] := rfl

theorem occurrences_cons (e : Event) (log : List Event) :
    occurrences kind (e :: log) = occurrences kind log ++ (kind e).toList := by
  unfold occurrences
  cases found : kind e <;> simp [found]

/-- What is newer comes last. -/
theorem occurrences_append (newer older : List Event) :
    occurrences kind (newer ++ older) = occurrences kind older ++ occurrences kind newer := by
  simp [occurrences]

theorem occurrences_eq_nil {log : List Event} (none_ : ∀ e ∈ log, kind e = none) :
    occurrences kind log = [] := by
  rw [occurrences, List.filterMap_eq_nil_iff.mpr none_, List.reverse_nil]

/-- An occurrence comes from an entry of the log. -/
theorem mem_occurrences {kind : Event → Option α} {log : List Event} {x : α}
    (member : x ∈ occurrences kind log) :
    ∃ later e earlier, log = later ++ e :: earlier ∧ kind e = some x := by
  rw [occurrences, List.mem_reverse, List.mem_filterMap] at member
  obtain ⟨e, inside, found⟩ := member
  obtain ⟨later, earlier, split⟩ := List.append_of_mem inside
  exact ⟨later, e, earlier, split, found⟩

end Occurrences

/-- A log around one of its entries. -/
theorem log_split {log : List Event} {i : Nat} {e : Event} (entry : log[i]? = some e) :
    log = log.take i ++ e :: log.drop (i + 1) := by
  obtain ⟨less, rfl⟩ := List.getElem?_eq_some_iff.mp entry
  rw [← List.drop_eq_getElem_cons less, List.take_append_drop]

/-! ## Histories -/

/-- Every event stands in a relation to the events before it. -/
def History (P : Event → List Event → Prop) : List Event → Prop
  | [] => True
  | e :: log => P e log ∧ History P log

namespace History

variable {P : Event → List Event → Prop} {log : List Event}

/-- Any entry stands in the relation to what is before it. -/
theorem split (h : History P log) {later earlier : List Event} {e : Event}
    (eq : log = later ++ e :: earlier) : P e earlier := by
  induction later generalizing log with
  | nil =>
      subst eq
      exact h.1
  | cons first later ih =>
      subst eq
      exact ih h.2 rfl

theorem suffix {later : List Event} (h : History P (later ++ log)) : History P log := by
  induction later with
  | nil => exact h
  | cons _ _ ih => exact ih h.2

theorem append (h : History P log) {new : List Event}
    (each : ∀ later e earlier, new = later ++ e :: earlier → P e (earlier ++ log)) :
    History P (new ++ log) := by
  induction new with
  | nil => exact h
  | cons e new ih =>
      exact ⟨each [] e new rfl, ih fun later f earlier eq =>
        each (e :: later) f earlier (by rw [eq]; rfl)⟩

/-- New events whose relation to the past holds whatever the past is. -/
theorem append_of_forall (h : History P log) {new : List Event}
    (each : ∀ e ∈ new, ∀ past, P e past) : History P (new ++ log) :=
  h.append fun _ e _ eq => each e (by simp [eq]) _

end History

/-- The log has grown by events of a kind. -/
def Logs (kind : Event → Prop) (s t : World) : Prop :=
  ∃ new, t.log = new ++ s.log ∧ ∀ e ∈ new, kind e

namespace Logs

variable {kind : Event → Prop}

theorem refl (s : World) : Logs kind s s := ⟨[], rfl, List.forall_mem_nil _⟩

theorem trans {s t u : World} (one : Logs kind s t) (two : Logs kind t u) : Logs kind s u := by
  obtain ⟨first, log, all⟩ := one
  obtain ⟨second, log', all'⟩ := two
  refine ⟨second ++ first, by rw [log', log, List.append_assoc], fun e member => ?_⟩
  rcases List.mem_append.mp member with late | early
  · exact all' e late
  · exact all e early

instance : IsPreorder World (Logs kind) where
  refl := refl
  trans _ _ _ := trans

theorem one {s t : World} {e : Event} (log : t.log = e :: s.log) (ok : kind e) : Logs kind s t :=
  ⟨[e], log, fun _ member => by rwa [List.mem_singleton.mp member]⟩

theorem none {s t : World} (log : t.log = s.log) : Logs kind s t :=
  ⟨[], log, List.forall_mem_nil _⟩

theorem mono {kind' : Event → Prop} {s t : World} (h : Logs kind s t)
    (weaker : ∀ e, kind e → kind' e) : Logs kind' s t := by
  obtain ⟨new, log, all⟩ := h
  exact ⟨new, log, fun e member => weaker e (all e member)⟩

end Logs

/-- What events of a kind leave alone one by one, they leave alone together. -/
theorem append_of_cons {α : Type} {f : List Event → α} {kind : Event → Prop}
    (each : ∀ e : Event, kind e → ∀ log, f (e :: log) = f log) {new : List Event}
    (all : ∀ e ∈ new, kind e) (log : List Event) : f (new ++ log) = f log := by
  induction new with
  | nil => rfl
  | cons e new ih =>
      rw [List.cons_append, each e (all e (List.mem_cons_self ..))]
      exact ih fun f member => all f (List.mem_cons_of_mem _ member)

/-! ## Frames -/

/-- The events of the endpoints, but for the bytes that are moved. -/
def Event.ofUsb : Event → Bool
  | .packet _ | .collect _ | .interrupt _ | .refuse | .commit _ | .free _ _ | .stall _
  | .operate _ _ | .reply _ | .statusStage | .configurationChanged => true
  | _ => false

/-- Only the controller, the script of moments and the log have changed, the log by
events of a kind. -/
structure Framed (kind : Event → Prop) (s t : World) : Prop where
  board : t.board = s.board
  vars : t.vars = s.vars
  setups : t.setups = s.setups
  log : Logs kind s t

/-- The kind of events that the endpoint operations record. -/
abbrev OfUsb (e : Event) : Prop := e.ofUsb = true

namespace Framed

variable {kind : Event → Prop}

theorem refl (s : World) : Framed kind s s := ⟨rfl, rfl, rfl, .refl s⟩

theorem trans {s t u : World} (one : Framed kind s t) (two : Framed kind t u) :
    Framed kind s u :=
  ⟨two.board.trans one.board, two.vars.trans one.vars, two.setups.trans one.setups,
    one.log.trans two.log⟩

instance : IsPreorder World (Framed kind) where
  refl := refl
  trans _ _ _ := trans

/-- One event is recorded. -/
theorem one {s t : World} (board : t.board = s.board) (vars : t.vars = s.vars)
    (setups : t.setups = s.setups) {e : Event} (log : t.log = e :: s.log) (ok : kind e) :
    Framed kind s t := ⟨board, vars, setups, .one log ok⟩

/-- Nothing is recorded. -/
theorem none {s t : World} (board : t.board = s.board) (vars : t.vars = s.vars)
    (setups : t.setups = s.setups) (log : t.log = s.log) : Framed kind s t :=
  ⟨board, vars, setups, .none log⟩

end Framed

/-! ## Endpoint operations -/

theorem note_framed {e : Event} (ok : e.ofUsb = true) : Moves (Framed OfUsb) (note e) :=
  Moves.modify fun _ => .one rfl rfl rfl rfl ok

theorem onUsb_framed (f : Usb → Usb) : Moves (Framed OfUsb) (onUsb f) :=
  Moves.modify fun _ => .none rfl rfl rfl rfl

theorem act_framed (w : World) (a : HostAct) : Framed OfUsb w (w.act a) := by
  cases a with
  | sendOut packet =>
      rw [World.act]
      split
      · exact .one rfl rfl rfl rfl rfl
      · exact .refl w
  | collectIn =>
      rw [World.act]
      split
      · exact .one rfl rfl rfl rfl rfl
      · exact .refl w
  | interrupt i => exact .one rfl rfl rfl rfl rfl

section Rules

variable {R : World → World → Prop} [IsPreorder World R]

/-- What each of the host's doings carries over is carried over by a moment. -/
theorem moment_moves
    (script : ∀ (w : World) (rest : List Moment), R w { w with script := rest })
    (act : ∀ (w : World) (a : HostAct), R w (w.act a)) : Moves R moment := by
  have pass (acts : List HostAct) : ∀ w : World, R w (acts.foldl World.act w) := by
    induction acts with
    | nil => exact fun w => Std.Refl.refl w
    | cons a rest ih => exact fun w => trans_of R (act w a) (ih (w.act a))
  intro w
  unfold wp moment
  cases w.script with
  | nil => exact Std.Refl.refl w
  | cons m rest => exact trans_of R (script w rest) (pass m.acts { w with script := rest })

/-- So it is by a look at the control endpoint, which lets interrupts come one after the other. -/
theorem controlPoll_moves
    (polls : ∀ (w : World) (rest : List ControlPoll),
      R w { w with usb := { w.usb with polls := rest } })
    (act : ∀ (w : World) (a : HostAct), R w (w.act a)) : Moves R controlPoll := by
  have interrupts (is : List UsbInterrupt) : ∀ w : World,
      R w { w with
        usb := is.foldl (fun u i => u.interrupted i) w.usb
        log := (is.map Event.interrupt).reverse ++ w.log } := by
    induction is with
    | nil => exact fun w => Std.Refl.refl w
    | cons i rest ih =>
        intro w
        have later := trans_of R (act w (.interrupt i)) (ih (w.act (.interrupt i)))
        rw [List.map_cons, List.reverse_cons, List.append_assoc]
        exact later
  intro w
  unfold wp controlPoll
  cases w.usb.polls with
  | nil => exact Std.Refl.refl w
  | cons p rest =>
      exact trans_of R (polls w rest)
        (interrupts p.interrupts { w with usb := { w.usb with polls := rest } })

/-- What the next request's arrival carries over. -/
theorem nextSetup_moves
    (setups : ∀ (w : World) (rest : List (Option ControlTransfer)), R w { w with setups := rest }) :
    Moves R nextSetup := by
  intro w
  unfold wp nextSetup
  cases w.setups with
  | nil => exact Std.Refl.refl w
  | cons _ rest => exact setups w rest

end Rules

/-- Whatever the host does at a moment, only the controller shows it. -/
theorem moment_framed : Moves (Framed OfUsb) moment :=
  moment_moves (fun _ _ => .none rfl rfl rfl rfl) act_framed

theorem endpointSelectEndpoint_framed (address : Nat) :
    Moves (Framed OfUsb) (endpointSelectEndpoint address) :=
  onUsb_framed _

theorem endpointIsOutReceived_framed : Moves (Framed OfUsb) endpointIsOutReceived :=
  moment_framed.bind fun _ => .bind .state fun _ => .pure _

theorem endpointIsInReady_framed : Moves (Framed OfUsb) endpointIsInReady :=
  moment_framed.bind fun _ => .bind .state fun _ => .pure _

theorem endpointIsReadWriteAllowed_framed : Moves (Framed OfUsb) endpointIsReadWriteAllowed :=
  moment_framed.bind fun _ => .ite
    (fun _ => (note_framed rfl).bind fun _ => .pure _)
    fun _ => .bind .state fun _ => .pure _

/-- Freeing a bank is recorded with what it held. -/
theorem freeOut_framed (by_ : Actor) : Moves (Framed OfUsb) (freeOut by_) :=
  Moves.modify fun w => by
    split
    · exact .one rfl rfl rfl rfl rfl
    · exact .refl w

theorem endpointClearOut_framed (by_ : Actor) : Moves (Framed OfUsb) (endpointClearOut by_) :=
  moment_framed.bind fun _ => .bind .state fun _ => .whenever fun _ => freeOut_framed by_

theorem endpointClearIn_framed : Moves (Framed OfUsb) endpointClearIn :=
  moment_framed.bind fun _ => Moves.modify fun w => by
    split
    · exact .one rfl rfl rfl rfl rfl
    · exact .refl w

theorem endpointResetEndpoint_framed (by_ : Actor) (address : Nat) :
    Moves (Framed OfUsb) (endpointResetEndpoint by_ address) :=
  moment_framed.bind fun _ => .ite (fun _ => freeOut_framed by_) fun _ =>
    .ite (fun _ => onUsb_framed _) fun _ => .pure _

theorem endpointStallTransaction_framed : Moves (Framed OfUsb) endpointStallTransaction :=
  moment_framed.bind fun _ => .bind .state fun _ => (note_framed rfl).bind fun _ => onUsb_framed _

theorem endpointClearStall_framed : Moves (Framed OfUsb) endpointClearStall :=
  moment_framed.bind fun _ => onUsb_framed _

theorem endpointAbortPendingIn_framed : Moves (Framed OfUsb) endpointAbortPendingIn :=
  moment_framed.bind fun _ => onUsb_framed _

/-- The configuration of the endpoints is one of the controller alone. -/
theorem configureBulkEndpoints_framed : Moves (Framed OfUsb) configureBulkEndpoints :=
  moment_framed.bind fun _ => onUsb_framed _

theorem endpointWaitUntilReady_framed : Moves (Framed OfUsb) endpointWaitUntilReady :=
  moment_framed.bind fun _ => .bind .state fun _ => .ite (fun _ => .pure _) fun _ =>
    moment_framed.bind fun _ => .bind .state fun _ => .pure _

theorem taskClearIn_framed : Moves (Framed OfUsb) taskClearIn :=
  .bind .state fun _ => (note_framed rfl).bind fun _ => endpointClearIn_framed

/-- A packet is refused without a look at the variables. -/
theorem refuseOut_framed : Moves (Framed OfUsb) refuseOut :=
  (endpointResetEndpoint_framed _ _).bind fun _ => .bind .state fun _ =>
    (note_framed rfl).bind fun _ => endpointStallTransaction_framed

/-- The IN bank is sent as it is. -/
theorem flushIn_framed : Moves (Framed OfUsb) flushIn :=
  endpointIsReadWriteAllowed_framed.bind fun _ => .ite (fun _ => .pure _) fun _ =>
    taskClearIn_framed.bind fun _ => endpointWaitUntilReady_framed.bind fun _ => .pure _

theorem clearEndpointStall_framed (address : Nat) :
    Moves (Framed OfUsb) (clearEndpointStall address) :=
  (endpointSelectEndpoint_framed address).bind fun _ => endpointClearStall_framed

/-! ## Control transfers -/

theorem controlPoll_framed : Moves (Framed OfUsb) controlPoll :=
  controlPoll_moves (fun _ _ => .none rfl rfl rfl rfl) act_framed

theorem controlIsSetupReceived_framed : Moves (Framed OfUsb) controlIsSetupReceived :=
  controlPoll_framed.bind fun _ => (onUsb_framed _).bind fun _ => .bind .state fun _ => .pure _

theorem controlClearSetup_framed : Moves (Framed OfUsb) controlClearSetup := onUsb_framed _

theorem controlWrite_framed (bytes : List Byte) : Moves (Framed OfUsb) (controlWrite bytes) :=
  onUsb_framed _

theorem controlClearIn_framed : Moves (Framed OfUsb) controlClearIn :=
  .bind .state fun _ => (note_framed rfl).bind fun _ => onUsb_framed _

theorem awaitStatusStage_framed (toHost : Bool) (looks : Nat) :
    Moves (Framed OfUsb) (awaitStatusStage toHost looks) := by
  induction looks with
  | zero => exact .stop
  | succ looks ih =>
      exact controlPoll_framed.bind fun p => .ite (fun _ => .pure _) fun _ =>
        .ite (fun _ => controlClearIn_framed) fun _ => .bind .state fun _ =>
          .ite (fun _ => .pure _) fun _ => ih

/-- The status stage ends at some look, or the run is cut there. -/
theorem endpointClearStatusStage_framed : Moves (Framed OfUsb) endpointClearStatusStage :=
  (note_framed rfl).bind fun _ => .bind .state fun _ => awaitStatusStage_framed _ _

theorem awaitControlOut_framed (looks : Nat) : Moves (Framed OfUsb) (awaitControlOut looks) := by
  induction looks with
  | zero => exact .stop
  | succ looks ih =>
      exact controlPoll_framed.bind fun p => .ite (fun _ => .pure _) fun _ =>
        .bind .state fun _ => .ite (fun _ => .pure _) fun _ => ih

theorem writeControlPackets_framed (looks : Nat) (data : List Byte) (lastPacketFull : Bool) :
    Moves (Framed OfUsb) (writeControlPackets looks data lastPacketFull) := by
  induction looks generalizing data lastPacketFull with
  | zero => exact .stop
  | succ looks ih =>
      refine .ite (fun _ => awaitControlOut_framed _) fun _ => .bind .state fun _ =>
        .ite (fun _ => .pure _) fun _ => controlIsSetupReceived_framed.bind fun _ =>
          .ite (fun _ => .pure _) fun _ => controlPoll_framed.bind fun _ =>
            .ite (fun _ => awaitControlOut_framed _) fun _ => controlPoll_framed.bind fun _ =>
              .ite (fun _ => ?_) fun _ => ih data lastPacketFull
      exact .bind .state fun _ => (controlWrite_framed _).bind fun _ => .bind .state fun _ =>
        controlClearIn_framed.bind fun _ => ih _ _

/-- However many packets the host collects, a data stage leaves the firmware alone. -/
theorem endpointWriteControlStream_framed (data : List Byte) :
    Moves (Framed OfUsb) (endpointWriteControlStream data) :=
  .bind .state fun _ => .bind (.whenever fun _ => controlClearIn_framed) fun _ =>
    writeControlPackets_framed _ _ _

theorem usbDeviceGetDescriptor_framed : Moves (Framed OfUsb) usbDeviceGetDescriptor := by
  refine .bind .state fun w => .ite (fun _ => ?_) fun _ => ?_
  · exact controlClearSetup_framed.bind fun _ => endpointWriteControlStream_framed _
  · cases callbackUsbGetDescriptor w.usb.controlRequest.wValue with
    | none => exact .pure _
    | some descriptor =>
        exact controlClearSetup_framed.bind fun _ => endpointWriteControlStream_framed _

theorem usbDeviceGetStatus_framed : Moves (Framed OfUsb) usbDeviceGetStatus :=
  .bind .state fun _ => .bind (.whenever fun _ => endpointSelectEndpoint_framed _) fun _ =>
    .bind .state fun _ => (endpointSelectEndpoint_framed _).bind fun _ =>
      controlClearSetup_framed.bind fun _ => (controlWrite_framed _).bind fun _ =>
        controlClearIn_framed.bind fun _ => endpointClearStatusStage_framed

theorem usbDeviceClearSetFeature_framed : Moves (Framed OfUsb) usbDeviceClearSetFeature := by
  have rest : Moves (Framed OfUsb) (do
      endpointSelectEndpoint endpointControlEp
      controlClearSetup
      endpointClearStatusStage) :=
    (endpointSelectEndpoint_framed _).bind fun _ => controlClearSetup_framed.bind fun _ =>
      endpointClearStatusStage_framed
  refine .bind .state fun _ => .ite (fun _ => .ite (fun _ => .ite (fun _ => .pure _) fun _ => ?_)
    fun _ => rest) fun _ => .pure _
  refine (endpointSelectEndpoint_framed _).bind fun _ => .bind .state fun _ =>
    .bind (.whenever fun _ => .ite (fun _ => endpointStallTransaction_framed) fun _ => ?_)
      fun _ => rest
  exact endpointClearStall_framed.bind fun _ => endpointResetEndpoint_framed _ _

theorem awaitInReady_framed (looks : Nat) : Moves (Framed OfUsb) (awaitInReady looks) := by
  induction looks with
  | zero => exact .stop
  | succ looks ih => exact controlPoll_framed.bind fun _ => .ite (fun _ => .pure _) fun _ => ih

theorem usbDeviceSetAddress_framed : Moves (Framed OfUsb) usbDeviceSetAddress :=
  .bind .state fun _ => controlClearSetup_framed.bind fun _ =>
    endpointClearStatusStage_framed.bind fun _ => .bind .state fun _ =>
      (awaitInReady_framed _).bind fun _ => onUsb_framed _

theorem usbDeviceGetConfiguration_framed : Moves (Framed OfUsb) usbDeviceGetConfiguration :=
  controlClearSetup_framed.bind fun _ => .bind .state fun _ =>
    (controlWrite_framed _).bind fun _ => controlClearIn_framed.bind fun _ =>
      endpointClearStatusStage_framed

/-- Not even a new configuration reaches the variables. -/
theorem usbDeviceSetConfiguration_framed : Moves (Framed OfUsb) usbDeviceSetConfiguration :=
  .bind .state fun _ => .ite (fun _ => .pure _) fun _ => controlClearSetup_framed.bind fun _ =>
    (onUsb_framed _).bind fun _ => endpointClearStatusStage_framed.bind fun _ =>
      (onUsb_framed _).bind fun _ => configureBulkEndpoints_framed.bind fun _ => note_framed rfl

/-- No standard request reaches the variables or the board. -/
theorem usbDeviceStandardRequest_framed : Moves (Framed OfUsb) usbDeviceStandardRequest :=
  .bind .state fun _ =>
    .ite (fun _ => .whenever fun _ => usbDeviceGetStatus_framed) fun _ =>
    .ite (fun _ => .whenever fun _ => usbDeviceClearSetFeature_framed) fun _ =>
    .ite (fun _ => .whenever fun _ => usbDeviceSetAddress_framed) fun _ =>
    .ite (fun _ => .whenever fun _ => usbDeviceGetDescriptor_framed) fun _ =>
    .ite (fun _ => .whenever fun _ => usbDeviceGetConfiguration_framed) fun _ =>
      .whenever fun _ => usbDeviceSetConfiguration_framed

end VueCartReader
