import VueCartReader.Device.Bus

/-!
# What `USB_USBTask` does

A call of `USB_USBTask` serves at most one control request. Whatever the request is,
of the variables only `bulk_reset` and the two of the header reader change, and the
board is as before or as the header reader leaves it (`Served`).
-/

set_option autoImplicit false

namespace VueCartReader

open Program

/-- The bus can be used: the board rests, at most one chip is selected, and the header
reader has its flags. -/
structure World.BusReady (w : World) : Prop where
  resting : w.board.Resting
  selects : oneSelect w.board.flagLatch = true
  header : HeaderReady w.vars.address

theorem World.BusReady.safe {w : World} (ready : w.BusReady) : w.board.Safe :=
  Board.safe_of_idle ready.resting.idle ready.selects

/-- The events of a control request. -/
def Event.ofControl : Event → Bool
  | .request _ _ _ | .resetRequest | .port .control _ _ => true
  | e => e.ofUsb

/-- `bulk_reset` is set in a piece of log. -/
def resetRequested (log : List Event) : Bool :=
  log.any fun e => match e with
    | .resetRequest => true
    | _ => false

/-- A request is found in the newer or in the older part. -/
theorem resetRequested_append (newer older : List Event) :
    resetRequested (newer ++ older) = (resetRequested newer || resetRequested older) :=
  List.any_append

theorem resetRequested_eq_false {log : List Event} (none_ : ∀ e ∈ log, e ≠ .resetRequest) :
    resetRequested log = false := by
  simp only [resetRequested, List.any_eq_false]
  intro e member
  have other := none_ e member
  cases e <;> simp_all

/-- What serving a control request changes. -/
structure Served (s t : World) : Prop where
  vars : ∃ reset address myBuffer, t.vars =
    { s.vars with bulkReset := reset, address := address, myBuffer := myBuffer }
  log : ∃ new, t.log = new ++ s.log ∧ (∀ e ∈ new, e.ofControl = true) ∧
    t.vars.bulkReset = (if resetRequested new then 0xFFFFFFFF#32 else s.vars.bulkReset) ∧
    (s.BusReady → ∀ e ∈ new, e.BusSafe)
  ready : s.BusReady → t.BusReady
  board : s.BusReady → t.board = s.board ∨ t.board = s.board.addressed headerEnd

namespace Served

theorem refl (s : World) : Served s s where
  vars := ⟨_, _, _, rfl⟩
  log := ⟨[], rfl, List.forall_mem_nil _, rfl, fun _ => List.forall_mem_nil _⟩
  ready := id
  board _ := .inl rfl

theorem trans {s t u : World} (one : Served s t) (two : Served t u) : Served s u := by
  obtain ⟨first, log, all, reset, safe⟩ := one.log
  obtain ⟨second, log', all', reset', safe'⟩ := two.log
  refine ⟨?_, ⟨second ++ first, by rw [log', log, List.append_assoc], fun e member => ?_, ?_,
    fun ready e member => ?_⟩, two.ready ∘ one.ready, fun ready => ?_⟩
  · obtain ⟨_, _, _, vars⟩ := one.vars
    obtain ⟨reset, address, myBuffer, vars'⟩ := two.vars
    exact ⟨reset, address, myBuffer, by rw [vars', vars]⟩
  · rcases List.mem_append.mp member with late | early
    · exact all' e late
    · exact all e early
  · rw [reset', reset, resetRequested_append]
    cases resetRequested second <;> simp
  · rcases List.mem_append.mp member with late | early
    · exact safe' (one.ready ready) e late
    · exact safe ready e early
  · rcases two.board (one.ready ready) with same | read
    · rw [same]
      exact one.board ready
    · refine .inr ?_
      rw [read]
      rcases one.board ready with same | read
      · rw [same]
      · rw [read]
        rfl

instance : IsPreorder World Served where
  refl := refl
  trans _ _ _ := trans

theorem of_framed {s t : World} (framed : Framed OfUsb s t) : Served s t := by
  obtain ⟨new, log, all⟩ := framed.log
  refine ⟨⟨_, _, _, framed.vars⟩, ⟨new, log, fun e member => ?_, ?_, fun _ e member => ?_⟩,
    fun ready => ?_, fun _ => .inl framed.board⟩
  · have ok := all e member
    cases e <;> first | exact ok | exact nomatch ok
  · rw [framed.vars, resetRequested_eq_false fun e member isReset => by
      have ok := all e member
      rw [isReset] at ok
      exact nomatch ok]
    rfl
  · have ok := all e member
    cases e <;> trivial
  · exact ⟨by rw [framed.board]; exact ready.resting, by rw [framed.board]; exact ready.selects,
      by rw [framed.vars]; exact ready.header⟩

end Served

/-- What only the USB side does serves a request, too. -/
theorem served_of_framed {α : Type} {m : Fw α} (framed : Moves (Framed OfUsb) m) :
    Moves Served m := framed.mono fun _ _ => Served.of_framed

theorem requestReset_served : Moves Served requestReset :=
  Moves.modify fun s =>
    { vars := ⟨_, s.vars.address, s.vars.myBuffer, rfl⟩
      log := ⟨[.resetRequest], rfl, fun _ member => by rw [List.mem_singleton.mp member]; rfl, rfl,
        fun _ _ member => by rw [List.mem_singleton.mp member]; trivial⟩
      ready := fun ready => ⟨ready.resting, ready.selects, ready.header⟩
      board := fun _ => .inl rfl }

theorem serveReadHeader_served : Moves Served serveReadHeader :=
  Moves.modify fun s =>
    { vars := ⟨s.vars.bulkReset, _, _, rfl⟩
      log := by
        refine ⟨_, rfl, fun e member => ?_, ?_, fun ready => ?_⟩
        · obtain ⟨before, after, rfl⟩ := portEvents_kind _ _ _ e member
          rfl
        · rw [resetRequested_eq_false fun e member isReset => by
            obtain ⟨before, after, port⟩ := portEvents_kind _ _ _ e member
            exact nomatch port.symm.trans isReset]
          rfl
        · exact (readHeader_spec ready.resting ready.selects ready.header
            s.vars.myBuffer).1.portEvents_safe .control ready.safe
      ready := fun ready => by
        obtain ⟨run, board, address, -⟩ :=
          readHeader_spec ready.resting ready.selects ready.header s.vars.myBuffer
        refine ⟨run.resting, ?_, ?_⟩
        · show oneSelect
            (readHeader ⟨s.board, []⟩ s.vars.address s.vars.myBuffer).rig.board.flagLatch
            = true
          rw [board]
          show oneSelect (flagBits headerEnd) = true
          decide
        · show HeaderReady (readHeader ⟨s.board, []⟩ s.vars.address s.vars.myBuffer).address
          rw [address]
          exact headerReady_end
      board := fun ready => .inr
        (readHeader_spec ready.resting ready.selects ready.header s.vars.myBuffer).2.1 }

/-! ## Rules for the handlers -/

section Rules

variable {R : World → World → Prop} [IsPreorder World R] (framed : ∀ s t, Framed OfUsb s t → R s t)
include framed

/-- What the parts of the vendor requests carry over is carried over by their handler. -/
theorem eventUsbDeviceControlRequest_moves (reset : Moves R requestReset)
    (header : Moves R serveReadHeader) : Moves R eventUsbDeviceControlRequest := by
  have status := endpointClearStatusStage_framed.mono framed
  have clear := controlClearSetup_framed.mono framed
  refine .bind .state fun w => .ite (fun _ => clear.bind fun _ => ?_) fun _ =>
    .ite (fun _ => clear.bind fun _ => ?_) fun _ => .pure _
  · refine .ite (fun _ => status.bind fun _ => .stop) fun _ => ?_
    exact .bind (.whenever fun _ => reset) fun _ => .bind (.whenever fun _ => reset) fun _ => status
  · have answer : Moves R (state >>= fun w : World =>
        endpointWriteControlStream w.vars.myBuffer.toList) :=
      .bind .state fun w => (endpointWriteControlStream_framed _).mono framed
    have debug := (endpointWriteControlStream_framed [0xDE#8, 0xAD#8, 0xBE#8, 0xEF#8]).mono framed
    refine .bind ?_ fun _ => .bind ?_ fun _ => status
    · exact .whenever fun _ => .bind header fun _ => answer
    · exact .whenever fun _ => debug

/-- So it is by the handling of a SETUP packet. -/
theorem serveSetup_moves (process : Moves R usbDeviceProcessControlRequest)
    (setup : Option ControlTransfer) : Moves R (serveSetup setup) := by
  cases setup with
  | none => exact .pure _
  | some transfer => exact ((onUsb_framed _).mono framed).bind fun _ => process

/-- What serving a request carries over is carried over by the task of the library. -/
theorem usbUsbTask_moves
    (setups : ∀ (w : World) (rest : List (Option ControlTransfer)), R w { w with setups := rest })
    (process : Moves R usbDeviceProcessControlRequest) : Moves R usbUsbTask := by
  have select (address : Nat) := (endpointSelectEndpoint_framed address).mono framed
  exact (moment_framed.mono framed).bind fun _ => .bind .state fun _ =>
    .ite (fun _ => .pure _) fun _ => (select _).bind fun _ =>
      (nextSetup_moves setups).bind fun setup =>
        (serveSetup_moves framed process setup).bind fun _ => select _

end Rules

/-- What follows the vendor requests concerns the controller alone. -/
theorem standardRequests_framed : Moves (Framed OfUsb) (do
    whenever (← controlIsSetupReceived) usbDeviceStandardRequest
    whenever (← controlIsSetupReceived) do
      controlClearSetup
      controlStallTransaction) :=
  controlIsSetupReceived_framed.bind fun _ =>
    .bind (.whenever fun _ => usbDeviceStandardRequest_framed) fun _ =>
      controlIsSetupReceived_framed.bind fun _ => .whenever fun _ =>
        controlClearSetup_framed.bind fun _ => note_framed rfl

theorem eventUsbDeviceControlRequest_served : Moves Served eventUsbDeviceControlRequest :=
  eventUsbDeviceControlRequest_moves (fun _ _ => Served.of_framed) requestReset_served
    serveReadHeader_served

theorem noteRequest_served (header : UsbRequestHeader) (s : FsmState) (address : BitVec 32) :
    Moves Served (note (.request header s address)) :=
  Moves.modify fun s =>
    { vars := ⟨_, _, _, rfl⟩
      log := ⟨[.request header _ _], rfl, fun _ member => by rw [List.mem_singleton.mp member]; rfl,
        rfl, fun _ _ member => by rw [List.mem_singleton.mp member]; trivial⟩
      ready := fun ready => ⟨ready.resting, ready.selects, ready.header⟩
      board := fun _ => .inl rfl }

theorem usbDeviceProcessControlRequest_served : Moves Served usbDeviceProcessControlRequest :=
  .bind .state fun _ => (noteRequest_served _ _ _).bind fun _ =>
    eventUsbDeviceControlRequest_served.bind fun _ => served_of_framed standardRequests_framed

theorem serveSetup_served (setup : Option ControlTransfer) : Moves Served (serveSetup setup) :=
  serveSetup_moves (fun _ _ => Served.of_framed) usbDeviceProcessControlRequest_served setup

theorem setups_served (w : World) (rest : List (Option ControlTransfer)) :
    Served w { w with setups := rest } where
  vars := ⟨_, _, _, rfl⟩
  log := ⟨[], rfl, List.forall_mem_nil _, rfl, fun _ => List.forall_mem_nil _⟩
  ready ready := ⟨ready.resting, ready.selects, ready.header⟩
  board _ := .inl rfl

/-- So does the whole task of the library. -/
theorem usbUsbTask_served : Moves Served usbUsbTask :=
  usbUsbTask_moves (fun _ _ => Served.of_framed) setups_served usbDeviceProcessControlRequest_served

/-! ## The requests that matter to the bus -/

/-- The control request whose processing an event records. -/
def Event.requested : Event → Option (UsbRequestHeader × BitVec 32)
  | .request header _ address => some (header, address)
  | _ => none

/-- The world in which a SETUP packet has been acknowledged. -/
def World.acknowledged (s : World) : World :=
  { s with usb := { s.usb with setupReceived := false } }

/-- A request to reset sets `bulk_reset`, and then there is only the status stage. -/
theorem eventUsbDeviceControlRequest_of_resets {s : World}
    (resets : s.usb.controlRequest.resets = true) :
    eventUsbDeviceControlRequest s = endpointClearStatusStage
      { s.acknowledged with
        vars := { s.vars with bulkReset := 0xFFFFFFFF#32 }, log := .resetRequest :: s.log } := by
  simp only [UsbRequestHeader.resets, Bool.and_eq_true, Bool.or_eq_true, beq_iff_eq] at resets
  obtain ⟨toDevice, all | ⟨debug, zero⟩⟩ := resets
  · have other : reqResetAll ≠ reqEnterBootloader ∧ reqResetAll ≠ reqWriteDebug := by decide
    rw [eventUsbDeviceControlRequest, state_bind, if_pos toDevice, all, if_neg other.1, whenever,
      whenever, if_pos rfl, if_neg fun both => other.2 both.1]
    rfl
  · have other : reqWriteDebug ≠ reqEnterBootloader ∧ reqWriteDebug ≠ reqResetAll := by decide
    rw [eventUsbDeviceControlRequest, state_bind, if_pos toDevice, debug, if_neg other.1, whenever,
      whenever, if_neg other.2, if_pos ⟨rfl, zero⟩]
    rfl

/-- A request for the header reads it, sends it, and then there is only the status stage. -/
theorem eventUsbDeviceControlRequest_of_readsHeader {s : World}
    (reads : s.usb.controlRequest.readsHeader = true) :
    eventUsbDeviceControlRequest s = (do
      serveReadHeader
      endpointWriteControlStream (← state).vars.myBuffer.toList
      endpointClearStatusStage) s.acknowledged := by
  simp only [UsbRequestHeader.readsHeader, Bool.and_eq_true, beq_iff_eq] at reads
  obtain ⟨toHost, header⟩ := reads
  have other : vendorToHost ≠ vendorToDevice ∧ reqReadHeader ≠ reqReadDebug := by decide
  rw [eventUsbDeviceControlRequest, state_bind, toHost, if_neg other.1, if_pos rfl, header,
    whenever, whenever, if_pos rfl, if_neg other.2]
  rfl

end VueCartReader
