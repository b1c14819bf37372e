import VueCartReader.Device.Service

/-!
# A rule for `USB_USBTask`

A property of pieces of the firmware that their composition keeps is one of `USB_USBTask` if the
parts of a control transfer have it (`RequestParts.usbUsbTask`). In particular, what the parts
carry over is carried over by `USB_USBTask` (`RequestPartsKeep.usbUsbTask`). Of the parts, only a
few reach the bulk endpoints: a moment, the interrupts at a look at the control endpoint, and the
requests that stall, reset or configure an endpoint.
-/

set_option autoImplicit false

namespace VueCartReader

open Program

/-- The bulk endpoints and the selection are as before. -/
structure Usb.SameBulk (u v : Usb) : Prop where
  selected : v.selected = u.selected
  enabled : v.enabled = u.enabled
  outBank : v.outBank = u.outBank
  outStalled : v.outStalled = u.outStalled
  inBank : v.inBank = u.inBank
  inBusy : v.inBusy = u.inBusy
  inStalled : v.inStalled = u.inStalled

/-- What the processing of a request records, but for interrupts and the accesses to the
bus. -/
def Event.ofRequest : Event → Bool
  | .request _ _ _ | .statusStage | .reply _ | .stall _ | .configurationChanged => true
  | _ => false

/-- What is recorded apart from the configuration of the endpoints. -/
def Event.ofPart : Event → Bool
  | .request _ _ _ | .statusStage | .reply _ | .stall _ => true
  | _ => false

/-! ## The rule -/

/-- A property of pieces of the firmware that every composition of them has, too. -/
structure Composes (P : ∀ ⦃α : Type⦄, Fw α → Prop) : Prop where
  ret : ∀ {α : Type} (a : α), P (pure a : Fw α)
  bind : ∀ {α β : Type} {m : Fw α} {f : α → Fw β}, P m → (∀ a, P (f a)) → P (m >>= f)
  stop : ∀ {α : Type}, P (stop : Fw α)

namespace Composes

variable {P : ∀ ⦃α : Type⦄, Fw α → Prop}

theorem ite {α : Type} (_ : Composes P) {c : Prop} [Decidable c] {m n : Fw α}
    (onTrue : c → P m) (onFalse : ¬ c → P n) : P (if c then m else n) := by
  by_cases h : c
  · rw [if_pos h]
    exact onTrue h
  · rw [if_neg h]
    exact onFalse h

theorem whenever (composes : Composes P) {c : Prop} [Decidable c] {m : Fw Unit}
    (onTrue : c → P m) : P (whenever c m) :=
  composes.ite onTrue fun _ => composes.ret ()

end Composes

/-- Such a property of the parts of a control transfer. The code between the parts looks at the
controller, and not at the variables or at the log; what is put into the bank of the control
endpoint is committed at once. -/
structure RequestParts (P : ∀ ⦃α : Type⦄, Fw α → Prop) : Prop extends Composes P where
  look : ∀ {α : Type} {k : World → Fw α}, (∀ w v l, k { w with vars := v, log := l } = k w) →
    (∀ w, P (k w)) → P (state >>= k)
  moment : P moment
  setup : P nextSetup
  select : ∀ address, P (endpointSelectEndpoint address)
  poll : P controlPoll
  apart : ∀ f : Usb → Usb, (∀ u : Usb, u.SameBulk (f u)) →
    (∀ u : Usb, (f u).controlBank = u.controlBank) → P (onUsb f)
  send : ∀ {α : Type} (bytes : List Byte) {k : Bool → Fw α}, (∀ full, P (k full)) → P (do
    controlWrite bytes
    let full := (← state).usb.controlBank.length == fixedControlEndpointSize
    controlClearIn
    k full)
  clearIn : P controlClearIn
  note : ∀ e : Event, e.ofPart = true → P (note e)
  request : P (state >>= fun w : World =>
    VueCartReader.note (.request w.usb.controlRequest w.vars.curVueState w.vars.bulkAddress))
  header : ∀ {α : Type} {k : List Byte → Fw α}, (∀ data, P (k data)) → P (do
    serveReadHeader
    k (← state).vars.myBuffer.toList)
  reset : P requestReset
  stall : P endpointStallTransaction
  clearStall : P endpointClearStall
  resetEndpoint : ∀ address, P (endpointResetEndpoint .control address)
  configured : P eventUsbDeviceConfigurationChanged

namespace RequestParts

variable {P : ∀ ⦃α : Type⦄, Fw α → Prop} (parts : RequestParts P)
include parts

theorem clearSetup : P controlClearSetup :=
  parts.apart _ (by exact fun _ => ⟨rfl, rfl, rfl, rfl, rfl, rfl, rfl⟩) (by exact fun _ => rfl)

theorem isSetupReceived : P controlIsSetupReceived := by
  refine parts.bind parts.poll fun p => parts.bind (parts.apart _ ?_ ?_) fun _ =>
    parts.look (fun _ _ _ => rfl) fun _ => parts.ret _
  · exact fun _ => ⟨rfl, rfl, rfl, rfl, rfl, rfl, rfl⟩
  · exact fun _ => rfl

theorem awaitStatus (toHost : Bool) (looks : Nat) : P (awaitStatusStage toHost looks) := by
  induction looks with
  | zero => exact parts.stop
  | succ looks ih =>
      refine parts.bind parts.poll fun p => parts.ite (fun _ => parts.ret _) fun _ =>
        parts.ite (fun _ => parts.clearIn) fun _ => ?_
      exact parts.look (fun _ _ _ => rfl) fun _ => parts.ite (fun _ => parts.ret _) fun _ => ih

/-- The status stage is a record and looks at the control endpoint. -/
theorem statusStage : P endpointClearStatusStage :=
  parts.bind (parts.note _ rfl) fun _ => parts.look (fun _ _ _ => rfl) fun _ =>
    parts.awaitStatus _ _

theorem awaitOut (looks : Nat) : P (awaitControlOut looks) := by
  induction looks with
  | zero => exact parts.stop
  | succ looks ih =>
      refine parts.bind parts.poll fun p => parts.ite (fun _ => parts.ret _) fun _ => ?_
      exact parts.look (fun _ _ _ => rfl) fun _ => parts.ite (fun _ => parts.ret _) fun _ => ih

theorem packets (looks : Nat) (data : List Byte) (lastPacketFull : Bool) :
    P (writeControlPackets looks data lastPacketFull) := by
  induction looks generalizing data lastPacketFull with
  | zero => exact parts.stop
  | succ looks ih =>
      refine parts.ite (fun _ => parts.awaitOut _) fun _ => parts.look (fun _ _ _ => rfl) fun _ =>
        parts.ite (fun _ => parts.ret _) fun _ => parts.bind parts.isSetupReceived fun _ =>
          parts.ite (fun _ => parts.ret _) fun _ => parts.bind parts.poll fun _ =>
            parts.ite (fun _ => parts.awaitOut _) fun _ => parts.bind parts.poll fun _ =>
              parts.ite (fun _ => ?_) fun _ => ih data lastPacketFull
      exact parts.look (fun _ _ _ => rfl) fun _ => parts.send _ fun _ => ih _ _

theorem writeStream (data : List Byte) : P (endpointWriteControlStream data) :=
  parts.look (fun _ _ _ => rfl) fun _ => parts.bind (parts.whenever fun _ => parts.clearIn) fun _ =>
    parts.packets _ _ _

theorem getDescriptor : P usbDeviceGetDescriptor := by
  refine parts.look (fun _ _ _ => rfl) fun w => parts.ite (fun _ => ?_) fun _ => ?_
  · exact parts.bind parts.clearSetup fun _ => parts.writeStream _
  · cases callbackUsbGetDescriptor w.usb.controlRequest.wValue with
    | none => exact parts.ret _
    | some descriptor => exact parts.bind parts.clearSetup fun _ => parts.writeStream _

/-- A short answer and the status stage after it. -/
theorem answer (bytes : List Byte) : P (do
    controlWrite bytes
    controlClearIn
    endpointClearStatusStage) :=
  parts.send bytes (k := fun _ => endpointClearStatusStage) fun _ => parts.statusStage

theorem getStatus : P usbDeviceGetStatus := by
  refine parts.look (fun _ _ _ => rfl) fun w => parts.bind (parts.whenever fun _ => parts.select _)
    fun _ => parts.look (fun _ _ _ => rfl) fun _ => ?_
  exact parts.bind (parts.select _) fun _ => parts.bind parts.clearSetup fun _ => parts.answer _

theorem clearSetFeature : P usbDeviceClearSetFeature := by
  have rest : P (do
      endpointSelectEndpoint endpointControlEp
      controlClearSetup
      endpointClearStatusStage) :=
    parts.bind (parts.select _) fun _ => parts.bind parts.clearSetup fun _ => parts.statusStage
  refine parts.look (fun _ _ _ => rfl) fun w => parts.ite (fun _ => parts.ite (fun _ =>
    parts.ite (fun _ => parts.ret _) fun _ => ?_) fun _ => rest) fun _ => parts.ret _
  refine parts.bind (parts.select _) fun _ => parts.look (fun _ _ _ => rfl) fun _ =>
    parts.bind (parts.whenever fun _ => parts.ite (fun _ => parts.stall) fun _ => ?_) fun _ => rest
  exact parts.bind parts.clearStall fun _ => parts.resetEndpoint _

theorem awaitIn (looks : Nat) : P (awaitInReady looks) := by
  induction looks with
  | zero => exact parts.stop
  | succ looks ih =>
      exact parts.bind parts.poll fun _ => parts.ite (fun _ => parts.ret _) fun _ => ih

theorem setAddress : P usbDeviceSetAddress := by
  refine parts.look (fun _ _ _ => rfl) fun _ => parts.bind parts.clearSetup fun _ =>
    parts.bind parts.statusStage fun _ => parts.look (fun _ _ _ => rfl) fun _ =>
      parts.bind (parts.awaitIn _) fun _ => parts.apart _ ?_ ?_
  · exact fun _ => ⟨rfl, rfl, rfl, rfl, rfl, rfl, rfl⟩
  · exact fun _ => rfl

theorem getConfiguration : P usbDeviceGetConfiguration :=
  parts.bind parts.clearSetup fun _ => parts.look (fun _ _ _ => rfl) fun _ => parts.answer _

theorem setConfiguration : P usbDeviceSetConfiguration := by
  refine parts.look (fun _ _ _ => rfl) fun _ => parts.ite (fun _ => parts.ret _) fun _ =>
    parts.bind parts.clearSetup fun _ => parts.bind (parts.apart _ ?_ ?_) fun _ =>
      parts.bind parts.statusStage fun _ => parts.bind (parts.apart _ ?_ ?_) fun _ =>
        parts.configured
  · exact fun _ => ⟨rfl, rfl, rfl, rfl, rfl, rfl, rfl⟩
  · exact fun _ => rfl
  · exact fun _ => ⟨rfl, rfl, rfl, rfl, rfl, rfl, rfl⟩
  · exact fun _ => rfl

/-- All the standard requests. -/
theorem standardRequest : P usbDeviceStandardRequest :=
  parts.look (fun _ _ _ => rfl) fun _ =>
    parts.ite (fun _ => parts.whenever fun _ => parts.getStatus) fun _ =>
    parts.ite (fun _ => parts.whenever fun _ => parts.clearSetFeature) fun _ =>
    parts.ite (fun _ => parts.whenever fun _ => parts.setAddress) fun _ =>
    parts.ite (fun _ => parts.whenever fun _ => parts.getDescriptor) fun _ =>
    parts.ite (fun _ => parts.whenever fun _ => parts.getConfiguration) fun _ =>
      parts.whenever fun _ => parts.setConfiguration

/-- All the vendor requests. -/
theorem vendorRequest : P eventUsbDeviceControlRequest := by
  refine parts.look (fun _ _ _ => rfl) fun w =>
    parts.ite (fun _ => parts.bind parts.clearSetup fun _ => ?_) fun _ =>
      parts.ite (fun _ => parts.bind parts.clearSetup fun _ => ?_) fun _ => parts.ret _
  · refine parts.ite (fun _ => parts.bind parts.statusStage fun _ => parts.stop) fun _ => ?_
    exact parts.bind (parts.whenever fun _ => parts.reset) fun _ =>
      parts.bind (parts.whenever fun _ => parts.reset) fun _ => parts.statusStage
  · refine parts.bind (parts.whenever fun _ => ?_) fun _ =>
      parts.bind (parts.whenever fun _ => parts.writeStream _) fun _ => parts.statusStage
    exact parts.header (k := endpointWriteControlStream) parts.writeStream

theorem processControlRequest : P usbDeviceProcessControlRequest := by
  have rest : P (do
      eventUsbDeviceControlRequest
      whenever (← controlIsSetupReceived) usbDeviceStandardRequest
      whenever (← controlIsSetupReceived) do
        controlClearSetup
        controlStallTransaction) := by
    refine parts.bind parts.vendorRequest fun _ => parts.bind parts.isSetupReceived fun _ =>
      parts.bind (parts.whenever fun _ => parts.standardRequest) fun _ =>
        parts.bind parts.isSetupReceived fun _ => parts.whenever fun _ => ?_
    exact parts.bind parts.clearSetup fun _ => parts.note _ rfl
  have noted := parts.bind parts.request fun _ => rest
  exact noted

theorem serveSetup (setup : Option ControlTransfer) : P (serveSetup setup) := by
  cases setup with
  | none => exact parts.ret _
  | some transfer =>
      refine parts.bind (parts.apart _ ?_ ?_) fun _ => parts.processControlRequest
      · exact fun _ => ⟨rfl, rfl, rfl, rfl, rfl, rfl, rfl⟩
      · exact fun _ => rfl

/-- **The rule for `USB_USBTask`.** -/
theorem usbUsbTask : P usbUsbTask :=
  parts.bind parts.moment fun _ => parts.look (fun _ _ _ => rfl) fun _ =>
    parts.ite (fun _ => parts.ret _) fun _ => parts.bind (parts.select _) fun _ =>
      parts.bind parts.setup fun setup => parts.bind (parts.serveSetup setup) fun _ =>
        parts.select _

end RequestParts

/-! ## Relations between two worlds -/

/-- A relation between two worlds holds along every part of a control transfer, the
configuration of the bulk endpoints being one part with its record. -/
structure RequestPartsKeep (R : World → World → Prop) : Prop where
  moment : Moves R moment
  setup : Moves R nextSetup
  select : ∀ address, Moves R (endpointSelectEndpoint address)
  poll : Moves R controlPoll
  apart : ∀ f : Usb → Usb, (∀ u : Usb, u.SameBulk (f u)) → Moves R (onUsb f)
  note : ∀ e : Event, e.ofPart = true → Moves R (note e)
  header : Moves R serveReadHeader
  reset : Moves R requestReset
  stall : Moves R endpointStallTransaction
  clearStall : Moves R endpointClearStall
  resetEndpoint : ∀ address, Moves R (endpointResetEndpoint .control address)
  configured : Moves R eventUsbDeviceConfigurationChanged

namespace RequestPartsKeep

variable {R : World → World → Prop} [IsPreorder World R]

theorem composed (keep : RequestPartsKeep R) : RequestParts fun _ m => Moves R m where
  ret := .pure
  bind := .bind
  stop := .stop
  look _ rest := .bind .state rest
  moment := keep.moment
  setup := keep.setup
  select := keep.select
  poll := keep.poll
  apart f same _ := keep.apart f same
  send bytes _ rest := by
    refine .bind (keep.apart _ ?_) fun _ => .bind .state fun _ =>
      .bind (.bind .state fun _ => (keep.note _ rfl).bind fun _ => keep.apart _ ?_) fun _ => rest _
    · exact fun _ => ⟨rfl, rfl, rfl, rfl, rfl, rfl, rfl⟩
    · exact fun _ => ⟨rfl, rfl, rfl, rfl, rfl, rfl, rfl⟩
  clearIn := by
    refine .bind .state fun _ => (keep.note _ rfl).bind fun _ => keep.apart _ ?_
    exact fun _ => ⟨rfl, rfl, rfl, rfl, rfl, rfl, rfl⟩
  note := keep.note
  request := .bind .state fun _ => keep.note _ rfl
  header rest := keep.header.bind fun _ => .bind .state fun _ => rest _
  reset := keep.reset
  stall := keep.stall
  clearStall := keep.clearStall
  resetEndpoint := keep.resetEndpoint
  configured := keep.configured

theorem serveSetup (keep : RequestPartsKeep R) (setup : Option ControlTransfer) :
    Moves R (serveSetup setup) := keep.composed.serveSetup setup

theorem usbUsbTask (keep : RequestPartsKeep R) : Moves R usbUsbTask := keep.composed.usbUsbTask

end RequestPartsKeep

/-- A relation between two worlds holds along every part of a control transfer. -/
structure RequestsKeep (R : World → World → Prop) : Prop where
  moment : Moves R moment
  setup : Moves R nextSetup
  select : ∀ address, Moves R (endpointSelectEndpoint address)
  poll : Moves R controlPoll
  apart : ∀ f : Usb → Usb, (∀ u : Usb, u.SameBulk (f u)) → Moves R (onUsb f)
  note : ∀ e : Event, e.ofRequest = true → Moves R (note e)
  header : Moves R serveReadHeader
  reset : Moves R requestReset
  stall : Moves R endpointStallTransaction
  clearStall : Moves R endpointClearStall
  resetEndpoint : ∀ address, Moves R (endpointResetEndpoint .control address)
  configure : Moves R configureBulkEndpoints

namespace RequestsKeep

variable {R : World → World → Prop} [IsPreorder World R]

theorem parts (keep : RequestsKeep R) : RequestPartsKeep R where
  moment := keep.moment
  setup := keep.setup
  select := keep.select
  poll := keep.poll
  apart := keep.apart
  note e ok := keep.note e (by cases e <;> first | rfl | cases ok)
  header := keep.header
  reset := keep.reset
  stall := keep.stall
  clearStall := keep.clearStall
  resetEndpoint := keep.resetEndpoint
  configured := keep.configure.bind fun _ => keep.note _ rfl

end RequestsKeep

end VueCartReader
