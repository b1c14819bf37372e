import VueCartReader.Device.Command
import VueCartReader.Program.Basic

/-!
# The device and its surroundings

A `World` is the board, the variables of the firmware, the USB controller, and what
the surroundings still have in store: the moments at which the firmware looks at
the hardware, with what the host does up to each (`Moment`), and the control
transfers that `USB_USBTask` will find. When a script is used up the observation
ends.

Everything that can be seen from outside is recorded in a log, newest first.

The data toggles of the endpoints are left out: no decision of the firmware depends
on them.
-/

set_option autoImplicit false

namespace VueCartReader

open Program

/-! ## The surroundings -/

/-- A packet of a bulk endpoint. -/
abbrev Packet : Type := { data : List Byte // data.length ≤ 64 }

/-- What the interrupt handler of the USB controller is called for. -/
inductive UsbInterrupt where
  | suspend
  | wakeUp
  | endOfReset
  deriving DecidableEq, Repr

inductive HostAct where
  | sendOut (packet : Packet)
  | collectIn
  | interrupt (i : UsbInterrupt)

/-- What has happened by the time the firmware looks at the hardware again. `refused`
says that a bank allows no access then, whatever it holds. -/
structure Moment where
  acts : List HostAct
  refused : Bool

/-- `USB_Request_Header_t` -/
structure UsbRequestHeader where
  bmRequestType : Byte
  bRequest : Byte
  wValue : BitVec 16
  wIndex : BitVec 16
  wLength : BitVec 16
  deriving DecidableEq, Repr

/-- What a look at the control endpoint shows. -/
structure ControlPoll where
  interrupts : List UsbInterrupt
  setupReceived : Bool
  inReady : Bool
  outReceived : Bool

/-- A SETUP packet, and what the control endpoint shows while it is processed. -/
structure ControlTransfer where
  header : UsbRequestHeader
  polls : List ControlPoll

/-! ## The USB controller -/

inductive DeviceState where
  | unattached
  | powered
  | default
  | addressed
  | configured
  | suspended
  deriving DecidableEq, Repr

abbrev vueCartReaderInEpAddr : Nat := 3
abbrev vueCartReaderOutEpAddr : Nat := 4
abbrev vueCartReaderEpSize : Nat := 64
abbrev endpointControlEp : Nat := 0

/-- The state of the controller and of the library that drives it. The OUT bank holds
what is unread of a received packet. The IN bank holds the bytes written so far,
or, when busy, a committed packet. -/
structure Usb where
  deviceState : DeviceState
  configurationNumber : Byte
  addressSet : Bool
  selected : Nat
  enabled : Bool
  outBank : Option (List Byte)
  outStalled : Bool
  inBank : List Byte
  inBusy : Bool
  inStalled : Bool
  setupReceived : Bool
  controlBank : List Byte
  polls : List ControlPoll
  controlRequest : UsbRequestHeader
  /-- The descriptor made from the serial number of the chip. -/
  serialString : List Byte

/-! ## The firmware's variables -/

structure Vars where
  curVueState : FsmState
  bulkBuffer : Buffer
  curCommand : VueCommand
  curCmdPhase : BitVec 32
  bulkAddress : BitVec 32
  bulkAccessFunc : Option AccessFunc
  bulkReset : BitVec 32
  /-- `address` of the control request handler. -/
  address : BitVec 32
  myBuffer : Vector Byte 32

/-! ## The log -/

/-- Which code makes an access. -/
inductive Actor where
  | task
  | control
  | main
  deriving DecidableEq, Repr

/-- The results of a stream call. -/
inductive StreamResult where
  | noError
  | endpointStalled
  | deviceDisconnected
  | busSuspended
  | timeout
  | incompleteTransfer
  deriving DecidableEq, Repr

/-- How the code under a task operates an endpoint. -/
inductive BulkOperation where
  | readStream
  | writeStream
  | clearOut
  | clearIn
  | stall
  deriving DecidableEq, Repr

inductive Event where
  /-- A write to a port register took the board from one state to the next. -/
  | port (by_ : Actor) (before after : Board)
  /-- A bulk access routine is called. -/
  | access (func : AccessFunc) (length : BitVec 32)
  /-- Behaviour that the language leaves undefined. -/
  | undefined
  /-- The OUT endpoint accepts a packet. -/
  | packet (data : List Byte)
  /-- The host collects a packet from the IN endpoint. -/
  | collect (data : List Byte)
  | interrupt (i : UsbInterrupt)
  /-- A bank allows no access although it could. -/
  | refuse
  /-- A byte is read from the OUT bank. -/
  | take (x : Byte)
  /-- A byte is written into the IN bank. -/
  | give (x : Byte)
  /-- The IN bank is committed. -/
  | commit (data : List Byte)
  /-- The OUT bank is freed with some bytes unread. -/
  | free (by_ : Actor) (unread : List Byte)
  | stall (endpoint : Nat)
  | operate (operation : BulkOperation) (selected : Nat)
  | stream (result : StreamResult)
  /-- A retry loop is left because of `bulk_reset`. -/
  | abandon (state : FsmState)
  /-- A control request is processed. -/
  | request (header : UsbRequestHeader) (state : FsmState) (bulkAddress : BitVec 32)
  /-- `bulk_reset` is set. -/
  | resetRequest
  /-- The control endpoint commits an IN packet. -/
  | reply (data : List Byte)
  | statusStage
  | configurationChanged
  /-- `VUE_Task` finds the IN bank free. -/
  | inReady (state : FsmState)
  /-- `VUE_Task` finds a packet in the OUT bank. -/
  | outReceived (state : FsmState)
  /-- `VUE_Command_Task` is entered. -/
  | command (old : VueCommand)
  | accept (command : VueCommand)
  /-- A command of length zero. -/
  | ignore (command : VueCommand)
  | reject (command : VueCommand)
  /-- A sub-task ends a transfer. -/
  | finish
  | resetBegin
  /-- The reset block has emptied the OUT bank. -/
  | outReset
  | resetEnd

/-! ## Worlds -/

structure World where
  board : Board
  vars : Vars
  usb : Usb
  script : List Moment
  setups : List (Option ControlTransfer)
  log : List Event

/-- A piece of the firmware. -/
abbrev Fw (α : Type) : Type := Prog World α

/-- Record an event. -/
def note (e : Event) : Fw Unit := modify fun w => { w with log := e :: w.log }

/-- What the language leaves undefined is recorded and not followed. -/
def undefinedBehaviour {α : Type} : Fw α := do
  note .undefined
  stop

/-- Change the controller. -/
def onUsb (f : Usb → Usb) : Fw Unit := modify fun w => { w with usb := f w.usb }

/-- Change the variables. -/
def onVars (f : Vars → Vars) : Fw Unit := modify fun w => { w with vars := f w.vars }

/-- The port writes on a trace, newest first. -/
def portEvents (by_ : Actor) : Board → List Board → List Event
  | _, [] => []
  | before, after :: rest => portEvents by_ after rest ++ [.port by_ before after]

/-- Run code of the bus routines. -/
def onBus (by_ : Actor) (f : Rig → Rig) : Fw Unit := modify fun w =>
  let r := f ⟨w.board, []⟩
  { w with board := r.board, log := portEvents by_ w.board r.seen ++ w.log }

/-! ## Moments -/

namespace Usb

/-- The banks of the bulk endpoints after they have been configured anew. -/
def reconfigured (u : Usb) : Usb :=
  { u with
    outBank := none, outStalled := false, inBank := [], inBusy := false, inStalled := false }

/-- `ISR(USB_GEN_vect)`. The device is connected while it is not suspended. -/
def interrupted (i : UsbInterrupt) (u : Usb) : Usb :=
  match i with
  | .suspend => { u with deviceState := .unattached }
  | .wakeUp =>
      { u with
        deviceState :=
          if u.configurationNumber ≠ 0#8 then .configured
          else if u.addressSet then .configured else .powered }
  -- configuring the control endpoint configures the ones above it again
  | .endOfReset =>
      { u.reconfigured with
        deviceState := .default, configurationNumber := 0#8, addressSet := false
        selected := endpointControlEp }

end Usb

namespace World

/-- The host does something; what the endpoint does not accept has no effect. -/
def act (w : World) : HostAct → World
  | .sendOut packet =>
      if w.usb.enabled && w.usb.outBank.isNone && !w.usb.outStalled then
        { w with
          usb := { w.usb with outBank := some packet.val }, log := .packet packet.val :: w.log }
      else w
  | .collectIn =>
      if w.usb.inBusy then
        { w with
          usb := { w.usb with inBank := [], inBusy := false }
          log := .collect w.usb.inBank :: w.log }
      else w
  | .interrupt i => { w with usb := w.usb.interrupted i, log := .interrupt i :: w.log }

/-- The host's doings up to a moment. -/
def pass (w : World) (m : Moment) : World := m.acts.foldl act w

end World

/-- The next moment of the script. -/
def moment : Fw Moment := fun w =>
  match w.script with
  | [] => .cut w
  | m :: rest => .value m (World.pass { w with script := rest } m)

end VueCartReader
