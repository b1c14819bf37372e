import VueCartReader.Device.Endpoint

/-!
# Control requests

`USB_USBTask` and what it calls: the standard requests of the library and the vendor
requests of the firmware. While a request is processed, the looks at the control
endpoint come from the script of the transfer (`ControlPoll`).

`REQ_ENTER_BOOTLOADER` leaves the firmware for good, which ends the observation.
-/

set_option autoImplicit false

namespace VueCartReader

open Program

/-! ## Request codes -/

/-- Host to device, vendor, device. -/
abbrev vendorToDevice : Byte := 0x40#8
/-- Device to host, vendor, device. -/
abbrev vendorToHost : Byte := 0xC0#8

abbrev reqWriteDebug : Byte := 0x20#8
abbrev reqEnterBootloader : Byte := 0x40#8
abbrev reqResetAll : Byte := 0xA0#8

abbrev reqReadDebug : Byte := 0x20#8
abbrev reqReadHeader : Byte := 0x50#8
abbrev reqGetStatus : Byte := 0x61#8

abbrev fixedControlEndpointSize : Nat := 32
abbrev fixedNumConfigurations : Byte := 1#8

namespace UsbRequestHeader

/-- The requests that set `bulk_reset`. -/
def resets (r : UsbRequestHeader) : Bool :=
  r.bmRequestType == vendorToDevice &&
    (r.bRequest == reqResetAll || r.bRequest == reqWriteDebug && r.wValue == 0#16)

/-- The request that reads the ROM header. -/
def readsHeader (r : UsbRequestHeader) : Bool :=
  r.bmRequestType == vendorToHost && r.bRequest == reqReadHeader

end UsbRequestHeader

/-! ## The control endpoint -/

/-- The next look at the control endpoint. -/
def controlPoll : Fw ControlPoll := fun w =>
  match w.usb.polls with
  | [] => .cut w
  | p :: rest =>
      .value p
        { w with
          usb := p.interrupts.foldl (fun u i => u.interrupted i) { w.usb with polls := rest }
          log := (p.interrupts.map Event.interrupt).reverse ++ w.log }

/-- `Endpoint_IsSETUPReceived` -/
def controlIsSetupReceived : Fw Bool := do
  let p ← controlPoll
  onUsb fun u =>
    { u with
      setupReceived :=
        u.setupReceived || (u.selected == endpointControlEp && p.setupReceived) }
  let u := (← state).usb
  return u.selected == endpointControlEp && u.setupReceived

def controlClearSetup : Fw Unit := onUsb fun u => { u with setupReceived := false }

def controlWrite (bytes : List Byte) : Fw Unit :=
  onUsb fun u => { u with controlBank := u.controlBank ++ bytes }

def controlClearIn : Fw Unit := do
  note (.reply (← state).usb.controlBank)
  onUsb fun u => { u with controlBank := [] }

def controlStallTransaction : Fw Unit := note (.stall endpointControlEp)

/-- The waiting in `Endpoint_ClearStatusStage`, with at most some looks. -/
def awaitStatusStage (toHost : Bool) : Nat → Fw Unit
  | 0 => stop
  | looks + 1 => do
      let p ← controlPoll
      if toHost && p.outReceived then
        return ()
      else if !toHost && p.inReady then
        controlClearIn
      else if (← state).usb.deviceState = .unattached then
        return ()
      else
        awaitStatusStage toHost looks

def endpointClearStatusStage : Fw Unit := do
  note .statusStage
  let u := (← state).usb
  awaitStatusStage (u.controlRequest.bmRequestType.getLsbD 7) (u.polls.length + 1)

/-- The waiting for the status packet at the end of a control stream. -/
def awaitControlOut : Nat → Fw Unit
  | 0 => stop
  | looks + 1 => do
      let p ← controlPoll
      if p.outReceived then
        return ()
      else
        let s := (← state).usb.deviceState
        if s = .unattached || s = .suspended then
          return ()
        else
          awaitControlOut looks

/-- The data stage of a control stream: packets of the size of the endpoint, and an
empty one after a full last one. -/
def writeControlPackets : Nat → List Byte → Bool → Fw Unit
  | 0, _, _ => stop
  | looks + 1, data, lastPacketFull => do
      if data.isEmpty && !lastPacketFull then
        awaitControlOut (looks + 1)
      else
        let s := (← state).usb.deviceState
        if s = .unattached || s = .suspended then
          return ()
        else if ← controlIsSetupReceived then
          return ()
        else if (← controlPoll).outReceived then
          awaitControlOut (looks + 1)
        else if (← controlPoll).inReady then
          let room := fixedControlEndpointSize - (← state).usb.controlBank.length
          controlWrite (data.take room)
          let full := (← state).usb.controlBank.length == fixedControlEndpointSize
          controlClearIn
          writeControlPackets looks (data.drop room) full
        else
          writeControlPackets looks data lastPacketFull

/-- `Endpoint_Write_Control_Stream_LE`, and its siblings for other memories and byte
orders, on the bytes in the order they are sent. -/
def endpointWriteControlStream (data : List Byte) : Fw Unit := do
  let u := (← state).usb
  whenever (data.length ≤ u.controlRequest.wLength.toNat && data.isEmpty) controlClearIn
  writeControlPackets (u.polls.length + 1) (data.take u.controlRequest.wLength.toNat) false

/-! ## Standard requests -/

def deviceDescriptor : List Byte :=
  [0x12#8, 0x01#8, 0x00#8, 0x02#8, 0xFF#8, 0xFF#8, 0xFF#8, 0x20#8, 0xEB#8, 0x03#8, 0x40#8, 0x20#8,
    0x00#8, 0x01#8, 0x01#8, 0x02#8, 0x00#8, 0x01#8]

/-- The configuration, its interface, the IN and the OUT endpoint. -/
def configurationDescriptor : List Byte :=
  [0x09#8, 0x02#8, 0x20#8, 0x00#8, 0x01#8, 0x01#8, 0x00#8, 0x80#8, 0xFA#8,
    0x09#8, 0x04#8, 0x00#8, 0x00#8, 0x02#8, 0xFF#8, 0xFF#8, 0xFF#8, 0x00#8,
    0x07#8, 0x05#8, 0x83#8, 0x02#8, 0x40#8, 0x00#8, 0xFF#8,
    0x07#8, 0x05#8, 0x04#8, 0x02#8, 0x40#8, 0x00#8, 0xFF#8]

/-- A string descriptor over 16-bit characters. -/
def stringDescriptor (characters : List Nat) : List Byte :=
  BitVec.ofNat 8 (2 + 2 * characters.length) :: 0x03#8 ::
    characters.flatMap fun c => [BitVec.ofNat 8 c, BitVec.ofNat 8 (c / 256)]

def languageString : List Byte := stringDescriptor [0x0409]

def manufacturerString : List Byte := stringDescriptor ("Tauwasser".toList.map Char.toNat)

/-- The size of the product string counts its terminator. -/
def productString : List Byte :=
  stringDescriptor ("VUE Cart Reader v1.00".toList.map Char.toNat ++ [0])

def callbackUsbGetDescriptor (wValue : BitVec 16) : Option (List Byte) :=
  let descriptorType := (wValue >>> 8).setWidth 8
  let descriptorNumber := wValue.setWidth 8
  if descriptorType = 0x01#8 then some deviceDescriptor
  else if descriptorType = 0x02#8 then some configurationDescriptor
  else if descriptorType = 0x03#8 then
    if descriptorNumber = 0x00#8 then some languageString
    else if descriptorNumber = 0x01#8 then some manufacturerString
    else if descriptorNumber = 0x02#8 then some productString
    else none
  else none

def usbDeviceGetDescriptor : Fw Unit := do
  let u := (← state).usb
  if u.controlRequest.wValue = 0x03DC#16 then
    controlClearSetup
    endpointWriteControlStream u.serialString
  else
    match callbackUsbGetDescriptor u.controlRequest.wValue with
    | none => return ()
    | some descriptor =>
        controlClearSetup
        endpointWriteControlStream descriptor

def usbDeviceGetStatus : Fw Unit := do
  let r := (← state).usb.controlRequest
  whenever (r.bmRequestType = 0x82#8) <|
    endpointSelectEndpoint (r.wIndex &&& 0x0F#16).toNat
  let stalled := r.bmRequestType = 0x82#8 && (← state).usb.isStalled
  endpointSelectEndpoint endpointControlEp
  controlClearSetup
  controlWrite [if stalled then 1#8 else 0#8, 0#8]
  controlClearIn
  endpointClearStatusStage

def usbDeviceClearSetFeature : Fw Unit := do
  let r := (← state).usb.controlRequest
  let endpointIndex := (r.wIndex &&& 0x0F#16).toNat
  if r.bmRequestType &&& 0x1F#8 = 0x02#8 then
    if r.wValue.setWidth 8 = 0x00#8 then
      if endpointIndex = endpointControlEp then
        return ()
      else
        endpointSelectEndpoint endpointIndex
        whenever ((← state).usb.enabled && (endpointIndex = vueCartReaderInEpAddr ||
            endpointIndex = vueCartReaderOutEpAddr)) <|
          if r.bRequest = 0x03#8 then
            endpointStallTransaction
          else do
            endpointClearStall
            endpointResetEndpoint .control endpointIndex
        endpointSelectEndpoint endpointControlEp
        controlClearSetup
        endpointClearStatusStage
    else
      endpointSelectEndpoint endpointControlEp
      controlClearSetup
      endpointClearStatusStage
  else
    return ()

/-- The waiting for the status packet of `USB_Device_SetAddress`. -/
def awaitInReady : Nat → Fw Unit
  | 0 => stop
  | looks + 1 => do
      if (← controlPoll).inReady then return () else awaitInReady looks

def usbDeviceSetAddress : Fw Unit := do
  let deviceAddress := (← state).usb.controlRequest.wValue &&& 0x7F#16
  controlClearSetup
  endpointClearStatusStage
  awaitInReady ((← state).usb.polls.length + 1)
  onUsb fun u =>
    { u with
      addressSet := true
      deviceState := if deviceAddress ≠ 0#16 then .addressed else .default }

def usbDeviceGetConfiguration : Fw Unit := do
  controlClearSetup
  controlWrite [(← state).usb.configurationNumber]
  controlClearIn
  endpointClearStatusStage

def eventUsbDeviceConfigurationChanged : Fw Unit := do
  configureBulkEndpoints
  note .configurationChanged

def usbDeviceSetConfiguration : Fw Unit := do
  let number := (← state).usb.controlRequest.wValue.setWidth 8
  if fixedNumConfigurations < number then
    return ()
  else
    controlClearSetup
    onUsb fun u => { u with configurationNumber := number }
    endpointClearStatusStage
    onUsb fun u =>
      { u with
        deviceState :=
          if u.configurationNumber ≠ 0#8 then .configured
          else if u.addressSet then .configured else .powered }
    eventUsbDeviceConfigurationChanged

/-! ## Vendor requests -/

/-- What the header reader works on. -/
structure HeaderReader where
  rig : Rig
  address : BitVec 32
  myBuffer : Vector Byte 32
  i : Nat

/-- One word of the header. -/
def HeaderReader.round (h : HeaderReader) : HeaderReader :=
  let rig := (vueWriteAddressFull h.address h.rig).ctrlAnd (~~~vueNOe)
  { rig := rig.ctrlOr vueNOe
    address := h.address + 1#32
    myBuffer := (h.myBuffer.set! h.i rig.board.adlIn).set! (h.i + 1) rig.board.adhIn
    i := h.i + 2 }

/-- `for (i = 0; i < 0x20u;)` -/
def HeaderReader.loop : Nat → HeaderReader → HeaderReader
  | 0, h => h
  | fuel + 1, h => if h.i < 0x20 then loop fuel h.round else h

/-- The header is read with the chip select of the ROM, which is released again. -/
@[irreducible]
def readHeader (rig : Rig) (address : BitVec 32) (myBuffer : Vector Byte 32) : HeaderReader :=
  let start := (address &&& vueFlagMask ||| ((0xFFFFFDE0#32 >>> 1) &&& vueAddressMask)) &&&
    ~~~vueNRomCe
  let h := HeaderReader.loop 0x20 ⟨rig, start, myBuffer, 0⟩
  { h with
    rig := vueWriteAddressFull (h.address ||| vueNRomCe) h.rig
    address := h.address ||| vueNRomCe }

def serveReadHeader : Fw Unit := modify fun w =>
  let h := readHeader ⟨w.board, []⟩ w.vars.address w.vars.myBuffer
  { w with
    board := h.rig.board
    vars := { w.vars with address := h.address, myBuffer := h.myBuffer }
    log := portEvents .control w.board h.rig.seen ++ w.log }

/-- `enter_bootloader` does not return. -/
def enterBootloader : Fw Unit := stop

def requestReset : Fw Unit := modify fun w =>
  { w with vars := { w.vars with bulkReset := 0xFFFFFFFF#32 }, log := .resetRequest :: w.log }

def eventUsbDeviceControlRequest : Fw Unit := do
  let r := (← state).usb.controlRequest
  if r.bmRequestType = vendorToDevice then
    controlClearSetup
    if r.bRequest = reqEnterBootloader then
      endpointClearStatusStage
      enterBootloader
    else
      whenever (r.bRequest = reqResetAll) requestReset
      whenever (r.bRequest = reqWriteDebug ∧ r.wValue = 0#16) requestReset
      endpointClearStatusStage
  else if r.bmRequestType = vendorToHost then
    controlClearSetup
    -- nothing is sent for REQ_GET_STATUS, nor for an unknown code
    whenever (r.bRequest = reqReadHeader) do
      serveReadHeader
      endpointWriteControlStream (← state).vars.myBuffer.toList
    whenever (r.bRequest = reqReadDebug) <|
      endpointWriteControlStream [0xDE#8, 0xAD#8, 0xBE#8, 0xEF#8]
    endpointClearStatusStage

/-! ## The task of the library -/

/-- What the library makes of a request the firmware has left alone. -/
def usbDeviceStandardRequest : Fw Unit := do
  let r := (← state).usb.controlRequest
  if r.bRequest = 0#8 then
    whenever (r.bmRequestType = 0x80#8 ∨ r.bmRequestType = 0x82#8) usbDeviceGetStatus
  else if r.bRequest = 1#8 ∨ r.bRequest = 3#8 then
    whenever (r.bmRequestType = 0x00#8 ∨ r.bmRequestType = 0x02#8) usbDeviceClearSetFeature
  else if r.bRequest = 5#8 then
    whenever (r.bmRequestType = 0x00#8) usbDeviceSetAddress
  else if r.bRequest = 6#8 then
    whenever (r.bmRequestType = 0x80#8 ∨ r.bmRequestType = 0x81#8) usbDeviceGetDescriptor
  else if r.bRequest = 8#8 then
    whenever (r.bmRequestType = 0x80#8) usbDeviceGetConfiguration
  else
    whenever (r.bRequest = 9#8 ∧ r.bmRequestType = 0x00#8) usbDeviceSetConfiguration

def usbDeviceProcessControlRequest : Fw Unit := do
  let w ← state
  note (.request w.usb.controlRequest w.vars.curVueState w.vars.bulkAddress)
  eventUsbDeviceControlRequest
  whenever (← controlIsSetupReceived) usbDeviceStandardRequest
  whenever (← controlIsSetupReceived) do
    controlClearSetup
    controlStallTransaction

/-- The SETUP packet, if one is there when the library looks for it. -/
def nextSetup : Fw (Option ControlTransfer) := fun w =>
  match w.setups with
  | [] => .cut w
  | s :: rest => .value s { w with setups := rest }

def serveSetup : Option ControlTransfer → Fw Unit
  | none => pure ()
  | some transfer => do
      onUsb fun u =>
        { u with
          controlRequest := transfer.header, polls := transfer.polls, setupReceived := true }
      usbDeviceProcessControlRequest

def usbUsbTask : Fw Unit := do
  let _ ← moment
  let u := (← state).usb
  if u.deviceState = .unattached then
    return ()
  else
    endpointSelectEndpoint endpointControlEp
    serveSetup (← nextSetup)
    endpointSelectEndpoint u.selected

end VueCartReader
