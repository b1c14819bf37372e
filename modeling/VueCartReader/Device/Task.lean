import VueCartReader.Device.Stream

/-!
# The tasks of the firmware

`VUE_Task` and its sub-tasks, the main loop, and runs of it.
-/

set_option autoImplicit false

namespace VueCartReader

open Program

/-- All chip selects and the status flag high. -/
abbrev allFlags : BitVec 32 := vueCartReaderNStatus ||| vueNRomCe ||| vueNRamCs ||| vueNEs

/-! ## Bulk transfers -/

/-- The phases in which a transfer begins: choose the routine, select the target. -/
def beginTransfer (func : Byte → AccessFunc) : Fw Unit := do
  let v := (← state).vars
  match targetSelectMap[v.curCommand.targetRegion.toNat]? with
  | none => undefinedBehaviour
  | some target =>
      let address := (target ||| (v.curCommand.address >>> 1)) &&& ~~~vueCartReaderNStatus
      onVars fun v =>
        { v with bulkAccessFunc := some (func v.curCommand.accessMode), bulkAddress := address }
      onBus .task (vueWriteAddressFull address)
      onVars fun v => { v with curCmdPhase := v.curCmdPhase + 1#32 }

/-- `bulk_access_func(&bulk_address, bulk_buffer, length)` -/
def bulkAccess (length : BitVec 32) : Fw Unit := do
  let w ← state
  match w.vars.bulkAccessFunc with
  | none => undefinedBehaviour
  | some func =>
      note (.access func length)
      match func.call (length.setWidth 8) ⟨w.board, []⟩ w.vars.bulkAddress w.vars.bulkBuffer with
      | none => undefinedBehaviour
      | some a =>
          modify fun w =>
            { w with
              board := a.rig.board
              vars := { w.vars with bulkAddress := a.address, bulkBuffer := a.buffer }
              log := portEvents .task w.board a.rig.seen ++ w.log }

/-- What the next chunk is to move. -/
def chunkLength (v : Vars) : BitVec 32 :=
  if v.curCommand.length < 64#32 then v.curCommand.length else 64#32

/-- The target is released. -/
def deselect : Fw Unit := do
  note .finish
  let address := (← state).vars.bulkAddress
  onBus .task (vueWriteAddressFull (address ||| vueFlagMask))

def enterIdle : Fw Unit := onVars fun v => { v with curVueState := .idle }

/-- `cur_command.length -= length` -/
def shortenCommand (length : BitVec 32) : Fw Unit := onVars fun v =>
  { v with curCommand := { v.curCommand with length := v.curCommand.length - length } }

/-- The end of a write, in phase 1 and in any later one. -/
def finishWrite : Fw Unit := do
  deselect
  enterIdle

def vueBulkWriteTask : Fw Unit := do
  let v := (← state).vars
  if v.curCmdPhase = 0#32 then
    beginTransfer writeFunc
  else if v.curCmdPhase = 1#32 then
    let length := chunkLength v
    if ← stream (readStream storeBuffer) length.toNat then
      bulkAccess length
      shortenCommand length
      whenever ((← state).vars.curCommand.length = 0#32) finishWrite
  else
    finishWrite

/-- The firmware clears the IN bank under a task. -/
def taskClearIn : Fw Unit := do
  note (.operate .clearIn (← state).usb.selected)
  endpointClearIn

/-- The end of a read, in phase 1 and in any later one. -/
def finishRead : Fw Unit := do
  deselect
  taskClearIn
  enterIdle

def vueBulkReadTask : Fw Unit := do
  let v := (← state).vars
  if v.curCmdPhase = 0#32 then
    beginTransfer readFunc
  else if v.curCmdPhase = 1#32 then
    let length := chunkLength v
    bulkAccess length
    if ← stream (writeStream loadBuffer) length.toNat then
      shortenCommand length
      whenever ((← state).vars.curCommand.length = 0#32) finishRead
  else
    finishRead

/-! ## Commands -/

/-- What is in the OUT bank is dropped and the endpoint halts. -/
def refuseOut : Fw Unit := do
  endpointResetEndpoint .task vueCartReaderOutEpAddr
  note (.operate .stall (← state).usb.selected)
  endpointStallTransaction

/-- A command is taken up by a first call of its sub-task. -/
def startCommand (c : VueCommand) : Fw Unit := do
  note (.accept c)
  onVars fun v =>
    { v with
      curVueState := FsmState.ofRaw (v.curCommand.operation + opOffset), curCmdPhase := 0#32 }
  match (← state).vars.curVueState with
  | .read => vueBulkReadTask
  | .write => vueBulkWriteTask
  | _ => pure ()

/-- What becomes of the bytes in the memory of the command. -/
def judgeCommand : Fw Unit := do
  onVars fun v => { v with curCommand := v.curCommand.correct }
  let c := (← state).vars.curCommand
  if c.defined then
    if c.length = 0#32 then
      note (.ignore c)
    else
      startCommand c
  else
    note (.reject c)
    refuseOut

def vueCommandTask : Fw Unit := do
  note (.command (← state).vars.curCommand)
  if ← stream (readStream storeCommand) 32 then
    judgeCommand

/-! ## The task -/

/-- What becomes of a packet in the OUT bank. -/
def outTask : FsmState → Fw Unit
  | .write => vueBulkWriteTask
  | .idle => vueCommandTask
  | _ => refuseOut

/-- The half of `VUE_Task` for the OUT endpoint. -/
def serveOut : Fw Unit := do
  endpointSelectEndpoint vueCartReaderOutEpAddr
  if ← endpointIsOutReceived then
    let s := (← state).vars.curVueState
    note (.outReceived s)
    outTask s
    note (.operate .clearOut (← state).usb.selected)
    endpointClearOut .task

/-- A bank that was full is sent first: whether the endpoint is ready again. -/
def flushIn : Fw Bool := do
  if ← endpointIsReadWriteAllowed then
    return true
  else
    taskClearIn
    return (← endpointWaitUntilReady) = .noError

/-- The half of `VUE_Task` for the IN endpoint. -/
def serveIn : Fw Unit := do
  endpointSelectEndpoint vueCartReaderInEpAddr
  if ← endpointIsInReady then
    note (.inReady (← state).vars.curVueState)
    if ← flushIn then
      whenever ((← state).vars.curVueState = .read) vueBulkReadTask
      whenever (¬ (← endpointIsReadWriteAllowed)) taskClearIn

def vueTask : Fw Unit := do
  let w ← state
  if w.usb.deviceState ≠ .configured then
    return ()
  else if w.vars.bulkReset ≠ 0#32 then
    return ()
  else
    serveOut
    serveIn

/-! ## The main loop -/

/-- The control lines and the latches as they are between commands. -/
def writeDefaultState (r : Rig) : Rig :=
  r.ctrlOr (vueNOe ||| vueNUwr ||| vueNLwr) |>.ctrlAnd (~~~vueCartReaderPl)
  |> vueWriteAddressFull allFlags

/-- An endpoint after a reset: no stall, data toggle reset. -/
def clearEndpointStall (address : Nat) : Fw Unit := do
  endpointSelectEndpoint address
  endpointClearStall

/-- What the reset block does before it clears `bulk_reset`. -/
def restoreDefaultState : Fw Unit := do
  onBus .main writeDefaultState
  enterIdle
  endpointResetEndpoint .main vueCartReaderOutEpAddr
  note .outReset
  endpointResetEndpoint .main vueCartReaderInEpAddr
  clearEndpointStall vueCartReaderOutEpAddr
  clearEndpointStall vueCartReaderInEpAddr
  endpointAbortPendingIn

def resetBlock : Fw Unit := do
  note .resetBegin
  restoreDefaultState
  onVars fun v => { v with bulkReset := 0#32 }
  note .resetEnd

/-- One round of the main loop. -/
def mainIteration : Fw Unit := do
  usbUsbTask
  let tmpBulkReset := (← state).vars.bulkReset
  vueTask
  whenever (tmpBulkReset ≠ 0#32) resetBlock

/-! ## Runs -/

/-- What the surroundings contribute to a round of the main loop: what is plugged in,
and what the host does. -/
structure Input where
  cartridge : Cartridge
  script : List Moment
  setups : List (Option ControlTransfer)

/-- The world as a round of the main loop finds it. -/
def World.offer (w : World) (i : Input) : World :=
  { w with board := { w.board with cartridge := i.cartridge }, script := i.script
           setups := i.setups }

/-- Rounds of the main loop. -/
def mainLoop : List Input → Fw Unit
  | [] => pure ()
  | i :: rest => do
      modify fun w => w.offer i
      mainIteration
      mainLoop rest

/-- The variables at power-up. -/
def Vars.initial : Vars where
  curVueState := .idle
  bulkBuffer := .replicate 64 0#8
  curCommand := .ofBytes (.replicate 32 0#8)
  curCmdPhase := 0#32
  bulkAddress := 0#32
  bulkAccessFunc := none
  bulkReset := 0xFFFFFFFF#32
  address := allFlags
  myBuffer := .replicate 32 0#8

/-- The controller after `USB_Init`. -/
def Usb.initial (serialString : List Byte) : Usb where
  deviceState := .unattached
  configurationNumber := 0#8
  addressSet := false
  selected := endpointControlEp
  enabled := false
  outBank := none
  outStalled := false
  inBank := []
  inBusy := false
  inStalled := false
  setupReceived := false
  controlBank := []
  polls := []
  controlRequest := ⟨0#8, 0#8, 0#16, 0#16, 0#16⟩
  serialString := serialString

/-- The world as `main` enters its loop: the ports have been initialised, what the
latches held was arbitrary, and the default state has been written for the first
time. -/
def World.started (cartridge : Cartridge) (lowLatch : BitVec 15) (flagLatch pageLatch : Byte)
    (serialString : List Byte) : World where
  board :=
    (vueWriteAddressFull allFlags
      ⟨boardInit cartridge lowLatch flagLatch pageLatch, []⟩).board
  vars := .initial
  usb := .initial serialString
  script := []
  setups := []
  log := []

/-- `main` is started on some board. -/
def Started (w : World) : Prop :=
  ∃ cartridge lowLatch flagLatch pageLatch serialString,
    w = .started cartridge lowLatch flagLatch pageLatch serialString

/-- The worlds the main loop comes through between two rounds. -/
def Reachable (w : World) : Prop :=
  ∃ start inputs, Started start ∧ mainLoop inputs start = .value () w

/-! ## A session -/

/-- Moments at which the host does nothing. -/
def quietMoments (n : Nat) : List Moment := List.replicate n ⟨[], false⟩

/-- `SET_CONFIGURATION`, with a host that collects the status packet at once. -/
def setConfiguration : ControlTransfer :=
  ⟨⟨0x00#8, 0x09#8, 1#16, 0#16, 0#16⟩, List.replicate 3 ⟨[], false, true, false⟩⟩

/-- A cartridge that shows the lowest byte of the address, and the flags. -/
def plainCartridge : Cartridge := fun flags word => (word.setWidth 8, flags)

/-- The round in which the host resets the bus and configures the device, and the
first reset block runs. -/
def configuringInput : Input :=
  ⟨plainCartridge, ⟨[.interrupt .endOfReset], false⟩ :: quietMoments 6, [some setConfiguration]⟩

def configuredWorld : World :=
  (mainLoop [configuringInput] (.started plainCartridge 0#15 0#8 0#8 [])).state

theorem configuredWorld_reachable : Reachable configuredWorld :=
  ⟨_, _, ⟨_, _, _, _, _, rfl⟩, Exit.eq_value (by decide +kernel)⟩

/-- The bytes of a command as the host sends it. -/
def commandBytes (accessMode targetRegion : Byte) (operation : Byte) (address length : BitVec 32) :
    List Byte :=
  [accessMode, targetRegion, 0#8, 0#8, 0#8, 0#8, 0#8, operation] ++
    [byteOf address 3, byteOf address 2, byteOf address 1, byteOf address 0] ++
    [byteOf length 3, byteOf length 2, byteOf length 1, byteOf length 0] ++ List.replicate 16 0#8

/-- A round in which the host does nothing. -/
def quietInput (looks : Nat) : Input := ⟨plainCartridge, quietMoments looks, [none]⟩

/-- A round in which the host sends a packet after `USB_USBTask`. -/
def packetInput (data : Packet) (after : Nat) : Input :=
  ⟨plainCartridge, ⟨[], false⟩ :: ⟨[.sendOut data], false⟩ :: quietMoments after, [none]⟩

/-- `REQ_READ_HEADER`, with a host that takes the packet at once. -/
def readHeaderTransfer : ControlTransfer :=
  ⟨⟨vendorToHost, reqReadHeader, 0#16, 0#16, 32#16⟩,
    [⟨[], false, true, false⟩, ⟨[], false, false, false⟩, ⟨[], false, true, false⟩,
      ⟨[], false, true, false⟩] ++ List.replicate 12 ⟨[], false, true, true⟩⟩

/-- `REQ_RESET_ALL`, with a host that collects the status packet at once. -/
def resetTransfer : ControlTransfer :=
  ⟨⟨vendorToDevice, reqResetAll, 0#16, 0#16, 0#16⟩, List.replicate 3 ⟨[], false, true, false⟩⟩

/-- A command to write one word. -/
def wordBytes : Packet := ⟨commandBytes 0#8 0#8 1#8 2#32 2#32, by decide⟩

/-- The first byte of the word. -/
def firstByte : Packet := ⟨[1#8], by decide⟩

/-- The command, and the word in two packets of one byte. Between the two some request may be
served, in the middle of the stream call. -/
def wordInputs (setup : Option ControlTransfer) : List Input :=
  [configuringInput,
    { packetInput wordBytes 46 with setups := [none, none] },
    ⟨plainCartridge,
      ⟨[.sendOut firstByte], false⟩ ::
        (quietMoments 6 ++ ⟨[.sendOut ⟨[2#8], by decide⟩], false⟩ :: quietMoments 30),
      [none, setup, none]⟩]

def wordStart : World := .started plainCartridge 0#15 0#8 0#8 []

def wordEnd (setup : Option ControlTransfer) : World :=
  (mainLoop (wordInputs setup) wordStart).state

theorem wordStart_started : Started wordStart := ⟨_, _, _, _, _, rfl⟩

end VueCartReader
