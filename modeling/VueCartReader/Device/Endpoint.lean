import VueCartReader.Device.World

/-!
# Endpoint operations

The operations of the endpoint library on the selected endpoint. An operation that
looks at the hardware, or that the hardware could get ahead of, starts a new moment:
first the host acts, then the operation takes effect.

The bulk endpoints are the IN endpoint 3 and the OUT endpoint 4, each with one bank.
An operation on any other endpoint finds nothing ready and changes nothing here; the
control endpoint has operations of its own.
-/

set_option autoImplicit false

namespace VueCartReader

open Program

/-! ## The selected endpoint -/

def endpointSelectEndpoint (address : Nat) : Fw Unit :=
  onUsb fun u => { u with selected := address }

namespace Usb

def outReceived (u : Usb) : Bool :=
  u.selected == vueCartReaderOutEpAddr && u.outBank.isSome

def inReady (u : Usb) : Bool :=
  u.selected == vueCartReaderInEpAddr && !u.inBusy

/-- A bank has room for a byte, or a byte to be read. -/
def readWriteAllowed (u : Usb) : Bool :=
  if u.selected = vueCartReaderOutEpAddr then
    !u.outStalled && (u.outBank.getD []).length != 0
  else if u.selected = vueCartReaderInEpAddr then
    !u.inStalled && !u.inBusy && u.inBank.length < vueCartReaderEpSize
  else false

def isStalled (u : Usb) : Bool :=
  if u.selected = vueCartReaderOutEpAddr then u.outStalled
  else if u.selected = vueCartReaderInEpAddr then u.inStalled
  else false

def setStalled (x : Bool) (u : Usb) : Usb :=
  if u.selected = vueCartReaderOutEpAddr then { u with outStalled := x }
  else if u.selected = vueCartReaderInEpAddr then { u with inStalled := x }
  else u

end Usb

def endpointIsOutReceived : Fw Bool := do
  let _ ← moment
  return (← state).usb.outReceived

def endpointIsInReady : Fw Bool := do
  let _ ← moment
  return (← state).usb.inReady

def endpointIsReadWriteAllowed : Fw Bool := do
  let m ← moment
  if m.refused then
    note .refuse
    return false
  else
    return (← state).usb.readWriteAllowed

/-! ## Banks -/

/-- A received packet leaves the OUT bank, read or not. -/
def freeOut (by_ : Actor) : Fw Unit := modify fun w =>
  match w.usb.outBank with
  | some unread =>
      { w with usb := { w.usb with outBank := none }, log := .free by_ unread :: w.log }
  | none => w

def endpointClearOut (by_ : Actor) : Fw Unit := do
  let _ ← moment
  whenever ((← state).usb.selected = vueCartReaderOutEpAddr) (freeOut by_)

def endpointClearIn : Fw Unit := do
  let _ ← moment
  modify fun w =>
    if w.usb.selected = vueCartReaderInEpAddr && !w.usb.inBusy then
      { w with usb := { w.usb with inBusy := true }, log := .commit w.usb.inBank :: w.log }
    else w

def endpointResetEndpoint (by_ : Actor) (address : Nat) : Fw Unit := do
  let _ ← moment
  if address = vueCartReaderOutEpAddr then freeOut by_
  else if address = vueCartReaderInEpAddr then
    onUsb fun u => { u with inBank := [], inBusy := false }

def endpointStallTransaction : Fw Unit := do
  let _ ← moment
  note (.stall (← state).usb.selected)
  onUsb (Usb.setStalled true)

def endpointClearStall : Fw Unit := do
  let _ ← moment
  onUsb (Usb.setStalled false)

/-- A committed packet that the host has not collected is withdrawn. -/
def endpointAbortPendingIn : Fw Unit := do
  let _ ← moment
  onUsb fun u =>
    if u.selected = vueCartReaderInEpAddr && u.inBusy then
      { u with inBank := [], inBusy := false }
    else u

/-- Both bulk endpoints are configured anew, the OUT endpoint last. -/
def configureBulkEndpoints : Fw Unit := do
  let _ ← moment
  onUsb fun u => { u.reconfigured with enabled := true, selected := vueCartReaderOutEpAddr }

/-! ## Bytes -/

/-- `Endpoint_Read_8` on the OUT endpoint. -/
def endpointRead8 : Fw Byte := do
  match (← state).usb.outBank with
  | some (x :: rest) =>
      onUsb fun u => { u with outBank := some rest }
      note (.take x)
      return x
  | _ => return 0#8

/-- `Endpoint_Write_8` on the IN endpoint. -/
def endpointWrite8 (x : Byte) : Fw Unit := do
  onUsb fun u => { u with inBank := u.inBank ++ [x] }
  note (.give x)

/-! ## Waiting -/

/-- What the controller shows to a task that waits for the selected endpoint and
does not find it ready. -/
def Usb.waitError (u : Usb) : StreamResult :=
  if u.deviceState = .unattached then .deviceDisconnected
  else if u.deviceState = .suspended then .busSuspended
  else if u.isStalled then .endpointStalled
  else .timeout

/-- `Endpoint_WaitUntilReady`. The loop looks for readiness and then for an error
until one is found; what came before the last round leaves no trace, so the round
is all there is here. -/
def endpointWaitUntilReady : Fw StreamResult := do
  let _ ← moment
  let u := (← state).usb
  if u.outReceived || u.inReady then
    return .noError
  else
    let _ ← moment
    return (← state).usb.waitError

end VueCartReader
