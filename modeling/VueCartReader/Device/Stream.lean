import VueCartReader.Device.Control

/-!
# Stream calls

`Endpoint_Read_Stream_LE` and `Endpoint_Write_Stream_LE` are one template: wait for
the endpoint, move bytes while the bank allows it, and when it does not, clear the
bank, run `USB_USBTask` and report an incomplete transfer together with the progress.
The firmware calls them in a loop that goes on after an incomplete transfer unless
`bulk_reset` is set.
-/

set_option autoImplicit false

namespace VueCartReader

open Program

/-- What distinguishes the two stream functions. -/
structure Direction where
  /-- Move the byte at a position of the buffer. -/
  transferByte : Nat → Fw Unit
  clearEndpoint : Fw Unit
  operation : BulkOperation

/-- `while (Length)`: how many bytes are left, and how many have been moved in this
call. The progress is reported only with an incomplete transfer. -/
def transferBytes (d : Direction) (processed : Nat) : Nat → Nat → Fw (StreamResult × Nat)
  | 0, _ => return (.noError, processed)
  | left + 1, bytesInTransfer => do
      if ← endpointIsReadWriteAllowed then
        d.transferByte (processed + bytesInTransfer)
        transferBytes d processed left (bytesInTransfer + 1)
      else
        d.clearEndpoint
        usbUsbTask
        return (.incompleteTransfer, processed + bytesInTransfer)

/-- A stream call over a buffer of some length, of which part is processed. -/
def endpointStream (d : Direction) (length processed : Nat) : Fw (StreamResult × Nat) := do
  note (.operate d.operation (← state).usb.selected)
  match ← endpointWaitUntilReady with
  | .noError => transferBytes d processed (length - processed) 0
  | error => return (error, processed)

/-- The retry loop around a stream call, with at most some calls: whether it ended
other than by `bulk_reset`. -/
def retryStream (d : Direction) (length : Nat) : Nat → Nat → Fw Bool
  | 0, _ => stop
  | calls + 1, processed => do
      let (result, progress) ← endpointStream d length processed
      note (.stream result)
      if result = .incompleteTransfer then
        let v := (← state).vars
        if v.bulkReset ≠ 0#32 then
          note (.abandon v.curVueState)
          return false
        else
          retryStream d length calls progress
      else
        return true

/-- The whole loop. Every call takes a moment, so as many calls as there are moments
are enough. -/
def stream (d : Direction) (length : Nat) : Fw Bool := do
  retryStream d length ((← state).script.length + 1) 0

/-- Reading from the OUT endpoint; `store` puts a byte into the buffer. -/
def readStream (store : Nat → Byte → Vars → Vars) : Direction where
  transferByte i := do
    let x ← endpointRead8
    onVars (store i x)
  clearEndpoint := endpointClearOut .task
  operation := .readStream

/-- Writing a buffer to the IN endpoint. -/
def writeStream (load : Nat → Vars → Byte) : Direction where
  transferByte i := do
    endpointWrite8 (load i (← state).vars)
  clearEndpoint := endpointClearIn
  operation := .writeStream

/-- The memory of `cur_command`. -/
def storeCommand (i : Nat) (x : Byte) (v : Vars) : Vars :=
  { v with curCommand := v.curCommand.store i x }

/-- The memory of `bulk_buffer`. -/
def storeBuffer (i : Nat) (x : Byte) (v : Vars) : Vars :=
  { v with bulkBuffer := v.bulkBuffer.set! i x }

def loadBuffer (i : Nat) (v : Vars) : Byte := v.bulkBuffer.toList.getD i 0#8

end VueCartReader
