import VueCartReader.Board.Access

/-!
# Commands

`struct vue_command` as the host sends it, 32 packed bytes with its integers in big
endian, and as the firmware sees it, a structure in little-endian memory. The
firmware receives the bytes straight into the structure (`VueCommand.store`) and
then turns its integers round in place (`VueCommand.correct`).
-/

set_option autoImplicit false

namespace VueCartReader

/-! ## Enumerations -/

/-- `fsm_state`; the variable may hold other values of its integer type. -/
inductive FsmState where
  | idle
  | read
  | write
  | other (raw : BitVec 32)
  deriving DecidableEq, Repr

/-- The state behind an integer. -/
def FsmState.ofRaw (raw : BitVec 32) : FsmState :=
  if raw = 0#32 then .idle else if raw = 1#32 then .read else if raw = 2#32 then .write
  else .other raw

abbrev opOffset : BitVec 32 := 1#32

def isOperationDefined (x : BitVec 32) : Bool := 0#32 ≤ x && x ≤ 1#32

def isAccessTypeDefined (x : Byte) : Bool := 0#8 ≤ x && x ≤ 2#8

def isTargetDefined (x : Byte) : Bool := 0#8 ≤ x && x ≤ 2#8

/-! ## Byte order -/

/-- The integer whose bytes in memory are given, lowest address first. -/
def word32 (b0 b1 b2 b3 : Byte) : BitVec 32 := b3 ++ b2 ++ b1 ++ b0

/-- The byte of an integer at an address of its memory. -/
def byteOf (x : BitVec 32) (i : Nat) : Byte := (x >>> (8 * i)).setWidth 8

/-- `BE32_TO_CPU` on a little-endian machine. -/
def swapEndian32 (x : BitVec 32) : BitVec 32 :=
  ((x &&& 0xFF000000#32) >>> 24) ||| ((x &&& 0x00FF0000#32) >>> 8) |||
    ((x &&& 0x0000FF00#32) <<< 8) ||| ((x &&& 0x000000FF#32) <<< 24)

theorem byteOf_word32 (b0 b1 b2 b3 : Byte) :
    byteOf (word32 b0 b1 b2 b3) 0 = b0 ∧ byteOf (word32 b0 b1 b2 b3) 1 = b1 ∧
      byteOf (word32 b0 b1 b2 b3) 2 = b2 ∧ byteOf (word32 b0 b1 b2 b3) 3 = b3 := by
  unfold byteOf word32
  refine ⟨?_, ?_, ?_, ?_⟩ <;>
  · apply BitVec.eq_of_getLsbD_eq
    intro i bound
    rw [BitVec.getLsbD_setWidth, BitVec.getLsbD_ushiftRight, BitVec.getLsbD_append,
      BitVec.getLsbD_append, BitVec.getLsbD_append]
    interval_cases i <;> simp

theorem word32_byteOf (x : BitVec 32) :
    word32 (byteOf x 0) (byteOf x 1) (byteOf x 2) (byteOf x 3) = x := by
  unfold byteOf word32
  apply BitVec.eq_of_getLsbD_eq
  intro i bound
  rw [BitVec.getLsbD_append, BitVec.getLsbD_append, BitVec.getLsbD_append]
  interval_cases i <;> simp

theorem swapEndian32_word32 (b0 b1 b2 b3 : Byte) :
    swapEndian32 (word32 b0 b1 b2 b3) = word32 b3 b2 b1 b0 := by
  unfold swapEndian32 word32
  apply BitVec.eq_of_getLsbD_eq
  intro i bound
  simp only [BitVec.getLsbD_or, BitVec.getLsbD_ushiftRight, BitVec.getLsbD_shiftLeft,
    BitVec.getLsbD_and, BitVec.getLsbD_append]
  interval_cases i <;> simp

/-! ## The structure and its memory -/

structure VueCommand where
  accessMode : Byte
  targetRegion : Byte
  dummy4 : Byte
  dummy5 : Byte
  operation : BitVec 32
  address : BitVec 32
  length : BitVec 32
  dummy0 : BitVec 32
  dummy1 : BitVec 32
  dummy2 : BitVec 32
  dummy3 : BitVec 32
  deriving DecidableEq, Repr

namespace VueCommand

/-- The memory of the packed structure. -/
def toBytes (c : VueCommand) : Vector Byte 32 :=
  #v[c.accessMode, c.targetRegion, c.dummy4, c.dummy5,
    byteOf c.operation 0, byteOf c.operation 1, byteOf c.operation 2, byteOf c.operation 3,
    byteOf c.address 0, byteOf c.address 1, byteOf c.address 2, byteOf c.address 3,
    byteOf c.length 0, byteOf c.length 1, byteOf c.length 2, byteOf c.length 3,
    byteOf c.dummy0 0, byteOf c.dummy0 1, byteOf c.dummy0 2, byteOf c.dummy0 3,
    byteOf c.dummy1 0, byteOf c.dummy1 1, byteOf c.dummy1 2, byteOf c.dummy1 3,
    byteOf c.dummy2 0, byteOf c.dummy2 1, byteOf c.dummy2 2, byteOf c.dummy2 3,
    byteOf c.dummy3 0, byteOf c.dummy3 1, byteOf c.dummy3 2, byteOf c.dummy3 3]

/-- The structure that lies in some memory. -/
def ofBytes (m : Vector Byte 32) : VueCommand where
  accessMode := m[0]
  targetRegion := m[1]
  dummy4 := m[2]
  dummy5 := m[3]
  operation := word32 m[4] m[5] m[6] m[7]
  address := word32 m[8] m[9] m[10] m[11]
  length := word32 m[12] m[13] m[14] m[15]
  dummy0 := word32 m[16] m[17] m[18] m[19]
  dummy1 := word32 m[20] m[21] m[22] m[23]
  dummy2 := word32 m[24] m[25] m[26] m[27]
  dummy3 := word32 m[28] m[29] m[30] m[31]

theorem ofBytes_toBytes (c : VueCommand) : ofBytes c.toBytes = c := by
  simp only [ofBytes, toBytes]
  simp [word32_byteOf]

theorem toBytes_ofBytes (m : Vector Byte 32) : (ofBytes m).toBytes = m := by
  apply Vector.ext
  intro i bound
  simp only [toBytes, ofBytes, byteOf_word32]
  interval_cases i <;> rfl

/-- Write a byte into the memory of the structure. -/
def store (i : Nat) (x : Byte) (c : VueCommand) : VueCommand :=
  if inside : i < 32 then ofBytes (c.toBytes.set i x inside) else c

/-- The integers turned round in place, and the address clamped. -/
def correct (c : VueCommand) : VueCommand :=
  { c with
    address := swapEndian32 c.address &&& ((vueAddressMask <<< 1) ||| 1#32)
    length := swapEndian32 c.length
    operation := swapEndian32 c.operation
    dummy0 := swapEndian32 c.dummy0
    dummy1 := swapEndian32 c.dummy1
    dummy2 := swapEndian32 c.dummy2
    dummy3 := swapEndian32 c.dummy3 }

/-- The input validation of `VUE_Command_Task`. -/
def defined (c : VueCommand) : Bool :=
  isAccessTypeDefined c.accessMode && isTargetDefined c.targetRegion &&
    isOperationDefined c.operation

theorem toBytes_store {i : Nat} (inside : i < 32) (x : Byte) (c : VueCommand) :
    (c.store i x).toBytes = c.toBytes.set i x inside := by
  rw [store, dif_pos inside, toBytes_ofBytes]

/-- A command as 32 bytes of the host say it. -/
def ofPacket (bytes : Vector Byte 32) : VueCommand := (ofBytes bytes).correct

end VueCommand

/-! ## What a command selects -/

/-- The chip selects that are high while a target is selected, by target. -/
def targetSelectMap : List (BitVec 32) :=
  [vueCartReaderNStatus ||| vueNRomCe ||| vueNEs,
    vueCartReaderNStatus ||| vueNRamCs ||| vueNEs,
    vueCartReaderNStatus ||| vueNRomCe ||| vueNRamCs]

/-- The read routine of an access mode. -/
def readFunc (accessMode : Byte) : AccessFunc :=
  if accessMode = 0#8 then .vueReadData16bit
  else if accessMode = 1#8 then .vueReadData8bitLo
  else if accessMode = 2#8 then .vueReadData8bitHi
  else .vueReadData16bit

/-- The write routine of an access mode. -/
def writeFunc (accessMode : Byte) : AccessFunc :=
  if accessMode = 0#8 then .vueWriteData16bit
  else if accessMode = 1#8 then .vueWriteData8bitLo
  else if accessMode = 2#8 then .vueWriteData8bitHi
  else .vueWriteData16bit

end VueCartReader
