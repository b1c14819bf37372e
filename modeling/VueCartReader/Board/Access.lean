import VueCartReader.Board.Cycle
import VueCartReader.Program.Counting

/-!
# Reading and writing cartridge data

The six routines that move a buffer over the bus. They share a running address
and step through the buffer with a pointer; each round writes the address, pulses
a strobe and counts the address up in place of wait states.

A buffer holds 64 bytes, the size of a bulk endpoint. An access past its end has
no defined result, and neither has a loop whose counter wraps for ever: both are
`none`.
-/

set_option autoImplicit false

namespace VueCartReader

open Program

abbrev Buffer := Vector Byte 64

/-- What a routine works on: the board, `*address`, the buffer, and how far the
`buffer` pointer has moved. -/
structure Access where
  rig : Rig
  address : BitVec 32
  buffer : Buffer
  pos : Nat

namespace Access

/-- `*buffer++ = x` -/
def store (x : Byte) (a : Access) : Option Access :=
  if inside : a.pos < 64 then
    some { a with buffer := a.buffer.set a.pos x inside, pos := a.pos + 1 }
  else none

/-- `... = *buffer++`, for a write to a port. -/
def fetch (port : Byte → Rig → Rig) (a : Access) : Option Access :=
  if inside : a.pos < 64 then
    some { a with rig := port a.buffer[a.pos] a.rig, pos := a.pos + 1 }
  else none

end Access

/-- One round of a read routine that takes a byte from each of the ports. -/
def readRound (ports : List (Board → Byte)) (a : Access) : Option Access :=
  let rig := (vueWriteAddress a.address a.rig).ctrlAnd (~~~vueNOe)
  let strobed : Access := { a with rig := rig, address := vueIncAddress a.address }
  (ports.foldlM (fun (a : Access) port => a.store (port rig.board)) strobed).map fun a =>
    { a with rig := a.rig.ctrlOr vueNOe }

/-- One round of a write routine that gives a byte to each of the ports, turns the
bus round and pulses the strobes. -/
def writeRound (ports : List (Byte → Rig → Rig)) (turn : Rig → Rig) (strobes : Byte)
    (a : Access) : Option Access :=
  let addressed : Access := { a with rig := vueWriteAddress a.address a.rig }
  (ports.foldlM (fun (a : Access) port => a.fetch port) addressed).map fun a =>
    { a with
      rig := (turn a.rig).ctrlAnd (~~~strobes) |>.ctrlOr strobes
      address := vueIncAddress a.address }

def vueReadData16bit (length : BitVec 8) : Access → Option Access :=
  countLoop length 2#8 (readRound [Board.adlIn, Board.adhIn]) 256 0#8

def vueReadData8bitLo (length : BitVec 8) : Access → Option Access :=
  countLoop length 1#8 (readRound [Board.adlIn]) 256 0#8

def vueReadData8bitHi (length : BitVec 8) : Access → Option Access :=
  countLoop length 1#8 (readRound [Board.adhIn]) 256 0#8

def vueWriteData16bit (length : BitVec 8) (a : Access) : Option Access :=
  (countLoop length 2#8
    (writeRound [Rig.adlOut, Rig.adhOut] (fun r => r.adlDir 0xFF#8 |>.adhDir 0xFF#8)
      (vueNUwr ||| vueNLwr)) 256 0#8 a).map
    fun a => { a with rig := releaseBus a.rig }

def vueWriteData8bitLo (length : BitVec 8) (a : Access) : Option Access :=
  (countLoop length 1#8 (writeRound [Rig.adlOut] (Rig.adlDir 0xFF#8) vueNLwr) 256 0#8 a).map
    fun a => { a with rig := a.rig.adlOut 0xFF#8 |>.adlDir 0x00#8 }

/-- The data goes to AD8-AD15, but it is AD0-AD7 that is turned to output. -/
def vueWriteData8bitHi (length : BitVec 8) (a : Access) : Option Access :=
  (countLoop length 1#8 (writeRound [Rig.adhOut] (Rig.adlDir 0xFF#8) vueNUwr) 256 0#8 a).map
    fun a => { a with rig := a.rig.adhOut 0xFF#8 |>.adhDir 0x00#8 }

/-- What `bulk_access_func` points to. -/
inductive AccessFunc where
  | vueReadData16bit
  | vueReadData8bitLo
  | vueReadData8bitHi
  | vueWriteData16bit
  | vueWriteData8bitLo
  | vueWriteData8bitHi
  deriving DecidableEq, Repr

/-- A call of the routine, with the pointer at the start of the buffer. -/
def AccessFunc.call (f : AccessFunc) (length : BitVec 8) (rig : Rig) (address : BitVec 32)
    (buffer : Buffer) : Option Access :=
  let a : Access := ⟨rig, address, buffer, 0⟩
  match f with
  | .vueReadData16bit => VueCartReader.vueReadData16bit length a
  | .vueReadData8bitLo => VueCartReader.vueReadData8bitLo length a
  | .vueReadData8bitHi => VueCartReader.vueReadData8bitHi length a
  | .vueWriteData16bit => VueCartReader.vueWriteData16bit length a
  | .vueWriteData8bitLo => VueCartReader.vueWriteData8bitLo length a
  | .vueWriteData8bitHi => VueCartReader.vueWriteData8bitHi length a

/-! ## Pulsing a strobe -/

theorem and_not_or_of_set {x m : Byte} (set : x &&& m = m) : x &&& ~~~m ||| m = x := by
  apply BitVec.eq_of_getLsbD_eq
  intro i bound
  have bit := congrArg (BitVec.getLsbD · i) set
  simp only [BitVec.getLsbD_and, BitVec.getLsbD_or, BitVec.getLsbD_not] at *
  cases hx : x.getLsbD i <;> cases hm : m.getLsbD i <;> simp_all

/-- The board while the strobes of a mask are low. -/
def Board.strobed (b : Board) (m : Byte) : Board :=
  { b with ctrl := { b.ctrl with out := b.ctrl.out &&& ~~~m } }

/-- The cycle that the strobes of a mask end on a board. -/
def Board.cycle (b : Board) (m : Byte) : BusCycle :=
  ⟨b.flagLatch, b.latchedAddress, (b.strobed m).drive⟩

/-- A mask of strobes, without `PL`. -/
def IsStrobeMask (m : Byte) : Prop :=
  m.getLsbD 2 = false ∧ (m.getLsbD 4 || m.getLsbD 6 || m.getLsbD 7) = true

@[simp] theorem strobed_nOE (b : Board) (m : Byte) :
    (b.strobed m).nOE = (b.nOE && !m.getLsbD 6) := by simp [Board.strobed, Board.nOE]

@[simp] theorem strobed_nUWR (b : Board) (m : Byte) :
    (b.strobed m).nUWR = (b.nUWR && !m.getLsbD 4) := by simp [Board.strobed, Board.nUWR]

@[simp] theorem strobed_nLWR (b : Board) (m : Byte) :
    (b.strobed m).nLWR = (b.nLWR && !m.getLsbD 7) := by simp [Board.strobed, Board.nLWR]

theorem busCycle_strobed {b : Board} {m : Byte} (mask : IsStrobeMask m) (idle : b.Idle) :
    busCycle (b.strobed m) b = some (b.cycle m) := by
  obtain ⟨oe, uwr, lwr⟩ := idle
  obtain ⟨-, some_⟩ := mask
  have any : (m.getLsbD 6 || m.getLsbD 7 || m.getLsbD 4) = true := by
    revert some_
    cases m.getLsbD 4 <;> cases m.getLsbD 6 <;> cases m.getLsbD 7 <;> simp
  simp only [busCycle, Board.cycle, Board.drive, strobed_nOE, strobed_nLWR, strobed_nUWR, oe,
    uwr, lwr, Bool.true_and, Bool.not_not, Bool.and_true, any, if_true]
  rfl

theorem set_of_idle {b : Board} {m : Byte} (idle : b.Idle)
    (only : m &&& ~~~(vueNOe ||| vueNUwr ||| vueNLwr) = 0#8) : b.ctrl.out &&& m = m := by
  obtain ⟨oe, uwr, lwr⟩ := idle
  unfold Board.nOE Board.nUWR Board.nLWR at *
  have others : ∀ i, (m &&& 0x2F#8).getLsbD i = false := fun i => by
    rw [show (0x2F#8 : Byte) = ~~~(vueNOe ||| vueNUwr ||| vueNLwr) from rfl, only]
    simp
  apply BitVec.eq_of_getLsbD_eq
  intro i bound
  have bit := others i
  rw [BitVec.getLsbD_and] at bit ⊢
  interval_cases i <;> simp_all

theorem Board.strobed_low {b : Board} (low : b.pl = false) (m : Byte) :
    (b.strobed m).pl = false := by
  have bit : b.ctrl.out.getLsbD 2 = false := low
  rw [Board.pl, Board.strobed, BitVec.getLsbD_and, bit, Bool.false_and]

theorem Rig.strobe_board {r : Rig} (low : r.board.pl = false) (m : Byte) :
    (r.ctrlAnd (~~~m)).board = r.board.strobed m :=
  Board.settle_low low (Board.strobed_low low m)

/-- The strobes of a mask fall and rise over an addressed board. -/
theorem Performs.pulse {P : Nat → Board → Prop} {n : Nat} {r r' : Rig} {b : Board}
    {cs : List BusCycle} (h : Performs P n r r' b cs) {m : Byte} (mask : IsStrobeMask m)
    (only : m &&& ~~~(vueNOe ||| vueNUwr ||| vueNLwr) = 0#8) (low : b.pl = false)
    (idle : b.Idle) (during : P (n + cs.length) (b.strobed m)) (after : P (n + cs.length + 1) b) :
    Performs P n r (r'.ctrlAnd (~~~m) |>.ctrlOr m) b (cs ++ [b.cycle m]) := by
  have lowStrobed := Board.strobed_low low m
  have fallen : Performs P n r (r'.ctrlAnd (~~~m)) (b.strobed m) cs := by
    have written := h.write (f := fun b => b.strobed m) (Board.settle_low low lowStrobed)
      (congrArg Option.toList (busCycle_of_idle idle)) during rfl
    rwa [show (none : Option BusCycle).toList = [] from rfl, List.append_nil] at written
  have restored : { b.strobed m with
      ctrl := { (b.strobed m).ctrl with out := (b.strobed m).ctrl.out ||| m } } = b := by
    have out := and_not_or_of_set (set_of_idle idle only)
    simp only [Board.strobed, out]
  refine fallen.write (f := fun b => { b with ctrl := { b.ctrl with out := b.ctrl.out ||| m } }) ?_
    (congrArg Option.toList (busCycle_strobed mask idle)) after rfl
  rw [restored]
  exact Board.settle_low lowStrobed low

end VueCartReader
