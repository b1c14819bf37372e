import Mathlib.Data.BitVec

/-!
# The pins, the latches and the cartridge

The microcontroller reaches the cartridge over two 8-bit ports that carry
address and data in turn (`VUE_ADL` for AD0-AD7, `VUE_ADH` for AD8-AD15) and one
port of control lines (`VUE_CTRL`): `PL` loads the address, `nOE`, `nUWR` and
`nLWR` strobe a read, a write of the upper and a write of the lower byte.

The latches between the ports and the cartridge are on the board, not in the
program. The low latch takes AD0-AD14 when `PL` rises. The high latch takes the
flags from AD0-AD7 and A15-A22 from AD8-AD15 when `PL AND AD15` falls. Both take
the levels in force after the port write that makes the edge.

A line of an output port has the level of its `out` register. A line of an input
port is driven by the cartridge while `nOE` is low and pulled up otherwise.
-/

set_option autoImplicit false

namespace VueCartReader

abbrev Byte := BitVec 8

/-! ## Pin and mask definitions -/

abbrev vueCartReaderPl : Byte := 1#8 <<< 2
abbrev vueNUwr : Byte := 1#8 <<< 4
abbrev vueNLwr : Byte := 1#8 <<< 7
abbrev vueNOe : Byte := 1#8 <<< 6
abbrev vueAd15 : Byte := 1#8 <<< 7

abbrev vueCartReaderNStatus : BitVec 32 := 1#32 <<< 23
abbrev vueNRomCe : BitVec 32 := 1#32 <<< 24
abbrev vueNRamCs : BitVec 32 := 1#32 <<< 25
abbrev vueNEs : BitVec 32 := 1#32 <<< 27

abbrev vueFlagMask : BitVec 32 := vueCartReaderNStatus ||| vueNRomCe ||| vueNRamCs ||| vueNEs
abbrev vueAddressMaskLo : BitVec 32 := 0x007FFF#32
abbrev vueAddressMask : BitVec 32 := 0x7FFFFF#32

/-! ## Ports and board -/

/-- The direction and output registers of a port (`struct avr_gpio`; what `in`
reads is the level of the lines). -/
structure AvrGpio where
  dir : Byte
  out : Byte
  deriving DecidableEq, Repr

/-- What a cartridge drives on AD0-AD7 and AD8-AD15 when it is read, for every
flag byte and word address in the latches. -/
def Cartridge : Type := Byte → BitVec 23 → Byte × Byte

/-- The ports, what the two latches hold, and the cartridge plugged in. -/
structure Board where
  ctrl : AvrGpio
  adl : AvrGpio
  adh : AvrGpio
  lowLatch : BitVec 15
  flagLatch : Byte
  pageLatch : Byte
  cartridge : Cartridge

namespace Board

/-- Address load. -/
def pl (b : Board) : Bool := b.ctrl.out.getLsbD 2

/-- Write strobe of the upper byte, active low. -/
def nUWR (b : Board) : Bool := b.ctrl.out.getLsbD 4

/-- Read strobe, active low. -/
def nOE (b : Board) : Bool := b.ctrl.out.getLsbD 6

/-- Write strobe of the lower byte, active low. -/
def nLWR (b : Board) : Bool := b.ctrl.out.getLsbD 7

/-- What the two latches hold. -/
def latches (b : Board) : BitVec 15 × Byte × Byte := (b.lowLatch, b.flagLatch, b.pageLatch)

/-- The word address in the two latches. -/
def latchedAddress (b : Board) : BitVec 23 := b.pageLatch ++ b.lowLatch

/-- What the undriven AD0-AD7 and AD8-AD15 carry: the cartridge's word during a
read, the pull-ups otherwise. -/
def undriven (b : Board) : Byte × Byte :=
  if b.nOE then (0xFF#8, 0xFF#8) else b.cartridge b.flagLatch b.latchedAddress

/-- The levels of AD0-AD7, also what `VUE_ADL->in` reads. -/
def adlIn (b : Board) : Byte := (b.adl.out &&& b.adl.dir) ||| (b.undriven.1 &&& ~~~b.adl.dir)

/-- The levels of AD8-AD15, also what `VUE_ADH->in` reads. -/
def adhIn (b : Board) : Byte := (b.adh.out &&& b.adh.dir) ||| (b.undriven.2 &&& ~~~b.adh.dir)

/-- The line whose falling edge loads the high latch. -/
def highLoad (b : Board) : Bool := b.pl && b.adhIn.getLsbD 7

/-- The low latch loads when `PL` rises. -/
def loadLow (before after : Board) : Board :=
  if !before.pl && after.pl then
    { after with lowLatch := (after.adhIn ++ after.adlIn).setWidth 15 }
  else after

/-- The high latch loads when `PL AND AD15` falls. -/
def loadHigh (before after : Board) : Board :=
  if before.highLoad && !after.highLoad then
    { after with flagLatch := after.adlIn, pageLatch := after.adhIn }
  else after

/-- The board once the latches have followed a write to a port. -/
def settle (before after : Board) : Board := loadLow before (loadHigh before after)

end Board

/-- The ports as `board_init` sets them; what the latches hold is left open. -/
def boardInit (cartridge : Cartridge) (lowLatch : BitVec 15) (flagLatch pageLatch : Byte) :
    Board where
  ctrl := ⟨0xF4#8, 0xF2#8⟩
  adl := ⟨0x00#8, 0xFF#8⟩
  adh := ⟨0x00#8, 0xFF#8⟩
  lowLatch := lowLatch
  flagLatch := flagLatch
  pageLatch := pageLatch
  cartridge := cartridge

/-! ## Port writes -/

/-- The board, and every state it has been in since the observation began,
oldest first. -/
structure Rig where
  board : Board
  seen : List Board

namespace Rig

/-- Write to a port register. -/
def write (f : Board → Board) (r : Rig) : Rig :=
  let after := Board.settle r.board (f r.board)
  ⟨after, r.seen ++ [after]⟩

/-- `VUE_ADL->dir = x` -/
def adlDir (x : Byte) : Rig → Rig := write fun b => { b with adl := { b.adl with dir := x } }

/-- `VUE_ADL->out = x` -/
def adlOut (x : Byte) : Rig → Rig := write fun b => { b with adl := { b.adl with out := x } }

/-- `VUE_ADH->dir = x` -/
def adhDir (x : Byte) : Rig → Rig := write fun b => { b with adh := { b.adh with dir := x } }

/-- `VUE_ADH->out = x` -/
def adhOut (x : Byte) : Rig → Rig := write fun b => { b with adh := { b.adh with out := x } }

/-- `VUE_CTRL->out |= x` -/
def ctrlOr (x : Byte) : Rig → Rig :=
  write fun b => { b with ctrl := { b.ctrl with out := b.ctrl.out ||| x } }

/-- `VUE_CTRL->out &= x` -/
def ctrlAnd (x : Byte) : Rig → Rig :=
  write fun b => { b with ctrl := { b.ctrl with out := b.ctrl.out &&& x } }

end Rig

end VueCartReader
