import VueCartReader.Board.Rig
import Mathlib.Tactic.IntervalCases

/-!
# Latching an address

`vueWriteAddressFull` loads both latches, `vueWriteAddressLo15` only the low one.
Both leave the AD ports released and every control line as it was.

`vueWriteAddress` takes the short way whenever one of the low 15 address bits is
set. That is right as long as the high latch already holds the flags and the page
of the address (`Fresh`), and `vueIncAddress` keeps it so: a word address whose
low bits are not all zero lies on the page of its predecessor
(`Fresh.vueIncAddress`).
-/

set_option autoImplicit false

namespace VueCartReader

/-! ## The routines -/

/-- Change the AD bus from output to pulled-up input. -/
def releaseBus (r : Rig) : Rig :=
  r.adlOut 0xFF#8 |>.adlDir 0x00#8 |>.adhOut 0xFF#8 |>.adhDir 0x00#8

/-- A0-A7 and A8-A14 are loaded by a pulse of `PL`; AD15 stays low, so the high latch does not
load. -/
def vueWriteAddressLo15 (address : BitVec 32) (r : Rig) : Rig :=
  r.adlDir 0xFF#8
  |>.adhDir 0xFF#8
  |>.adlOut ((address &&& 0xFF#32).setWidth 8)
  |>.adhOut (((address >>> 8) &&& (vueAddressMaskLo >>> 8)).setWidth 8)
  |>.ctrlOr vueCartReaderPl
  |>.ctrlAnd (~~~vueCartReaderPl)
  |> releaseBus

/-- A0-A7, and A8-A14 with AD15 high, are loaded when `PL` rises; then the flags, and A15-A21 with
AD15 still high, are presented. The high latch loads at the last `out` when A22 is low, and when
`PL` falls otherwise. -/
def vueWriteAddressFull (address : BitVec 32) (r : Rig) : Rig :=
  r.adlDir 0xFF#8
  |>.adhDir 0xFF#8
  |>.adlOut ((address &&& 0xFF#32).setWidth 8)
  |>.adhOut (vueAd15 ||| ((address >>> 8) &&& (vueAddressMaskLo >>> 8)).setWidth 8)
  |>.ctrlOr vueCartReaderPl
  |>.adlOut (((address >>> 23) &&& (vueFlagMask >>> 23)).setWidth 8)
  |>.adhOut (vueAd15 ||| ((address >>> 15) &&& (vueAddressMask >>> 15)).setWidth 8)
  |>.adhOut (((address >>> 15) &&& (vueAddressMask >>> 15)).setWidth 8)
  |>.ctrlAnd (~~~vueCartReaderPl)
  |> releaseBus

def vueWriteAddress (address : BitVec 32) (r : Rig) : Rig :=
  if address &&& vueAddressMaskLo ≠ 0#32 then vueWriteAddressLo15 address r
  else vueWriteAddressFull address r

def vueIncAddress (address : BitVec 32) : BitVec 32 :=
  (address &&& vueFlagMask) ||| (((address &&& vueAddressMask) + 1#32) &&& vueAddressMask)

/-! ## The parts of an address word -/

/-- A port turned back to pulled-up input. -/
def released : AvrGpio := ⟨0x00#8, 0xFF#8⟩

/-- A0-A14. -/
def lowBits (address : BitVec 32) : BitVec 15 := address.setWidth 15

/-- A15-A22. -/
def pageBits (address : BitVec 32) : Byte := (address >>> 15).setWidth 8

/-- The flag byte of the high latch. -/
def flagBits (address : BitVec 32) : Byte := ((address >>> 23) &&& (vueFlagMask >>> 23)).setWidth 8

/-- The 23-bit word address. -/
def wordAddress (address : BitVec 32) : BitVec 23 := address.setWidth 23

theorem or_pl_and_not_pl {x : Byte} (low : x.getLsbD 2 = false) :
    (x ||| vueCartReaderPl) &&& ~~~vueCartReaderPl = x := by
  apply BitVec.eq_of_getLsbD_eq
  intro i bound
  interval_cases i <;> simp_all

/-- AD0-AD14 with the first two bytes of an address on the ports; AD15 is free. -/
theorem lowBytes_eq (address : BitVec 32) (top : Byte) :
    ((top &&& vueAd15 ||| ((address >>> 8) &&& (vueAddressMaskLo >>> 8)).setWidth 8) ++
      ((address &&& 0xFF#32).setWidth 8 : Byte)).setWidth 15 = lowBits address := by
  have mask : vueAddressMaskLo >>> 8 = 0x7F#32 := rfl
  apply BitVec.eq_of_getLsbD_eq
  intro i bound
  rw [mask, BitVec.getLsbD_setWidth, BitVec.getLsbD_append]
  interval_cases i <;> simp [lowBits]

theorem pageByte_eq (address : BitVec 32) :
    ((address >>> 15) &&& (vueAddressMask >>> 15)).setWidth 8 = pageBits address := by
  have mask : vueAddressMask >>> 15 = 0xFF#32 := rfl
  rw [mask, pageBits]
  apply BitVec.eq_of_getLsbD_eq
  intro i bound
  interval_cases i <;> simp

theorem secondByte_ad15 (address : BitVec 32) :
    (((address >>> 8) &&& (vueAddressMaskLo >>> 8)).setWidth 8).getLsbD 7 = false := by
  simp [vueAddressMaskLo]

theorem or_ad15 (x : Byte) : (vueAd15 ||| x).getLsbD 7 = true := by simp

/-! ## What the routines do to the board -/

/-- A state an address write goes through: the strobes stand still, and the flag
latch holds what it held or the new flags. -/
structure AddressStep (start : Board) (flags : Byte) (b : Board) : Prop where
  nOE : b.nOE = start.nOE
  nUWR : b.nUWR = start.nUWR
  nLWR : b.nLWR = start.nLWR
  flagLatch : b.flagLatch = start.flagLatch ∨ b.flagLatch = flags

section Phases

variable {P : Board → Prop} {r r' : Rig} {b : Board}

theorem or_pl (x : Byte) : (x ||| vueCartReaderPl).getLsbD 2 = true := by simp

theorem and_not_pl (x : Byte) : (x &&& ~~~vueCartReaderPl).getLsbD 2 = false := by simp

/-- The AD bus becomes an output that carries two bytes. -/
theorem Reaches.present (h : Reaches P r r' b) (first second : Byte) (low : b.pl = false)
    (ok : ∀ adl adh, P { b with adl := adl, adh := adh }) :
    Reaches P r (r'.adlDir 0xFF#8 |>.adhDir 0xFF#8 |>.adlOut first |>.adhOut second)
      { b with adl := ⟨0xFF#8, first⟩, adh := ⟨0xFF#8, second⟩ } :=
  h.adlDir 0xFF#8 low (ok _ b.adh) |>.adhDir 0xFF#8 low (ok _ _)
    |>.adlOut first low (ok ⟨0xFF#8, first⟩ _) |>.adhOut second low (ok _ ⟨0xFF#8, second⟩)

/-- Once the bus is released, nothing but the AD ports has changed. -/
theorem Reaches.releaseBus (h : Reaches P r r' b) (low : b.pl = false)
    (ok : ∀ adl adh, P { b with adl := adl, adh := adh }) :
    Reaches P r (releaseBus r') { b with adl := released, adh := released } :=
  h.adlOut 0xFF#8 low (ok _ b.adh) |>.adlDir 0x00#8 low (ok _ b.adh)
    |>.adhOut 0xFF#8 low (ok released _) |>.adhDir 0x00#8 low (ok released released)

/-- `PL` rises over a driven bus: the low latch loads. -/
theorem Reaches.raisePl {first second : Byte} (h : Reaches P r r' b) (low : b.pl = false)
    (adl : b.adl = ⟨0xFF#8, first⟩) (adh : b.adh = ⟨0xFF#8, second⟩)
    (ok : P { b with ctrl := { b.ctrl with out := b.ctrl.out ||| vueCartReaderPl }
                     lowLatch := (second ++ first).setWidth 15 }) :
    Reaches P r (r'.ctrlOr vueCartReaderPl)
      { b with ctrl := { b.ctrl with out := b.ctrl.out ||| vueCartReaderPl }
               lowLatch := (second ++ first).setWidth 15 } := by
  refine h.write
    (f := fun b => { b with ctrl := { b.ctrl with out := b.ctrl.out ||| vueCartReaderPl } })
    ?_ ok rfl
  have high : Board.pl
      { b with ctrl := { b.ctrl with out := b.ctrl.out ||| vueCartReaderPl } } = true := or_pl _
  rw [Board.settle_rise low high, Board.adhIn_output (by simp [adh]),
    Board.adlIn_output (by simp [adl])]
  simp [adl, adh]

theorem highLoad_of_ad15 {second : Byte} (high : b.pl = true) (adh : b.adh = ⟨0xFF#8, second⟩) :
    b.highLoad = second.getLsbD 7 := by
  rw [Board.highLoad, high, Bool.true_and, Board.adhIn_output (by simp [adh]), adh]

/-- `PL` falls with AD15 low: nothing loads. -/
theorem Reaches.lowerPl_idle {second : Byte} (h : Reaches P r r' b) (high : b.pl = true)
    (adh : b.adh = ⟨0xFF#8, second⟩) (ad15 : second.getLsbD 7 = false)
    (ok : P { b with ctrl := { b.ctrl with out := b.ctrl.out &&& ~~~vueCartReaderPl } }) :
    Reaches P r (r'.ctrlAnd (~~~vueCartReaderPl))
      { b with ctrl := { b.ctrl with out := b.ctrl.out &&& ~~~vueCartReaderPl } } :=
  h.write
    (Board.settle_keep high (by rw [highLoad_of_ad15 high adh, ad15]; exact fun h => nomatch h))
    ok rfl

/-- `PL` falls with AD15 high: the high latch loads. -/
theorem Reaches.lowerPl_load {first second : Byte} (h : Reaches P r r' b) (high : b.pl = true)
    (adl : b.adl = ⟨0xFF#8, first⟩) (adh : b.adh = ⟨0xFF#8, second⟩)
    (ad15 : second.getLsbD 7 = true)
    (ok : P { b with ctrl := { b.ctrl with out := b.ctrl.out &&& ~~~vueCartReaderPl }
                     flagLatch := first
                     pageLatch := second }) :
    Reaches P r (r'.ctrlAnd (~~~vueCartReaderPl))
      { b with ctrl := { b.ctrl with out := b.ctrl.out &&& ~~~vueCartReaderPl }
               flagLatch := first
               pageLatch := second } := by
  refine h.write
    (f := fun b => { b with ctrl := { b.ctrl with out := b.ctrl.out &&& ~~~vueCartReaderPl } })
    ?_ ok rfl
  have low : Board.pl
      { b with ctrl := { b.ctrl with out := b.ctrl.out &&& ~~~vueCartReaderPl } } = false :=
    and_not_pl _
  have fallen : Board.highLoad
      { b with ctrl := { b.ctrl with out := b.ctrl.out &&& ~~~vueCartReaderPl } } = false := by
    rw [Board.highLoad, low, Bool.false_and]
  rw [Board.settle_fall (by rw [highLoad_of_ad15 high adh, ad15]) fallen,
    Board.adhIn_output (by simp [adh]), Board.adlIn_output (by simp [adl])]
  simp [adl, adh]

/-- With `PL` high, AD0-AD7 may change at will. -/
theorem Reaches.adlOut_high (h : Reaches P r r' b) (x : Byte) (high : b.pl = true)
    (ok : P { b with adl := { b.adl with out := x } }) :
    Reaches P r (r'.adlOut x) { b with adl := { b.adl with out := x } } :=
  h.write (Board.settle_keep high id) ok rfl

/-- With `PL` high, AD8-AD15 may change as long as AD15 does not fall. -/
theorem Reaches.adhOut_high {second x : Byte} (h : Reaches P r r' b) (high : b.pl = true)
    (adh : b.adh = ⟨0xFF#8, second⟩)
    (ad15 : x.getLsbD 7 = true ∨ second.getLsbD 7 = false) (ok : P { b with adh := ⟨0xFF#8, x⟩ }) :
    Reaches P r (r'.adhOut x) { b with adh := ⟨0xFF#8, x⟩ } := by
  have load : Board.highLoad { b with adh := ⟨0xFF#8, x⟩ } = x.getLsbD 7 :=
    highLoad_of_ad15 high rfl
  refine h.write ?_ ok rfl
  rw [adh]
  refine Board.settle_keep high ?_
  rw [load, highLoad_of_ad15 high adh]
  rcases ad15 with set | clear
  · exact fun _ => set
  · rw [clear]; exact fun h => nomatch h

/-- With `PL` high, AD15 falls: the high latch loads. -/
theorem Reaches.adhOut_load {first second x : Byte} (h : Reaches P r r' b) (high : b.pl = true)
    (adl : b.adl = ⟨0xFF#8, first⟩) (adh : b.adh = ⟨0xFF#8, second⟩)
    (was : second.getLsbD 7 = true) (fallen : x.getLsbD 7 = false)
    (ok : P { b with adh := ⟨0xFF#8, x⟩, flagLatch := first, pageLatch := x }) :
    Reaches P r (r'.adhOut x)
      { b with adh := ⟨0xFF#8, x⟩, flagLatch := first, pageLatch := x } := by
  have load : Board.highLoad { b with adh := ⟨0xFF#8, x⟩ } = x.getLsbD 7 :=
    highLoad_of_ad15 high rfl
  refine h.write ?_ ok rfl
  rw [adh]
  rw [Board.settle_fall (by rw [highLoad_of_ad15 high adh, was]) (by rw [load, fallen]),
    Board.adhIn_output rfl, Board.adlIn_output (by simp [adl])]
  simp [adl]

end Phases

/-- Whatever an address write puts on the AD ports and into the low and page
latches, the strobes stand still, `PL` raised or not. -/
theorem addressStep_of_ports (start : Board) (flags : Byte) {flagLatch : Byte}
    (latch : flagLatch = start.flagLatch ∨ flagLatch = flags) (adl adh : AvrGpio)
    (lowLatch : BitVec 15) (pageLatch : Byte) :
    AddressStep start flags
        { start with
          adl := adl, adh := adh, lowLatch := lowLatch, flagLatch := flagLatch
          pageLatch := pageLatch } ∧
      AddressStep start flags
        { start with
          ctrl := { start.ctrl with out := start.ctrl.out ||| vueCartReaderPl }
          adl := adl, adh := adh, lowLatch := lowLatch, flagLatch := flagLatch
          pageLatch := pageLatch } := by
  refine ⟨⟨rfl, rfl, rfl, latch⟩, ⟨?_, ?_, ?_, latch⟩⟩
  · simp [Board.nOE]
  · simp [Board.nUWR]
  · simp [Board.nLWR]

theorem vueWriteAddressLo15_spec {r : Rig} (low : r.board.pl = false) (address : BitVec 32) :
    Reaches (AddressStep r.board r.board.flagLatch) r (vueWriteAddressLo15 address r)
      { r.board with adl := released, adh := released, lowLatch := lowBits address } := by
  have ports := addressStep_of_ports r.board r.board.flagLatch (.inl rfl)
  have latch := lowBytes_eq address 0#8
  rw [BitVec.zero_and, BitVec.zero_or] at latch
  have risen := (Reaches.refl r).present ((address &&& 0xFF#32).setWidth 8)
      (((address >>> 8) &&& (vueAddressMaskLo >>> 8)).setWidth 8) low
      (fun adl adh => (ports adl adh _ _).1)
    |>.raisePl low rfl rfl (ports _ _ _ _).2
  have fallen := risen.lowerPl_idle (or_pl _) rfl (secondByte_ad15 address) (by
    simpa only [or_pl_and_not_pl low] using (ports _ _ _ _).1)
  simp only [or_pl_and_not_pl low, latch] at fallen
  exact fallen.releaseBus low fun adl adh => (ports adl adh _ _).1

/-- A full write loads both latches, wherever the falling edge is: A22 is on AD15, so it decides
which of the last two writes that is. -/
theorem vueWriteAddressFull_spec {r : Rig} (low : r.board.pl = false) (address : BitVec 32) :
    Reaches (AddressStep r.board (flagBits address)) r (vueWriteAddressFull address r)
      { r.board with
        adl := released, adh := released, lowLatch := lowBits address
        flagLatch := flagBits address, pageLatch := pageBits address } := by
  have old := addressStep_of_ports r.board (flagBits address) (.inl rfl)
  have new := addressStep_of_ports r.board (flagBits address) (.inr rfl)
  have latch := lowBytes_eq address 0xFF#8
  rw [show 0xFF#8 &&& vueAd15 = vueAd15 from rfl] at latch
  have risen := (Reaches.refl r).present ((address &&& 0xFF#32).setWidth 8)
      (vueAd15 ||| ((address >>> 8) &&& (vueAddressMaskLo >>> 8)).setWidth 8) low
      (fun adl adh => (old adl adh _ _).1)
    |>.raisePl low rfl rfl (old _ _ _ _).2
  rw [latch] at risen
  have toggled := risen.adlOut_high (flagBits address) (or_pl _) (old _ _ _ _).2
    |>.adhOut_high (x := vueAd15 ||| ((address >>> 15) &&& (vueAddressMask >>> 15)).setWidth 8)
      (or_pl _) rfl (.inl (or_ad15 _)) (old _ _ _ _).2
  unfold vueWriteAddressFull
  rw [pageByte_eq] at *
  cases a22 : (pageBits address).getLsbD 7 with
  | false =>
      have loaded := toggled.adhOut_load (or_pl _) rfl rfl (or_ad15 _) a22 (new _ _ _ _).2
      have fallen := loaded.lowerPl_idle (or_pl _) rfl a22 (by
        simpa only [or_pl_and_not_pl low] using (new _ _ _ _).1)
      simp only [or_pl_and_not_pl low] at fallen
      exact fallen.releaseBus low fun adl adh => (new adl adh _ _).1
  | true =>
      have kept := toggled.adhOut_high (or_pl _) rfl (.inl a22) (old _ _ _ _).2
      have loaded := kept.lowerPl_load (or_pl _) rfl rfl a22 (by
        simpa only [or_pl_and_not_pl low] using (new _ _ _ _).1)
      simp only [or_pl_and_not_pl low] at loaded
      exact loaded.releaseBus low fun adl adh => (new adl adh _ _).1

/-! ## Address arithmetic -/

theorem pageBits_append_lowBits (address : BitVec 32) :
    pageBits address ++ lowBits address = wordAddress address := by
  apply BitVec.eq_of_getLsbD_eq
  intro i bound
  rw [BitVec.getLsbD_append]
  by_cases low : i < 15
  · simp [low, lowBits, wordAddress, bound]
  · have page : i - 15 < 8 := by omega
    simp [low, pageBits, wordAddress, bound, page, show 15 + (i - 15) = i by omega]

theorem wordAddress_vueIncAddress (address : BitVec 32) :
    wordAddress (vueIncAddress address) = wordAddress address + 1#23 := by
  have flags : (address &&& vueFlagMask).setWidth 23 = 0#23 := by
    apply BitVec.eq_of_getLsbD_eq
    intro i bound
    interval_cases i <;> simp [vueFlagMask]
  have masked : ∀ x : BitVec 32, (x &&& vueAddressMask).setWidth 23 = x.setWidth 23 := by
    intro x
    apply BitVec.eq_of_getLsbD_eq
    intro i bound
    interval_cases i <;> simp [vueAddressMask]
  rw [wordAddress, vueIncAddress, BitVec.setWidth_or, flags, BitVec.zero_or, masked,
    BitVec.setWidth_add _ _ (by decide), masked]
  rfl

theorem flagBits_vueIncAddress (address : BitVec 32) :
    flagBits (vueIncAddress address) = flagBits address := by
  apply BitVec.eq_of_getLsbD_eq
  intro i bound
  interval_cases i <;> simp [flagBits, vueIncAddress, vueFlagMask, vueAddressMask]

theorem lowBits_toNat (address : BitVec 32) :
    (lowBits address).toNat = (wordAddress address).toNat % 2 ^ 15 := by
  simp only [lowBits, wordAddress, BitVec.toNat_setWidth]
  omega

theorem pageBits_toNat (address : BitVec 32) :
    (pageBits address).toNat = (wordAddress address).toNat / 2 ^ 15 := by
  simp only [pageBits, wordAddress, BitVec.toNat_setWidth, BitVec.toNat_ushiftRight,
    Nat.shiftRight_eq_div_pow]
  omega

/-- An address whose low bits are not all zero is on the page of its predecessor. -/
theorem pageBits_vueIncAddress {address : BitVec 32}
    (inside : lowBits (vueIncAddress address) ≠ 0#15) :
    pageBits (vueIncAddress address) = pageBits address := by
  have low : (lowBits (vueIncAddress address)).toNat ≠ 0 := fun zero =>
    inside (BitVec.eq_of_toNat_eq zero)
  have bound := (wordAddress address).isLt
  apply BitVec.eq_of_toNat_eq
  rw [lowBits_toNat, wordAddress_vueIncAddress, BitVec.toNat_add] at low
  rw [pageBits_toNat, pageBits_toNat, wordAddress_vueIncAddress, BitVec.toNat_add]
  simp only [BitVec.toNat_ofNat] at *
  omega

theorem lowBits_eq_zero_iff (address : BitVec 32) :
    lowBits address = 0#15 ↔ address &&& vueAddressMaskLo = 0#32 := by
  have same : address &&& vueAddressMaskLo = (lowBits address).setWidth 32 := by
    apply BitVec.eq_of_getLsbD_eq
    intro i bound
    interval_cases i <;> simp [lowBits, vueAddressMaskLo]
  rw [same]
  constructor
  · intro zero
    rw [zero]
    rfl
  · intro zero
    have bound := (lowBits address).isLt
    have value := congrArg BitVec.toNat zero
    rw [BitVec.toNat_setWidth] at value
    apply BitVec.eq_of_toNat_eq
    simp only [BitVec.toNat_ofNat] at *
    omega

/-! ## The short way -/

namespace Board

/-- The board with the address in its latches and the bus released. -/
def addressed (b : Board) (address : BitVec 32) : Board :=
  { b with
    adl := released, adh := released, lowLatch := lowBits address
    flagLatch := flagBits address, pageLatch := pageBits address }

/-- The board `vueWriteAddress` leaves: the high latch is loaded only for the
first word of a page. -/
def afterAddress (b : Board) (address : BitVec 32) : Board :=
  if lowBits address = 0#15 then b.addressed address
  else { b with adl := released, adh := released, lowLatch := lowBits address }

/-- The high latch holds the flags and the page of the address. -/
def HoldsHigh (b : Board) (address : BitVec 32) : Prop :=
  b.flagLatch = flagBits address ∧ b.pageLatch = pageBits address

/-- The short way is right for the address: it is not taken, or the high latch is
already loaded. -/
def Fresh (b : Board) (address : BitVec 32) : Prop :=
  lowBits address = 0#15 ∨ b.HoldsHigh address

theorem addressed_holdsHigh (b : Board) (address : BitVec 32) :
    (b.addressed address).HoldsHigh address := ⟨rfl, rfl⟩

theorem latchedAddress_addressed (b : Board) (address : BitVec 32) :
    (b.addressed address).latchedAddress = wordAddress address :=
  pageBits_append_lowBits address

@[simp] theorem afterAddress_ctrl (b : Board) (address : BitVec 32) :
    (b.afterAddress address).ctrl = b.ctrl := by
  unfold afterAddress; split <;> rfl

@[simp] theorem afterAddress_adl (b : Board) (address : BitVec 32) :
    (b.afterAddress address).adl = released := by
  unfold afterAddress; split <;> rfl

@[simp] theorem afterAddress_adh (b : Board) (address : BitVec 32) :
    (b.afterAddress address).adh = released := by
  unfold afterAddress; split <;> rfl

@[simp] theorem afterAddress_cartridge (b : Board) (address : BitVec 32) :
    (b.afterAddress address).cartridge = b.cartridge := by
  unfold afterAddress; split <;> rfl

theorem afterAddress_flagLatch (b : Board) (address : BitVec 32) :
    (b.afterAddress address).flagLatch = b.flagLatch ∨
      (b.afterAddress address).flagLatch = flagBits address := by
  unfold afterAddress
  split
  · exact .inr rfl
  · exact .inl rfl

/-- On the short way the address still ends up whole in the latches. -/
theorem Fresh.afterAddress_eq {b : Board} {address : BitVec 32} (fresh : b.Fresh address) :
    b.afterAddress address = b.addressed address := by
  unfold afterAddress
  by_cases crossed : lowBits address = 0#15
  · rw [if_pos crossed]
  · have holds : b.HoldsHigh address := fresh.resolve_left crossed
    rw [if_neg crossed, addressed, ← holds.1, ← holds.2]

/-- Counting up keeps the short way right. -/
theorem HoldsHigh.fresh_vueIncAddress {b : Board} {address : BitVec 32}
    (holds : b.HoldsHigh address) : b.Fresh (vueIncAddress address) := by
  by_cases crossed : lowBits (vueIncAddress address) = 0#15
  · exact .inl crossed
  · exact .inr ⟨holds.1.trans (flagBits_vueIncAddress address).symm,
      holds.2.trans (pageBits_vueIncAddress crossed).symm⟩

end Board

theorem vueWriteAddress_spec {r : Rig} (low : r.board.pl = false) (address : BitVec 32) :
    Reaches (AddressStep r.board (flagBits address)) r (vueWriteAddress address r)
      (r.board.afterAddress address) := by
  rw [vueWriteAddress, Board.afterAddress]
  by_cases crossed : lowBits address = 0#15
  · rw [if_pos crossed, if_neg (not_not.mpr ((lowBits_eq_zero_iff address).mp crossed))]
    exact vueWriteAddressFull_spec low address
  · rw [if_neg crossed, if_pos (mt (lowBits_eq_zero_iff address).mpr crossed)]
    refine (vueWriteAddressLo15_spec low address).mono fun s step => ?_
    exact ⟨step.nOE, step.nUWR, step.nLWR, .inl (step.flagLatch.elim id id)⟩

end VueCartReader
