import VueCartReader.Board.Address

/-!
# The loads of the latches

An edge of `PL` or of `PL AND AD15` that loads a latch is an event of the
waveform, like the end of a bus cycle. A routine that latches an address has to
make exactly the edges it means to, whatever the ports held before: a load too
many on the way would leave the wrong address or the wrong flags for a moment, and
a cartridge whose chip select is a flag would see it.

AD15 is the line that triggers the load of the high latch and the line that carries
A22 into it. So the last write of the routine that makes the falling edge depends
on the address: it is the one that takes the toggle away when A22 is low, and the
one that lowers `PL` when A22 is high.
-/

set_option autoImplicit false

namespace VueCartReader

open Program

/-- The line whose fall makes `PL AND AD15` fall. -/
inductive Falling where
  | ad15
  | pl
  deriving DecidableEq, Repr

/-- A load of a latch, with what the latch took. -/
inductive LatchLoad where
  | low (address : BitVec 15)
  | high (flags page : Byte) (edge : Falling)
  deriving DecidableEq, Repr

/-- The load between two neighbouring states, if there is one. -/
def latchLoad (before after : Board) : Option LatchLoad :=
  if !before.pl && after.pl then some (.low after.lowLatch)
  else if before.highLoad && !after.highLoad then
    some (.high after.flagLatch after.pageLatch (if after.pl then .ad15 else .pl))
  else none

/-- The loads a routine makes, started with the board in the given state. -/
def loadsOf (routine : Rig → Rig) (b : Board) : List LatchLoad :=
  edges latchLoad b (routine ⟨b, []⟩).seen

/-- The line that makes the edge when the high latch takes a page: A22 is on AD15. -/
def pageEdge (page : Byte) : Falling := if page.getLsbD 7 then .pl else .ad15

/-! ## When nothing loads -/

theorem latchLoad_of_pl_low {before after : Board} (low : before.pl = false)
    (still : after.pl = false) : latchLoad before after = none := by
  simp [latchLoad, Board.highLoad, low, still]

theorem pl_of_highLoad {b : Board} (load : b.highLoad = true) : b.pl = true := by
  rw [Board.highLoad, Bool.and_eq_true] at load
  exact load.1

theorem latchLoad_of_highLoad {before after : Board} (load : before.highLoad = true)
    (kept : after.highLoad = true) : latchLoad before after = none := by
  simp [latchLoad, pl_of_highLoad load, kept]

/-- With AD15 low, `PL` falls and nothing loads. -/
theorem latchLoad_of_pl {before after : Board} (high : before.pl = true)
    (idle : before.highLoad = false) : latchLoad before after = none := by
  simp [latchLoad, high, idle]

/-! ## Routines and the loads they make -/

/-- Writes that end with the board `b` and make the loads `loads`. -/
def Latching (r r' : Rig) (b : Board) (loads : List LatchLoad) : Prop :=
  ∃ trace, Settled r r' trace ∧ r'.board = b ∧ edges latchLoad r.board trace = loads

namespace Latching

variable {P : Board → Prop} {r r' r'' : Rig} {b c : Board} {loads : List LatchLoad}

theorem refl (r : Rig) : Latching r r r.board [] := ⟨[], Settled.refl r, rfl, rfl⟩

/-- The loads alone may be forgotten. -/
theorem reaches (h : Latching r r' b loads) : Reaches (fun _ => True) r r' b := by
  obtain ⟨trace, settled, board, -⟩ := h
  exact ⟨trace, settled, board, fun _ _ => trivial⟩

/-- Writes between states of which no two neighbours make an edge add nothing. -/
theorem quiet (h : Latching r r' b loads)
    (silent : ∀ before after, P before → P after → latchLoad before after = none)
    (start : P b) (next : Reaches P r' r'' c) : Latching r r'' c loads := by
  obtain ⟨first, settled, here, made⟩ := h
  obtain ⟨second, settled', board, all⟩ := next
  have still : edges latchLoad r'.board second = [] := by
    rw [here]
    exact edges_eq_nil silent start all
  refine ⟨first ++ second, settled.trans settled', board, ?_⟩
  rw [edges_append, ← settled.last, made, still, List.append_nil]

/-- One write more adds the load it makes. -/
theorem write (h : Latching r r' b loads) {f : Board → Board} (next : Reaches P r (r'.write f) c)
    (latches : (f b).latches = b.latches) :
    Latching r (r'.write f) c (loads ++ (latchLoad b c).toList) := by
  obtain ⟨first, settled, here, made⟩ := h
  obtain ⟨-, -, board, -⟩ := next
  have step : Settled r' (r'.write f) [(r'.write f).board] :=
    ⟨rfl, rfl, ⟨f r'.board, by rw [here]; exact latches, rfl⟩, trivial⟩
  refine ⟨first ++ [(r'.write f).board], settled.trans step, board, ?_⟩
  rw [edges_append, ← settled.last, made, board, here, edges_cons, edges_nil, List.append_nil]

theorem board (h : Latching r r' b loads) : r'.board = b := h.choose_spec.2.1

theorem loadsOf_eq {routine : Rig → Rig} (h : Latching ⟨b, []⟩ (routine ⟨b, []⟩) c loads) :
    loadsOf routine b = loads := by
  obtain ⟨trace, settled, -, made⟩ := h
  rw [loadsOf, settled.seen]
  exact made

end Latching

/-! ## The phases of an address write -/

namespace Latching

variable {r r' : Rig} {b : Board} {loads : List LatchLoad}

/-- The bus becomes an output with `PL` low: no edge. -/
theorem present (h : Latching r r' b loads) (first second : Byte) (low : b.pl = false) :
    Latching r (r'.adlDir 0xFF#8 |>.adhDir 0xFF#8 |>.adlOut first |>.adhOut second)
      { b with adl := ⟨0xFF#8, first⟩, adh := ⟨0xFF#8, second⟩ } loads := by
  have start : r'.board.pl = false := by rw [h.board, low]
  have writes := (Reaches.refl (P := fun s => s.pl = false) r').present first second start
    fun _ _ => start
  rw [h.board] at writes
  exact h.quiet (fun _ _ => latchLoad_of_pl_low) low writes

/-- The bus is released with `PL` low: no edge. -/
theorem releaseBus (h : Latching r r' b loads) (low : b.pl = false) :
    Latching r (releaseBus r') { b with adl := released, adh := released } loads := by
  have start : r'.board.pl = false := by rw [h.board, low]
  have writes := (Reaches.refl (P := fun s => s.pl = false) r').releaseBus start fun _ _ => start
  rw [h.board] at writes
  exact h.quiet (fun _ _ => latchLoad_of_pl_low) low writes

/-- `PL` rises over a driven bus. -/
theorem raisePl {first second : Byte} (h : Latching r r' b loads) (low : b.pl = false)
    (adl : b.adl = ⟨0xFF#8, first⟩) (adh : b.adh = ⟨0xFF#8, second⟩) :
    Latching r (r'.ctrlOr vueCartReaderPl)
      { b with ctrl := { b.ctrl with out := b.ctrl.out ||| vueCartReaderPl }
               lowLatch := (second ++ first).setWidth 15 }
      (loads ++ [.low ((second ++ first).setWidth 15)]) := by
  have next := h.write (h.reaches.raisePl low adl adh trivial) rfl
  have high : (b.ctrl.out ||| vueCartReaderPl).getLsbD 2 = true := or_pl _
  rw [latchLoad, low, Board.pl, high] at next
  exact next

/-- `PL` falls with AD15 low. -/
theorem lowerPl_idle {second : Byte} (h : Latching r r' b loads) (high : b.pl = true)
    (adh : b.adh = ⟨0xFF#8, second⟩) (ad15 : second.getLsbD 7 = false) :
    Latching r (r'.ctrlAnd (~~~vueCartReaderPl))
      { b with ctrl := { b.ctrl with out := b.ctrl.out &&& ~~~vueCartReaderPl } } loads := by
  have next := h.write (h.reaches.lowerPl_idle high adh ad15 trivial) rfl
  have idle : b.highLoad = false := by rw [highLoad_of_ad15 high adh, ad15]
  rw [latchLoad_of_pl high idle, Option.toList_none, List.append_nil] at next
  exact next

/-- `PL` falls with AD15 high. -/
theorem lowerPl_load {first second : Byte} (h : Latching r r' b loads) (high : b.pl = true)
    (adl : b.adl = ⟨0xFF#8, first⟩) (adh : b.adh = ⟨0xFF#8, second⟩)
    (ad15 : second.getLsbD 7 = true) :
    Latching r (r'.ctrlAnd (~~~vueCartReaderPl))
      { b with ctrl := { b.ctrl with out := b.ctrl.out &&& ~~~vueCartReaderPl }
               flagLatch := first
               pageLatch := second }
      (loads ++ [.high first second .pl]) := by
  have next := h.write (h.reaches.lowerPl_load high adl adh ad15 trivial) rfl
  have load : b.highLoad = true := by rw [highLoad_of_ad15 high adh, ad15]
  have low : (b.ctrl.out &&& ~~~vueCartReaderPl).getLsbD 2 = false := and_not_pl _
  rw [latchLoad, load, high, Board.highLoad, Board.pl, low] at next
  exact next

/-- With `PL AND AD15` high, the bus may change as long as AD15 stays up. -/
theorem adlOut_high (h : Latching r r' b loads) (x : Byte) {second : Byte} (high : b.pl = true)
    (adh : b.adh = ⟨0xFF#8, second⟩) (ad15 : second.getLsbD 7 = true) :
    Latching r (r'.adlOut x) { b with adl := { b.adl with out := x } } loads := by
  have next := h.write (h.reaches.adlOut_high x high trivial) rfl
  have before : b.highLoad = true := by rw [highLoad_of_ad15 high adh, ad15]
  have after : Board.highLoad { b with adl := { b.adl with out := x } } = true := before
  rw [latchLoad_of_highLoad before after, Option.toList_none, List.append_nil] at next
  exact next

theorem adhOut_high {second x : Byte} (h : Latching r r' b loads) (high : b.pl = true)
    (adh : b.adh = ⟨0xFF#8, second⟩) (was : second.getLsbD 7 = true)
    (kept : x.getLsbD 7 = true) :
    Latching r (r'.adhOut x) { b with adh := ⟨0xFF#8, x⟩ } loads := by
  have next := h.write (h.reaches.adhOut_high (x := x) high adh (.inl kept) trivial) rfl
  have before : b.highLoad = true := by rw [highLoad_of_ad15 high adh, was]
  have after : Board.highLoad { b with adh := ⟨0xFF#8, x⟩ } = x.getLsbD 7 :=
    highLoad_of_ad15 high rfl
  rw [latchLoad_of_highLoad before (after.trans kept), Option.toList_none, List.append_nil] at next
  exact next

/-- With `PL` high, AD15 falls. -/
theorem adhOut_load {first second x : Byte} (h : Latching r r' b loads) (high : b.pl = true)
    (adl : b.adl = ⟨0xFF#8, first⟩) (adh : b.adh = ⟨0xFF#8, second⟩)
    (was : second.getLsbD 7 = true) (fallen : x.getLsbD 7 = false) :
    Latching r (r'.adhOut x)
      { b with adh := ⟨0xFF#8, x⟩, flagLatch := first, pageLatch := x }
      (loads ++ [.high first x .ad15]) := by
  have next := h.write (h.reaches.adhOut_load (x := x) high adl adh was fallen trivial) rfl
  have before : b.highLoad = true := by rw [highLoad_of_ad15 high adh, was]
  have after : Board.highLoad { b with adh := ⟨0xFF#8, x⟩, flagLatch := first, pageLatch := x } =
      x.getLsbD 7 := highLoad_of_ad15 high rfl
  have still : Board.pl { b with adh := ⟨0xFF#8, x⟩, flagLatch := first, pageLatch := x } =
      true := high
  rw [latchLoad, before, after.trans fallen, high, still] at next
  exact next

end Latching

/-! ## The two routines -/

theorem vueWriteAddressLo15_latching {r : Rig} (low : r.board.pl = false) (address : BitVec 32) :
    Latching r (vueWriteAddressLo15 address r)
      { r.board with adl := released, adh := released, lowLatch := lowBits address }
      [.low (lowBits address)] := by
  have latch := lowBytes_eq address 0#8
  rw [BitVec.zero_and, BitVec.zero_or] at latch
  have risen := (Latching.refl r).present ((address &&& 0xFF#32).setWidth 8)
      (((address >>> 8) &&& (vueAddressMaskLo >>> 8)).setWidth 8) low
    |>.raisePl low rfl rfl
  have fallen := risen.lowerPl_idle (or_pl _) rfl (secondByte_ad15 address)
  simp only [or_pl_and_not_pl low, latch] at fallen
  exact fallen.releaseBus low

theorem vueWriteAddressFull_latching {r : Rig} (low : r.board.pl = false) (address : BitVec 32) :
    Latching r (vueWriteAddressFull address r) (r.board.addressed address)
      [.low (lowBits address),
        .high (flagBits address) (pageBits address) (pageEdge (pageBits address))] := by
  have latch := lowBytes_eq address 0xFF#8
  rw [show 0xFF#8 &&& vueAd15 = vueAd15 from rfl] at latch
  have risen := (Latching.refl r).present ((address &&& 0xFF#32).setWidth 8)
      (vueAd15 ||| ((address >>> 8) &&& (vueAddressMaskLo >>> 8)).setWidth 8) low
    |>.raisePl low rfl rfl
  rw [latch] at risen
  have toggled := risen.adlOut_high (flagBits address) (or_pl _) rfl (or_ad15 _)
    |>.adhOut_high (x := vueAd15 ||| ((address >>> 15) &&& (vueAddressMask >>> 15)).setWidth 8)
      (or_pl _) rfl (or_ad15 _) (or_ad15 _)
  unfold vueWriteAddressFull
  rw [pageByte_eq] at *
  cases a22 : (pageBits address).getLsbD 7 with
  | false =>
      have loaded := toggled.adhOut_load (or_pl _) rfl rfl (or_ad15 _) a22
      have fallen := loaded.lowerPl_idle (or_pl _) rfl a22
      simp only [or_pl_and_not_pl low] at fallen
      rw [pageEdge, a22]
      exact fallen.releaseBus low
  | true =>
      have kept := toggled.adhOut_high (or_pl _) rfl (or_ad15 _) a22
      have loaded := kept.lowerPl_load (or_pl _) rfl rfl a22
      simp only [or_pl_and_not_pl low] at loaded
      rw [pageEdge, a22]
      exact loaded.releaseBus low

/-- **Latching is exact.** From any board with `PL` low, `vueWriteAddressFull` loads the
low latch once and the high latch once, the latter by AD15 when A22 is low and by `PL`
when A22 is high; `vueWriteAddressLo15` loads the low latch once and the high latch not
at all. What the latches took is the address and its flags, the AD ports are released,
and of the control port nothing is changed. -/
theorem address_loads (b : Board) (low : b.pl = false) (address : BitVec 32) :
    loadsOf (vueWriteAddressFull address) b =
        [.low (lowBits address),
          .high (flagBits address) (pageBits address) (pageEdge (pageBits address))] ∧
      (vueWriteAddressFull address ⟨b, []⟩).board =
        { b with
          adl := released, adh := released, lowLatch := lowBits address
          flagLatch := flagBits address, pageLatch := pageBits address } ∧
      loadsOf (vueWriteAddressLo15 address) b = [.low (lowBits address)] ∧
      (vueWriteAddressLo15 address ⟨b, []⟩).board =
        { b with adl := released, adh := released, lowLatch := lowBits address } := by
  have full := vueWriteAddressFull_latching (r := ⟨b, []⟩) low address
  have short := vueWriteAddressLo15_latching (r := ⟨b, []⟩) low address
  exact ⟨full.loadsOf_eq, full.board, short.loadsOf_eq, short.board⟩

/-- The board in the middle of a read, with the upper port half turned. -/
def midReadBoard : Board where
  ctrl := ⟨0xF4#8, 0xB2#8⟩
  adl := ⟨0x00#8, 0xFF#8⟩
  adh := ⟨0x0F#8, 0x5A#8⟩
  lowLatch := 0x1234#15
  flagLatch := 0x03#8
  pageLatch := 0x80#8
  cartridge := fun _ _ => (0x12#8, 0x34#8)

/-- The address of the last word with all flags set, in the middle of a read. -/
theorem address_loads_midRead :
    loadsOf (vueWriteAddressFull 0x0BFFFFFF#32) midReadBoard =
        [.low 0x7FFF#15, .high 0x17#8 0xFF#8 .pl] ∧
      loadsOf (vueWriteAddressLo15 0x0BFFFFFF#32) midReadBoard = [.low 0x7FFF#15] :=
  have loads := address_loads midReadBoard (by decide) 0x0BFFFFFF#32
  ⟨loads.1, loads.2.2.1⟩

end VueCartReader
