import VueCartReader.Board.Address

/-!
# Bus cycles

A strobe that rises ends a bus cycle. What the cartridge gets to see of it is
fixed at that moment: the flags and the word address in the latches, which
strobes rise, and for every write strobe the byte on its lane if the port of the
lane is driven.

`Performs P r r' b cs` refines `Reaches` by the cycles performed on the way.
-/

set_option autoImplicit false

namespace VueCartReader

open Program

/-- What a byte lane carries while a strobe is low: nothing, what the port holds
although its lane is not written, nothing although it is written, or a byte to be
written. -/
inductive Lane where
  | idle
  | held
  | floating
  | driven (x : Byte)
  deriving DecidableEq, Repr

/-- The lane behind a port: written when its strobe rises. -/
def AvrGpio.lane (port : AvrGpio) (strobed : Bool) : Lane :=
  if strobed then
    if port.dir = 0xFF#8 then .driven port.out else .floating
  else
    if port.dir = 0x00#8 then .idle else .held

/-- Whether a cycle reads, and its two lanes. -/
structure Drive where
  read : Bool
  lower : Lane
  upper : Lane
  deriving DecidableEq, Repr

structure BusCycle where
  flags : Byte
  address : BitVec 23
  drive : Drive
  deriving DecidableEq, Repr

/-- What the strobes that are low do with the lanes. -/
def Board.drive (b : Board) : Drive := ⟨!b.nOE, b.adl.lane (!b.nLWR), b.adh.lane (!b.nUWR)⟩

/-- The cycle that ends between two neighbouring states, if one does. -/
def busCycle (before after : Board) : Option BusCycle :=
  let oe := !before.nOE && after.nOE
  let lwr := !before.nLWR && after.nLWR
  let uwr := !before.nUWR && after.nUWR
  if oe || lwr || uwr then
    some ⟨before.flagLatch, before.latchedAddress, oe, before.adl.lane lwr, before.adh.lane uwr⟩
  else none

/-- The cycles on a trace. -/
abbrev busCycles (start : Board) (trace : List Board) : List BusCycle :=
  edges busCycle start trace

theorem busCycle_of_ctrl {before after : Board} (same : after.ctrl = before.ctrl) :
    busCycle before after = none := by
  simp [busCycle, Board.nOE, Board.nLWR, Board.nUWR, same]

theorem busCycle_of_idle {before after : Board} (idle : before.Idle) :
    busCycle before after = none := by
  obtain ⟨oe, uwr, lwr⟩ := idle
  simp [busCycle, oe, uwr, lwr]

theorem AddressStep.idle {start s : Board} {flags : Byte} (step : AddressStep start flags s)
    (idle : start.Idle) : s.Idle :=
  ⟨step.nOE.trans idle.1, step.nUWR.trans idle.2.1, step.nLWR.trans idle.2.2⟩

/-- Writes that end with the board `b` and perform the cycles `cs`. Every state on
the way satisfies `P` with the number of cycles over by then, the first of these
being cycle `n`. -/
def Performs (P : Nat → Board → Prop) (n : Nat) (r r' : Rig) (b : Board)
    (cs : List BusCycle) : Prop :=
  ∃ trace, Settled r r' trace ∧ r'.board = b ∧ busCycles r.board trace = cs ∧
    Along busCycle P n r.board trace

namespace Performs

variable {P : Nat → Board → Prop} {n : Nat} {r r' r'' : Rig} {b c : Board}
  {cs ds : List BusCycle}

theorem board (h : Performs P n r r' b cs) : r'.board = b := h.choose_spec.2.1

theorem refl (r : Rig) : Performs P n r r r.board [] :=
  ⟨[], Settled.refl r, rfl, rfl, trivial⟩

theorem trans (one : Performs P n r r' b cs) (two : Performs P (n + cs.length) r' r'' c ds) :
    Performs P n r r'' c (cs ++ ds) := by
  obtain ⟨first, settled, -, here, along⟩ := one
  obtain ⟨second, settled', board, there, along'⟩ := two
  have joined := edges_append busCycle r.board first second
  rw [← settled.last] at joined
  refine ⟨first ++ second, settled.trans settled', board,
    joined.trans (congrArg₂ (· ++ ·) here there), Along.append.mpr ⟨along, ?_⟩⟩
  rw [← settled.last, show edges busCycle r.board first = cs from here]
  exact along'

/-- The cycles may be counted from another number. -/
theorem shift {Q : Nat → Board → Prop} {m : Nat} (h : Performs P n r r' b cs)
    (weaker : ∀ k s, P k s → Q (m + k) s) : Performs Q (m + n) r r' b cs := by
  obtain ⟨trace, settled, board, here, along⟩ := h
  exact ⟨trace, settled, board, here, along.shift weaker⟩

/-- Writes between idle strobes perform no cycle. -/
theorem of_reaches {Q : Board → Prop} (h : Reaches Q r r' b) (start : r.board.Idle)
    (idle : ∀ s, Q s → s.Idle ∧ P n s) : Performs P n r r' b [] := by
  obtain ⟨trace, settled, board, all⟩ := h
  have silent : ∀ before after : Board, before.Idle → after.Idle → busCycle before after = none :=
    fun _ _ quiet _ => busCycle_of_idle quiet
  exact ⟨trace, settled, board,
    edges_eq_nil silent start fun s member => (idle s (all s member)).1,
    Along.of_quiet silent start fun s member => idle s (all s member)⟩

/-- One more write, whose settled state and cycle are known. -/
theorem write (h : Performs P n r r' b cs) {f : Board → Board}
    (settles : Board.settle b (f b) = c) (ends : (busCycle b c).toList = ds)
    (ok : P (n + cs.length + ds.length) c) (latches : (f b).latches = b.latches) :
    Performs P n r (r'.write f) c (cs ++ ds) := by
  have last : (r'.write f).board = c := by rw [← settles, ← h.board]; rfl
  have wrote : Board.Wrote r'.board c :=
    ⟨f b, by rw [h.board]; exact latches, by rw [h.board]; exact settles.symm⟩
  refine h.trans ⟨[c], ⟨by rw [← last]; rfl, last, wrote, trivial⟩, last, ?_, ?_⟩
  · rw [busCycles, edges_cons, h.board, ends, edges_nil, List.append_nil]
  · rw [h.board, Along, ends]
    exact ⟨ok, trivial⟩

/-- One more write to an AD port with `PL` low: no latch loads, no cycle ends. -/
theorem quietWrite (h : Performs P n r r' b cs) {f : Board → Board} (low : b.pl = false)
    (ctrl : (f b).ctrl = b.ctrl) (ok : P (n + cs.length) (f b))
    (latches : (f b).latches = b.latches) : Performs P n r (r'.write f) (f b) cs := by
  have still : (f b).pl = false := by rw [Board.pl, ctrl]; exact low
  have silent := congrArg Option.toList (busCycle_of_ctrl ctrl)
  have written := h.write (f := f) (Board.settle_low low still) silent ok latches
  rwa [show (none : Option BusCycle).toList = [] from rfl, List.append_nil] at written

end Performs

end VueCartReader
