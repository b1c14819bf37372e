import VueCartReader.Board.Rounds

/-!
# The lanes of a write

While a write strobe is low, the port behind its lane should drive the byte of the
access, and the other lane should be left alone. `vueWriteData16bit` and
`vueWriteData8bitLo` do so and release the bus when they return.

`vueWriteData8bitHi` puts its data on AD8-AD15 but turns AD0-AD7 round. Its bytes are
never driven (`vueWriteData8bitHi_floats`), and AD0-AD7 stays an output when it returns
(`vueWriteData8bitHi_leaves`).
-/

set_option autoImplicit false

namespace VueCartReader

open Program

/-! ## What the lanes should carry -/

namespace AccessFunc

/-- The byte of the buffer that an access writes on AD0-AD7, if it writes there. -/
def lowerByte (f : AccessFunc) (buffer : Buffer) (k : Nat) : Option Byte :=
  match f with
  | vueWriteData16bit => some (buffer.toList.getD (2 * k) 0#8)
  | vueWriteData8bitLo => some (buffer.toList.getD k 0#8)
  | _ => none

/-- The byte of the buffer that an access writes on AD8-AD15, if it writes there. -/
def upperByte (f : AccessFunc) (buffer : Buffer) (k : Nat) : Option Byte :=
  match f with
  | vueWriteData16bit => some (buffer.toList.getD (2 * k + 1) 0#8)
  | vueWriteData8bitHi => some (buffer.toList.getD k 0#8)
  | _ => none

end AccessFunc

/-- A port drives a byte while the strobe of its lane is low, or it is not driven and
the strobe is high. -/
def AvrGpio.Carries (port : AvrGpio) (strobe : Bool) : Option Byte → Prop
  | some x => strobe = false ∧ port.dir = 0xFF#8 ∧ port.out = x
  | none => strobe = true ∧ port.dir = 0x00#8

/-- A write routine, set out on a board, has driven the lanes as it should: in each
interval with a low write strobe the lanes carry the bytes of the access, there is an
access for each step of the length, and in the end the bus is released. -/
structure AccessFunc.DrivesLanes (f : AccessFunc) (length : BitVec 8) (start : Board)
    (buffer : Buffer) (r : Rig) : Prop where
  lanes : ∀ before s after, r.seen = before ++ s :: after → (s.nUWR = false ∨ s.nLWR = false) →
    s.adl.Carries s.nLWR (f.lowerByte buffer (busCycles start (before ++ [s])).length) ∧
      s.adh.Carries s.nUWR (f.upperByte buffer (busCycles start (before ++ [s])).length)
  accesses : (busCycles start r.seen).length = rounds length.toNat f.step
  released : r.board.adl = released ∧ r.board.adh = released
  idle : r.board.Idle

/-! ## Lanes -/

theorem AvrGpio.carries_of_driven {port : AvrGpio} {strobe : Bool} {x : Byte}
    (lane : port.lane (!strobe) = .driven x) : port.Carries strobe (some x) := by
  cases strobe with
  | true =>
      simp only [AvrGpio.lane, Bool.not_true, Bool.false_eq_true, if_false] at lane
      split at lane <;> cases lane
  | false =>
      simp only [AvrGpio.lane, Bool.not_false, if_true] at lane
      split at lane
      · rename_i output
        exact ⟨rfl, output, Lane.driven.inj lane⟩
      · cases lane

theorem AvrGpio.carries_of_idle {port : AvrGpio} {strobe : Bool}
    (lane : port.lane (!strobe) = .idle) : port.Carries strobe none := by
  cases strobe with
  | true =>
      simp only [AvrGpio.lane, Bool.not_true, Bool.false_eq_true, if_false] at lane
      split at lane
      · rename_i input
        exact ⟨rfl, input⟩
      · cases lane
  | false =>
      simp only [AvrGpio.lane, Bool.not_false, if_true] at lane
      split at lane <;> cases lane

/-- A low write strobe is a low strobe. -/
theorem Board.strobing_of_write {s : Board} (low : s.nUWR = false ∨ s.nLWR = false) :
    s.strobing = true := by
  rcases low with low | low <;> simp [Board.strobing, low]

/-- What an access routine should drive is what a word-wide or a lower write drives. -/
theorem AccessFunc.carries_of_drive {f : AccessFunc} (writing : f.reads = false)
    (right : f ≠ .vueWriteData8bitHi) {buffer : Buffer} {k : Nat} {s : Board}
    (drive : s.drive = f.drive buffer.toList k) :
    s.adl.Carries s.nLWR (f.lowerByte buffer k) ∧
      s.adh.Carries s.nUWR (f.upperByte buffer k) := by
  have lower := congrArg Drive.lower drive
  have upper := congrArg Drive.upper drive
  cases f with
  | vueWriteData16bit =>
      exact ⟨AvrGpio.carries_of_driven lower, AvrGpio.carries_of_driven upper⟩
  | vueWriteData8bitLo =>
      exact ⟨AvrGpio.carries_of_driven lower, AvrGpio.carries_of_idle upper⟩
  | vueWriteData8bitHi => exact absurd rfl right
  | vueReadData16bit => exact nomatch writing
  | vueReadData8bitLo => exact nomatch writing
  | vueReadData8bitHi => exact nomatch writing

/-! ## Ports after a call -/

@[simp] theorem Board.settle_adl (before after : Board) :
    (settle before after).adl = after.adl := by
  unfold settle loadLow loadHigh
  split <;> split <;> rfl

@[simp] theorem Board.settle_adh (before after : Board) :
    (settle before after).adh = after.adh := by
  unfold settle loadLow loadHigh
  split <;> split <;> rfl

/-- The AD ports of a rig, which only writes to them change. -/
def Rig.ports (r : Rig) : AvrGpio × AvrGpio := (r.board.adl, r.board.adh)

section Ports

variable (r : Rig) (x : Byte)

@[simp] theorem Rig.ports_adlDir :
    (r.adlDir x).ports = ({ r.ports.1 with dir := x }, r.ports.2) := by
  simp [Rig.ports, Rig.adlDir, Rig.write]

@[simp] theorem Rig.ports_adlOut :
    (r.adlOut x).ports = ({ r.ports.1 with out := x }, r.ports.2) := by
  simp [Rig.ports, Rig.adlOut, Rig.write]

@[simp] theorem Rig.ports_adhDir :
    (r.adhDir x).ports = (r.ports.1, { r.ports.2 with dir := x }) := by
  simp [Rig.ports, Rig.adhDir, Rig.write]

@[simp] theorem Rig.ports_adhOut :
    (r.adhOut x).ports = (r.ports.1, { r.ports.2 with out := x }) := by
  simp [Rig.ports, Rig.adhOut, Rig.write]

@[simp] theorem Rig.ports_ctrlOr : (r.ctrlOr x).ports = r.ports := by
  simp [Rig.ports, Rig.ctrlOr, Rig.write]

@[simp] theorem Rig.ports_ctrlAnd : (r.ctrlAnd x).ports = r.ports := by
  simp [Rig.ports, Rig.ctrlAnd, Rig.write]

@[simp] theorem Rig.ports_releaseBus : (releaseBus r).ports = (released, released) := by
  simp [releaseBus, released]

@[simp] theorem Rig.ports_vueWriteAddress (address : BitVec 32) :
    (vueWriteAddress address r).ports = (released, released) := by
  unfold vueWriteAddress vueWriteAddressLo15 vueWriteAddressFull
  split <;> exact ports_releaseBus _

end Ports

section Loop

variable {length step : BitVec 8} {body : Access → Option Access} {P : Access → Prop}

/-- What a round leaves is left by a loop over at least one byte. -/
theorem countLoop_last (round : ∀ a b, body a = some b → P b) (some_ : 0 < length.toNat)
    (stepPos : 0 < step.toNat) (room : length.toNat + step.toNat ≤ 256) {a b : Access}
    (few : rounds length.toNat step.toNat < 256)
    (looped : countLoop length step body 256 0#8 a = some b) : P b := by
  rw [countLoop_eq_repeatM body stepPos room 256 0 0#8 a (by simp) (by omega) (Nat.zero_le _),
    Nat.sub_zero] at looped
  exact repeatM_last round (rounds_pos some_ stepPos) looped

end Loop

/-- The ports after a round of a write routine that fetches one byte. -/
theorem writeRound_ports {port : Byte → Rig → Rig} {turn : Rig → Rig} {strobes : Byte}
    {a b : Access} (round : writeRound [port] turn strobes a = some b) :
    ∃ x, b.rig.ports = (turn (port x (vueWriteAddress a.address a.rig))).ports := by
  simp only [writeRound, List.foldlM_cons, List.foldlM_nil, Access.fetch,
    Option.map_eq_some_iff] at round
  split at round
  · obtain ⟨c, fetched, rfl⟩ := round
    cases fetched
    exact ⟨_, by rw [Rig.ports_ctrlOr, Rig.ports_ctrlAnd]⟩
  · obtain ⟨c, fetched, -⟩ := round
    cases fetched

namespace AccessFunc

variable {length : BitVec 8} {r : Rig} {address : BitVec 32} {buffer : Buffer} {a : Access}

theorem vueWriteData16bit_released
    (called : vueWriteData16bit.call length r address buffer = some a) :
    a.rig.ports = (released, released) := by
  simp only [call, VueCartReader.vueWriteData16bit, Option.map_eq_some_iff] at called
  obtain ⟨b, -, rfl⟩ := called
  exact Rig.ports_releaseBus _

theorem vueWriteData8bitLo_released (some_ : 0 < length.toNat) (inside : length.toNat ≤ 64)
    (called : vueWriteData8bitLo.call length r address buffer = some a) :
    a.rig.ports = (released, released) := by
  simp only [call, VueCartReader.vueWriteData8bitLo, Option.map_eq_some_iff] at called
  obtain ⟨b, looped, rfl⟩ := called
  have upper : b.rig.ports.2 = released := by
    refine countLoop_last (P := fun c => c.rig.ports.2 = released) (fun c d round => ?_) some_
      (by decide) (by simpa using by omega)
      (by simp only [BitVec.toNat_ofNat]; simp [rounds]; omega)
      looped
    obtain ⟨x, ports⟩ := writeRound_ports round
    rw [ports]
    simp
  simp [upper, released]

/-- AD0-AD7 is still an output when the routine for the upper byte returns. -/
theorem vueWriteData8bitHi_leaves (some_ : 0 < length.toNat) (inside : length.toNat ≤ 64)
    (called : vueWriteData8bitHi.call length r address buffer = some a) :
    a.rig.board.adl.dir = 0xFF#8 := by
  simp only [call, VueCartReader.vueWriteData8bitHi, Option.map_eq_some_iff] at called
  obtain ⟨b, looped, rfl⟩ := called
  have lower : b.rig.ports.1.dir = 0xFF#8 := by
    refine countLoop_last (P := fun c => c.rig.ports.1.dir = 0xFF#8) (fun c d round => ?_) some_
      (by decide) (by simpa using by omega)
      (by simp only [BitVec.toNat_ofNat]; simp [rounds]; omega)
      looped
    obtain ⟨x, ports⟩ := writeRound_ports round
    rw [ports]
    simp
  show ((b.rig.adhOut 0xFF#8).adhDir 0x00#8).ports.1.dir = 0xFF#8
  simp [lower]

end AccessFunc

/-! ## Calls -/

section Calls

variable {f : AccessFunc} {length : BitVec 8} {b : Board} {address : BitVec 32} {buffer : Buffer}
  {a : Access}

/-- What a routine drives at each strobe, and how often it strobes. -/
theorem AccessFunc.Progress.strobes {n : Nat}
    (progress : f.Progress ⟨b, []⟩ address buffer n a) :
    (∀ before s after, a.rig.seen = before ++ s :: after → s.strobing = true →
      s.drive = f.drive buffer.toList (busCycles b (before ++ [s])).length) ∧
      (busCycles b a.rig.seen).length = n := by
  obtain ⟨cs, ⟨trace, settled, -, cycles, along⟩, drives, -⟩ := progress.cycles
  have seen : a.rig.seen = trace := settled.seen
  rw [seen]
  refine ⟨fun before s after split strobing => ?_, ?_⟩
  · rw [split] at along
    have here := along.of_split.drive strobing
    rwa [Nat.zero_add] at here
  · have count := congrArg List.length drives
    rw [cycles]
    simpa using count

/-- **The bytes of an upper write are never driven.** At each strobe AD8-AD15 floats, and
AD0-AD7 is driven although it is not written. -/
theorem vueWriteData8bitHi_floats (inside : length.toNat ≤ 64) (low : b.pl = false)
    (idle : b.Idle) (address : BitVec 32) (buffer : Buffer) :
    ∃ a, AccessFunc.vueWriteData8bitHi.call length ⟨b, []⟩ address buffer = some a ∧
      ∀ s ∈ a.rig.seen, (s.nUWR = false ∨ s.nLWR = false) →
        s.drive = ⟨false, .held, .floating⟩ := by
  obtain ⟨a, called, progress⟩ :=
    AccessFunc.vueWriteData8bitHi.call_spec inside ⟨b, []⟩ low idle address buffer
  refine ⟨a, called, fun s member write => ?_⟩
  obtain ⟨before, after, split⟩ := List.append_of_mem member
  exact progress.strobes.1 before s after split (Board.strobing_of_write write)

/-- The other two write routines drive the lanes as they should. -/
theorem AccessFunc.Progress.drivesLanes
    (progress : f.Progress ⟨b, []⟩ address buffer (rounds length.toNat f.step) a)
    (called : f.call length ⟨b, []⟩ address buffer = some a) (writing : f.reads = false)
    (right : f ≠ .vueWriteData8bitHi) (some_ : 0 < length.toNat) (inside : length.toNat ≤ 64) :
    f.DrivesLanes length b buffer a.rig := by
  obtain ⟨strobes, count⟩ := progress.strobes
  have ports : a.rig.ports = (released, released) := by
    cases f with
    | vueWriteData16bit => exact AccessFunc.vueWriteData16bit_released called
    | vueWriteData8bitLo => exact AccessFunc.vueWriteData8bitLo_released some_ inside called
    | vueWriteData8bitHi => exact absurd rfl right
    | vueReadData16bit => exact nomatch writing
    | vueReadData8bitLo => exact nomatch writing
    | vueReadData8bitHi => exact nomatch writing
  exact
    { lanes := fun before s after split write =>
        AccessFunc.carries_of_drive writing right
          (strobes before s after split (Board.strobing_of_write write))
      accesses := count
      released := ⟨congrArg Prod.fst ports, congrArg Prod.snd ports⟩
      idle := progress.idle }

/-- The routine for the upper byte does not. -/
theorem vueWriteData8bitHi_not_drivesLanes (some_ : 0 < length.toNat)
    (inside : length.toNat ≤ 64) :
    ¬ ∃ a, AccessFunc.vueWriteData8bitHi.call length ⟨b, []⟩ address buffer = some a ∧
      AccessFunc.vueWriteData8bitHi.DrivesLanes length b buffer a.rig := by
  rintro ⟨a, called, drives⟩
  have output := AccessFunc.vueWriteData8bitHi_leaves some_ inside called
  rw [drives.released.1] at output
  exact absurd output (by decide)

/-- **Which write routines drive the right lanes.** From any board with `PL` low and the
strobes high, a write of 1 to 64 bytes returns having driven each strobed lane with the
byte of its access, having left the other lane alone, and with the bus released, exactly
when it is not the routine for the upper byte. -/
theorem writeRoutine_drivesLanes (writing : f.reads = false) (some_ : 1 ≤ length.toNat)
    (inside : length.toNat ≤ 64) (low : b.pl = false) (idle : b.Idle) (address : BitVec 32)
    (buffer : Buffer) :
    (∃ a, f.call length ⟨b, []⟩ address buffer = some a ∧ f.DrivesLanes length b buffer a.rig) ↔
      f ≠ .vueWriteData8bitHi := by
  constructor
  · rintro ⟨a, called, drives⟩ rfl
    exact vueWriteData8bitHi_not_drivesLanes some_ inside ⟨a, called, drives⟩
  · intro right
    obtain ⟨a, called, progress⟩ := f.call_spec inside ⟨b, []⟩ low idle address buffer
    exact ⟨a, called, progress.drivesLanes called writing right some_ inside⟩

/-- Three words are written from a board as it is at power-up. -/
theorem writeRoutine_drivesLanes_words :
    (∃ a, AccessFunc.vueWriteData16bit.call 6#8
        ⟨boardInit (fun _ _ => (0#8, 0#8)) 0#15 0#8 0#8, []⟩ 0x0A007FFF#32 (.replicate 64 0xA5#8) =
          some a ∧
      AccessFunc.vueWriteData16bit.DrivesLanes 6#8 (boardInit (fun _ _ => (0#8, 0#8)) 0#15 0#8 0#8)
        (.replicate 64 0xA5#8) a.rig) ↔
      AccessFunc.vueWriteData16bit ≠ .vueWriteData8bitHi :=
  writeRoutine_drivesLanes rfl (by decide) (by decide) rfl ⟨rfl, rfl, rfl⟩ _ _

/-- One byte is written to the upper lane from a board as it is at power-up. -/
theorem vueWriteData8bitHi_wrongLane :
    ¬ ∃ a, AccessFunc.vueWriteData8bitHi.call 1#8
        ⟨boardInit (fun _ _ => (0#8, 0#8)) 0#15 0#8 0#8, []⟩ 0x0A000001#32 (.replicate 64 0xA5#8) =
          some a ∧
      AccessFunc.vueWriteData8bitHi.DrivesLanes 1#8
        (boardInit (fun _ _ => (0#8, 0#8)) 0#15 0#8 0#8) (.replicate 64 0xA5#8) a.rig :=
  vueWriteData8bitHi_not_drivesLanes (by decide) (by decide)

end Calls

end VueCartReader
