import VueCartReader.Board.Access

/-!
# What an access routine does

A call of an access routine performs one cycle a round, at the running address.
`AccessStep` says what holds of every state on the way: the read strobe is low
only over released ports, `PL` is high only between strobes, and while a strobe
is low the lanes carry what the cycle is about. If the high latch was right for
the first address (`Board.Fresh`), the latches hold the flags and the running
address at every strobe.

`AccessFunc.Progress` is the loop invariant; each round is one step of it
(`readRound_progress`, `writeRound16_progress`, ...), and `AccessFunc.call_spec`
is the result for a whole call.
-/

set_option autoImplicit false

namespace VueCartReader

open Program

/-! ## Intended cycles -/

namespace AccessFunc

/-- How many bytes a round moves. -/
def step : AccessFunc → Nat
  | vueReadData16bit | vueWriteData16bit => 2
  | _ => 1

/-- The routine reads from the cartridge. -/
def reads : AccessFunc → Bool
  | vueReadData16bit | vueReadData8bitLo | vueReadData8bitHi => true
  | _ => false

/-- The bytes of a word that a read routine takes. -/
def taken (f : AccessFunc) (word : Byte × Byte) : List Byte :=
  match f with
  | vueReadData8bitLo => [word.1]
  | vueReadData8bitHi => [word.2]
  | _ => [word.1, word.2]

/-- What the lanes carry in a round, when the buffer holds the data. -/
def drive (f : AccessFunc) (data : List Byte) (round : Nat) : Drive :=
  match f with
  | vueWriteData16bit =>
      ⟨false, .driven (data.getD (2 * round) 0#8), .driven (data.getD (2 * round + 1) 0#8)⟩
  | vueWriteData8bitLo => ⟨false, .driven (data.getD round 0#8), .idle⟩
  -- the turn of the wrong port leaves AD8-AD15 floating
  | vueWriteData8bitHi => ⟨false, .held, .floating⟩
  | _ => ⟨true, .idle, .idle⟩

/-- The cycle of a round of a call that sets out with an address. -/
def accessCycle (f : AccessFunc) (address : BitVec 32) (data : List Byte) (round : Nat) :
    BusCycle :=
  ⟨flagBits address, wordAddress address + BitVec.ofNat 23 round, f.drive data round⟩

/-- What a read call that sets out with an address finds in some rounds. -/
def readOut (f : AccessFunc) (cartridge : Cartridge) (address : BitVec 32) (rounds : Nat) :
    List Byte :=
  (List.range rounds).flatMap fun k =>
    f.taken (cartridge (flagBits address) (wordAddress address + BitVec.ofNat 23 k))

theorem taken_length {f : AccessFunc} (word : Byte × Byte) (reading : f.reads = true) :
    (f.taken word).length = f.step := by
  cases f <;> first | rfl | exact nomatch reading

theorem readOut_length {f : AccessFunc} (reading : f.reads = true) (cartridge : Cartridge)
    (address : BitVec 32) (rounds : Nat) :
    (f.readOut cartridge address rounds).length = rounds * f.step := by
  simp [readOut, taken_length _ reading]

end AccessFunc

/-- A state of a call that sets out with an address, after `n` cycles. -/
structure AccessStep (base : Board) (f : AccessFunc) (address : BitVec 32) (data : List Byte)
    (n : Nat) (s : Board) : Prop where
  read : s.nOE = false →
    s.adl.dir = 0x00#8 ∧ s.adh.dir = 0x00#8 ∧ s.nUWR = true ∧ s.nLWR = true
  load : s.pl = true → s.Idle
  flagLatch : s.flagLatch = base.flagLatch ∨ s.flagLatch = flagBits address
  drive : s.strobing = true → s.drive = f.drive data n
  latched : base.Fresh address → s.strobing = true →
    s.flagLatch = flagBits address ∧ s.latchedAddress = wordAddress address + BitVec.ofNat 23 n

theorem AccessStep.of_idle {base s : Board} {f : AccessFunc} {address : BitVec 32}
    {data : List Byte} {n : Nat} (idle : s.Idle)
    (flagLatch : s.flagLatch = base.flagLatch ∨ s.flagLatch = flagBits address) :
    AccessStep base f address data n s where
  read low := nomatch idle.1.symm.trans low
  load _ := idle
  flagLatch := flagLatch
  drive low := nomatch idle.not_strobing.symm.trans low
  latched _ low := nomatch idle.not_strobing.symm.trans low

/-! ## The running address -/

theorem flagBits_iterate (address : BitVec 32) (k : Nat) :
    flagBits (vueIncAddress^[k] address) = flagBits address := by
  induction k with
  | zero => rfl
  | succ k ih => rw [Function.iterate_succ_apply', flagBits_vueIncAddress, ih]

theorem wordAddress_iterate (address : BitVec 32) (k : Nat) :
    wordAddress (vueIncAddress^[k] address) = wordAddress address + BitVec.ofNat 23 k := by
  induction k with
  | zero => simp
  | succ k ih =>
      rw [Function.iterate_succ_apply', wordAddress_vueIncAddress, ih, BitVec.add_assoc,
        BitVec.ofNat_add]

/-! ## The loop invariant -/

/-- What holds after some rounds of a call. -/
structure AccessFunc.Progress (f : AccessFunc) (base : Rig) (address : BitVec 32)
    (buffer : Buffer) (k : Nat) (a : Access) : Prop where
  low : a.rig.board.pl = false
  idle : a.rig.board.Idle
  flagLatch : a.rig.board.flagLatch = base.board.flagLatch ∨
    a.rig.board.flagLatch = flagBits address
  cartridge : a.rig.board.cartridge = base.board.cartridge
  fresh : base.board.Fresh address → a.rig.board.Fresh a.address
  running : a.address = vueIncAddress^[k] address
  pos : a.pos = k * f.step
  written : f.reads = false → a.buffer = buffer
  readOut : f.reads = true → base.board.Fresh address →
    a.buffer.toList.take a.pos = f.readOut base.board.cartridge address k
  cycles : ∃ cs, Performs (AccessStep base.board f address buffer.toList) 0 base a.rig
      a.rig.board cs ∧
    cs.map BusCycle.drive = (List.range k).map (f.drive buffer.toList) ∧
    (base.board.Fresh address → cs = (List.range k).map (f.accessCycle address buffer.toList))

namespace AccessFunc.Progress

variable {f : AccessFunc} {base : Rig} {address : BitVec 32} {buffer : Buffer} {k : Nat}
  {a : Access}

theorem start (base : Rig) (low : base.board.pl = false) (idle : base.board.Idle)
    (address : BitVec 32) (buffer : Buffer) :
    f.Progress base address buffer 0 ⟨base, address, buffer, 0⟩ where
  low := low
  idle := idle
  flagLatch := .inl rfl
  cartridge := rfl
  fresh := id
  running := rfl
  pos := (Nat.zero_mul _).symm
  written _ := rfl
  readOut _ _ := rfl
  cycles := ⟨[], .refl base, rfl, fun _ => rfl⟩

/-- The flags stay those of the start, old or new. -/
theorem afterAddress_flagLatch (h : f.Progress base address buffer k a) :
    (a.rig.board.afterAddress a.address).flagLatch = base.board.flagLatch ∨
      (a.rig.board.afterAddress a.address).flagLatch = flagBits address := by
  rcases Board.afterAddress_flagLatch a.rig.board a.address with kept | loaded
  · rw [kept]
    exact h.flagLatch
  · rw [loaded, h.running, flagBits_iterate]
    exact .inr rfl

/-- The address of the round is latched, and nothing else has happened. -/
theorem addressed (h : f.Progress base address buffer k a) {cs : List BusCycle}
    (performs : Performs (AccessStep base.board f address buffer.toList) 0 base a.rig
      a.rig.board cs) :
    Performs (AccessStep base.board f address buffer.toList) 0 base
      (vueWriteAddress a.address a.rig) (a.rig.board.afterAddress a.address) cs := by
  have quiet := Performs.of_reaches (P := AccessStep base.board f address buffer.toList)
    (n := 0 + cs.length) (vueWriteAddress_spec h.low a.address) h.idle fun s step => by
      refine ⟨step.idle h.idle, .of_idle (step.idle h.idle) ?_⟩
      rcases step.flagLatch with kept | loaded
      · rw [kept]
        exact h.flagLatch
      · rw [loaded, h.running, flagBits_iterate]
        exact .inr rfl
  simpa only [List.append_nil] using performs.trans quiet

/-- The latches in the round. -/
theorem latched (h : f.Progress base address buffer k a) (fresh : base.board.Fresh address) :
    (a.rig.board.afterAddress a.address).flagLatch = flagBits address ∧
      (a.rig.board.afterAddress a.address).latchedAddress =
        wordAddress address + BitVec.ofNat 23 k := by
  rw [(h.fresh fresh).afterAddress_eq, Board.latchedAddress_addressed, h.running,
    wordAddress_iterate]
  exact ⟨(Board.addressed_holdsHigh _ _).1.trans (flagBits_iterate address k), rfl⟩

/-- The next address is as good as this one. -/
theorem fresh_next (h : f.Progress base address buffer k a)
    (fresh : base.board.Fresh address) :
    (a.rig.board.afterAddress a.address).Fresh (vueIncAddress a.address) := by
  rw [(h.fresh fresh).afterAddress_eq]
  exact (Board.addressed_holdsHigh a.rig.board a.address).fresh_vueIncAddress

/-- A round from the moment its ports are set up: the strobes of the mask pulse. -/
theorem pulse (h : f.Progress base address buffer k a) {adl adh : AvrGpio} {staged : Rig}
    {cs : List BusCycle} {m : Byte}
    (performs : Performs (AccessStep base.board f address buffer.toList) 0 base staged
      { a.rig.board.afterAddress a.address with adl := adl, adh := adh } cs)
    (drives : cs.map BusCycle.drive = (List.range k).map (f.drive buffer.toList))
    (exact_ : base.board.Fresh address →
      cs = (List.range k).map (f.accessCycle address buffer.toList))
    (mask : IsStrobeMask m) (only : m &&& ~~~(vueNOe ||| vueNUwr ||| vueNLwr) = 0#8)
    (released : m.getLsbD 6 = true →
      adl.dir = 0x00#8 ∧ adh.dir = 0x00#8 ∧ m.getLsbD 4 = false ∧ m.getLsbD 7 = false)
    (drive : Drive.mk (m.getLsbD 6) (adl.lane (m.getLsbD 7)) (adh.lane (m.getLsbD 4)) =
      f.drive buffer.toList k)
    {b : Access} (rig : b.rig = (staged.ctrlAnd (~~~m)).ctrlOr m)
    (next : b.address = vueIncAddress a.address) (pos : b.pos = (k + 1) * f.step)
    (written : f.reads = false → b.buffer = buffer)
    (readOut : f.reads = true → base.board.Fresh address →
      b.buffer.toList.take b.pos = f.readOut base.board.cartridge address (k + 1)) :
    f.Progress base address buffer (k + 1) b := by
  obtain ⟨set, setEq⟩ : ∃ set : Board, set =
    { a.rig.board.afterAddress a.address with adl := adl, adh := adh } := ⟨_, rfl⟩
  rw [← setEq] at performs
  have low : set.pl = false := by rw [setEq]; simpa [Board.pl] using h.low
  have idle : set.Idle := by
    rw [setEq]
    simpa [Board.Idle, Board.nOE, Board.nUWR, Board.nLWR] using h.idle
  have lanes : (set.strobed m).drive = f.drive buffer.toList k := by
    rw [Board.drive, strobed_nOE, strobed_nLWR, strobed_nUWR, idle.1, idle.2.1, idle.2.2, ← drive,
      setEq]
    simp [Board.strobed]
  have flagLatch : set.flagLatch = base.board.flagLatch ∨ set.flagLatch = flagBits address := by
    rw [setEq]
    exact h.afterAddress_flagLatch
  have latched (fresh : base.board.Fresh address) : set.flagLatch = flagBits address ∧
      set.latchedAddress = wordAddress address + BitVec.ofNat 23 k := by
    rw [setEq]
    exact h.latched fresh
  have count : cs.length = k := by simpa using congrArg List.length drives
  have during : AccessStep base.board f address buffer.toList (0 + cs.length) (set.strobed m) := by
    rw [count, Nat.zero_add]
    exact
      { read := fun fallen => by
          rw [strobed_nOE, idle.1, Bool.true_and, Bool.not_eq_false'] at fallen
          obtain ⟨adlIn, adhIn, nUWR, nLWR⟩ := released fallen
          rw [strobed_nUWR, strobed_nLWR, idle.2.1, idle.2.2, nUWR, nLWR, setEq]
          exact ⟨adlIn, adhIn, rfl, rfl⟩
        load := fun high => by
          rw [Board.pl, Board.strobed, BitVec.getLsbD_and] at high
          rw [Board.pl] at low
          rw [low] at high
          exact absurd high Bool.false_ne_true
        flagLatch := flagLatch
        drive := fun _ => lanes
        latched := fun fresh _ => latched fresh }
  have pulsed := performs.pulse mask only low idle during (.of_idle idle flagLatch)
  rw [← rig] at pulsed
  have board := pulsed.board
  rw [← board] at pulsed low idle flagLatch
  refine
    { low := low, idle := idle, flagLatch := flagLatch, pos := pos, written := written
      readOut := readOut, cartridge := ?_, fresh := fun fresh => ?_, running := ?_
      cycles := ⟨_, pulsed, ?_, fun fresh => ?_⟩ }
  · rw [board, setEq]
    exact (Board.afterAddress_cartridge _ _).trans h.cartridge
  · rw [board, setEq, next]
    exact h.fresh_next fresh
  · rw [next, h.running, Function.iterate_succ_apply']
  · rw [List.map_append, drives, List.range_succ, List.map_append]
    simp [Board.cycle, board, lanes]
  · rw [exact_ fresh, List.range_succ, List.map_append, List.map_singleton, Board.cycle,
      AccessFunc.accessCycle]
    obtain ⟨flags, word⟩ := latched fresh
    rw [board, lanes, flags, word]

end AccessFunc.Progress

/-! ## Rounds of a read routine -/

theorem take_set_succ {l : List Byte} {n : Nat} (inside : n < l.length) (x : Byte) :
    (l.set n x).take (n + 1) = l.take n ++ [x] := by
  rw [List.take_add_one, List.take_set_of_le (Nat.le_refl n), List.getElem?_set_self inside]
  rfl

/-- The bytes of the ports go into the buffer behind what it holds. -/
theorem Access.store_ports (ports : List (Board → Byte)) (board : Board) :
    ∀ a : Access, a.pos + ports.length ≤ 64 →
      ∃ buffer, ports.foldlM (fun (a : Access) port => a.store (port board)) a =
          some { a with buffer := buffer, pos := a.pos + ports.length } ∧
        buffer.toList.take (a.pos + ports.length) =
          a.buffer.toList.take a.pos ++ ports.map (· board) := by
  induction ports with
  | nil => exact fun a _ => ⟨a.buffer, rfl, by simp⟩
  | cons port rest ih =>
      intro a room
      rw [List.length_cons] at room
      have inside : a.pos < 64 := by omega
      obtain ⟨buffer, stored, taken⟩ :=
        ih { a with buffer := a.buffer.set a.pos (port board) inside, pos := a.pos + 1 }
          (by simp only; omega)
      have position : a.pos + (port :: rest).length = a.pos + 1 + rest.length := by
        rw [List.length_cons]
        omega
      refine ⟨buffer, ?_, ?_⟩
      · rw [List.foldlM_cons, Access.store, dif_pos inside, position]
        exact stored
      · simp only [Vector.toList_set] at taken
        rw [position, taken, take_set_succ (by simpa using inside), List.append_assoc,
          List.map_cons, List.singleton_append]

theorem Board.eta_ports {b : Board} {adl adh : AvrGpio} (adlEq : b.adl = adl)
    (adhEq : b.adh = adh) : { b with adl := adl, adh := adh } = b := by
  rw [← adlEq, ← adhEq]

/-- A released port reads what the cartridge drives. -/
theorem Board.strobed_in {b : Board} (adl : b.adl = VueCartReader.released)
    (adh : b.adh = VueCartReader.released) :
    (b.strobed vueNOe).adlIn = (b.cartridge b.flagLatch b.latchedAddress).1 ∧
      (b.strobed vueNOe).adhIn = (b.cartridge b.flagLatch b.latchedAddress).2 := by
  have low : (b.strobed vueNOe).nOE = false := by simp
  have lines : (b.strobed vueNOe).undriven = b.cartridge b.flagLatch b.latchedAddress := by
    rw [Board.undriven, low]
    rfl
  have dirs : (b.strobed vueNOe).adl = VueCartReader.released ∧
      (b.strobed vueNOe).adh = VueCartReader.released := ⟨adl, adh⟩
  rw [Board.adlIn, Board.adhIn, lines, dirs.1, dirs.2]
  simp [VueCartReader.released, Board.and_allOnes_byte]

namespace AccessFunc.Progress

variable {f : AccessFunc} {base : Rig} {address : BitVec 32} {buffer : Buffer} {k : Nat}
  {a : Access}

theorem readRound {ports : List (Board → Byte)} (h : f.Progress base address buffer k a)
    (reading : f.reads = true) (count : ports.length = f.step)
    (values : ∀ b : Board, f.taken (b.adlIn, b.adhIn) = ports.map (· b))
    (room : (k + 1) * f.step ≤ 64) :
    ∃ b, VueCartReader.readRound ports a = some b ∧ f.Progress base address buffer (k + 1) b := by
  obtain ⟨cs, performs, drives, exact_⟩ := h.cycles
  have position : a.pos + ports.length = (k + 1) * f.step := by rw [h.pos, count, Nat.succ_mul]
  obtain ⟨filled, stored, taken⟩ := Access.store_ports ports
    ((vueWriteAddress a.address a.rig).ctrlAnd (~~~vueNOe)).board
    { a with rig := (vueWriteAddress a.address a.rig).ctrlAnd (~~~vueNOe)
             address := vueIncAddress a.address } (by simp only; omega)
  refine ⟨_, by rw [VueCartReader.readRound, stored]; rfl, ?_⟩
  have addressed := h.addressed performs
  have ports_ : { a.rig.board.afterAddress a.address with
      adl := VueCartReader.released, adh := VueCartReader.released } =
      a.rig.board.afterAddress a.address :=
    Board.eta_ports (Board.afterAddress_adl _ _) (Board.afterAddress_adh _ _)
  rw [← ports_] at addressed
  have idleDrive : Drive.mk true .idle .idle = f.drive buffer.toList k := by
    cases f <;> first | rfl | exact nomatch reading
  refine h.pulse (m := vueNOe) addressed drives exact_ ⟨rfl, rfl⟩ rfl
    (fun _ => ⟨rfl, rfl, rfl, rfl⟩)
    idleDrive rfl rfl position (fun writing => nomatch reading.symm.trans writing) ?_
  intro _ fresh
  have low : (vueWriteAddress a.address a.rig).board.pl = false := by
    rw [(h.addressed performs).board]
    simpa [Board.pl] using h.low
  have board : ((vueWriteAddress a.address a.rig).ctrlAnd (~~~vueNOe)).board =
      (a.rig.board.afterAddress a.address).strobed vueNOe := by
    rw [Rig.strobe_board low, (h.addressed performs).board]
  obtain ⟨lower, upper⟩ := Board.strobed_in (Board.afterAddress_adl a.rig.board a.address)
    (Board.afterAddress_adh a.rig.board a.address)
  obtain ⟨flags, word⟩ := h.latched fresh
  rw [Board.afterAddress_cartridge, flags, word, h.cartridge] at lower upper
  simp only at taken ⊢
  rw [taken, h.readOut reading fresh, ← values, board, lower, upper, AccessFunc.readOut,
    AccessFunc.readOut, List.range_succ, List.flatMap_append, List.flatMap_singleton]

/-! ## Rounds of a write routine -/

theorem writeRound16 (h : vueWriteData16bit.Progress base address buffer k a)
    (room : (k + 1) * 2 ≤ 64) :
    ∃ b, VueCartReader.writeRound [Rig.adlOut, Rig.adhOut]
        (fun r => r.adlDir 0xFF#8 |>.adhDir 0xFF#8) (vueNUwr ||| vueNLwr) a = some b ∧
      vueWriteData16bit.Progress base address buffer (k + 1) b := by
  obtain ⟨cs, performs, drives, exact_⟩ := h.cycles
  have pos : a.pos = k * 2 := h.pos
  have first : a.pos < 64 := by omega
  have second : a.pos + 1 < 64 := by omega
  have low : (a.rig.board.afterAddress a.address).pl = false := by simpa [Board.pl] using h.low
  have quiet (adl adh : AvrGpio) : AccessStep base.board vueWriteData16bit address buffer.toList
      (0 + cs.length) { a.rig.board.afterAddress a.address with adl := adl, adh := adh } :=
    .of_idle (by simpa [Board.Idle, Board.nOE, Board.nUWR, Board.nLWR] using h.idle)
      h.afterAddress_flagLatch
  have staged := (h.addressed performs)
    |>.quietWrite (f := fun b => { b with adl := { b.adl with out := a.buffer[a.pos] } })
      low rfl (quiet _ _) rfl
    |>.quietWrite (f := fun b => { b with adh := { b.adh with out := a.buffer[a.pos + 1] } })
      low rfl (quiet _ _) rfl
    |>.quietWrite (f := fun b => { b with adl := { b.adl with dir := 0xFF#8 } })
      low rfl (quiet _ _) rfl
    |>.quietWrite (f := fun b => { b with adh := { b.adh with dir := 0xFF#8 } })
      low rfl (quiet _ _) rfl
  have same : a.buffer = buffer := h.written rfl
  refine ⟨_, by
    rw [VueCartReader.writeRound, List.foldlM_cons, Access.fetch, dif_pos first]
    simp only [Option.bind_eq_bind, Option.bind_some, List.foldlM_cons, Access.fetch,
      dif_pos second, List.foldlM_nil, Option.pure_def, Option.map_some]
    rfl, ?_⟩
  refine h.pulse (m := vueNUwr ||| vueNLwr) staged drives exact_ ⟨rfl, rfl⟩ rfl
    (fun read => absurd read (by decide)) ?_ rfl rfl ?_ h.written
    (fun reading => absurd reading (by decide))
  · have even : 2 * k = a.pos := by omega
    simp [AccessFunc.drive, AvrGpio.lane, even, same, first, second]
  · simp only [AccessFunc.step]
    omega

/-- A round of a routine that writes one byte through one port. -/
theorem writeRound8 (h : f.Progress base address buffer k a) (writing : f.reads = false)
    (bytes : f.step = 1) {port : Byte → Rig → Rig} {m : Byte} (adl adh : Byte → AvrGpio)
    (stage : ∀ {P : Nat → Board → Prop} {r r' : Rig} {b : Board} {cs : List BusCycle} (x : Byte),
      Performs P 0 r r' b cs → b.pl = false → b.adl = VueCartReader.released →
      b.adh = VueCartReader.released →
      (∀ adl adh, P (0 + cs.length) { b with adl := adl, adh := adh }) →
      Performs P 0 r ((port x r').adlDir 0xFF#8) { b with adl := adl x, adh := adh x } cs)
    (mask : IsStrobeMask m) (only : m &&& ~~~(vueNOe ||| vueNUwr ||| vueNLwr) = 0#8)
    (nOE : m.getLsbD 6 = false)
    (drive : Drive.mk false ((adl (buffer.toList.getD k 0#8)).lane (m.getLsbD 7))
      ((adh (buffer.toList.getD k 0#8)).lane (m.getLsbD 4)) = f.drive buffer.toList k)
    (room : k + 1 ≤ 64) :
    ∃ b, VueCartReader.writeRound [port] (Rig.adlDir 0xFF#8) m a = some b ∧
      f.Progress base address buffer (k + 1) b := by
  obtain ⟨cs, performs, drives, exact_⟩ := h.cycles
  have pos : a.pos = k := by rw [h.pos, bytes, Nat.mul_one]
  have inside : a.pos < 64 := by omega
  have low : (a.rig.board.afterAddress a.address).pl = false := by simpa [Board.pl] using h.low
  have quiet (adl adh : AvrGpio) : AccessStep base.board f address buffer.toList
      (0 + cs.length) { a.rig.board.afterAddress a.address with adl := adl, adh := adh } :=
    .of_idle (by simpa [Board.Idle, Board.nOE, Board.nUWR, Board.nLWR] using h.idle)
      h.afterAddress_flagLatch
  have staged := stage a.buffer[a.pos] (h.addressed performs) low (Board.afterAddress_adl _ _)
    (Board.afterAddress_adh _ _) quiet
  refine ⟨_, by
    rw [VueCartReader.writeRound, List.foldlM_cons, Access.fetch, dif_pos inside]
    simp only [Option.bind_eq_bind, Option.bind_some, List.foldlM_nil, Option.pure_def,
      Option.map_some]
    rfl, ?_⟩
  have byte : a.buffer[a.pos] = buffer.toList.getD k 0#8 := by
    simp [h.written writing, pos, show k < 64 from room]
  rw [byte] at staged
  refine h.pulse (m := m) staged drives exact_ mask only
    (fun read => absurd (nOE.symm.trans read) Bool.false_ne_true)
    (by rw [nOE, drive]) (by rw [byte]) rfl ?_ h.written
    (fun reading => absurd (writing.symm.trans reading) Bool.false_ne_true)
  show a.pos + 1 = _
  rw [bytes, pos, Nat.mul_one]

theorem writeRound8Lo (h : vueWriteData8bitLo.Progress base address buffer k a)
    (room : k + 1 ≤ 64) :
    ∃ b, VueCartReader.writeRound [Rig.adlOut] (Rig.adlDir 0xFF#8) vueNLwr a = some b ∧
      vueWriteData8bitLo.Progress base address buffer (k + 1) b := by
  refine h.writeRound8 rfl rfl (fun x => ⟨0xFF#8, x⟩) (fun _ => VueCartReader.released)
    (fun x performs low adl adh ok => ?_) ⟨rfl, rfl⟩ rfl rfl rfl room
  have out := performs.quietWrite (f := fun b => { b with adl := { b.adl with out := x } }) low
    rfl (ok _ _) rfl
  have dir := out.quietWrite (f := fun b => { b with adl := { b.adl with dir := 0xFF#8 } }) low
    rfl (ok _ _) rfl
  rwa [adh] at dir

theorem writeRound8Hi (h : vueWriteData8bitHi.Progress base address buffer k a)
    (room : k + 1 ≤ 64) :
    ∃ b, VueCartReader.writeRound [Rig.adhOut] (Rig.adlDir 0xFF#8) vueNUwr a = some b ∧
      vueWriteData8bitHi.Progress base address buffer (k + 1) b := by
  refine h.writeRound8 rfl rfl (fun _ => ⟨0xFF#8, 0xFF#8⟩) (fun x => ⟨0x00#8, x⟩)
    (fun x performs low adl adh ok => ?_) ⟨rfl, rfl⟩ rfl rfl rfl room
  have out := performs.quietWrite (f := fun b => { b with adh := { b.adh with out := x } }) low
    rfl (ok _ _) rfl
  have dir := out.quietWrite (f := fun b => { b with adl := { b.adl with dir := 0xFF#8 } }) low
    rfl (ok _ _) rfl
  rw [adl, adh] at dir
  exact dir

/-- A write to the AD ports between cycles. -/
theorem ports (h : f.Progress base address buffer k a) {g : Board → Board}
    (only : ∀ b, ∃ adl adh, g b = { b with adl := adl, adh := adh }) :
    f.Progress base address buffer k { a with rig := a.rig.write g } := by
  obtain ⟨cs, performs, drives, exact_⟩ := h.cycles
  obtain ⟨adl, adh, eq⟩ := only a.rig.board
  have ctrl : (g a.rig.board).ctrl = a.rig.board.ctrl := by rw [eq]
  have low : (g a.rig.board).pl = false := by rw [Board.pl, ctrl]; exact h.low
  have idle : (g a.rig.board).Idle := by
    rw [Board.Idle, Board.nOE, Board.nUWR, Board.nLWR, ctrl]
    exact h.idle
  have flagLatch : (g a.rig.board).flagLatch = a.rig.board.flagLatch := by rw [eq]
  have written := performs.quietWrite (f := g) h.low ctrl
    (.of_idle idle (by rw [flagLatch]; exact h.flagLatch)) (by rw [eq]; rfl)
  have board := written.board
  refine
    { low := by rw [board]; exact low
      idle := by rw [board]; exact idle
      flagLatch := by rw [board, flagLatch]; exact h.flagLatch
      cartridge := by rw [board, eq]; exact h.cartridge
      fresh := fun fresh => by rw [board, eq]; exact h.fresh fresh
      running := h.running, pos := h.pos, written := h.written, readOut := h.readOut
      cycles := ⟨cs, ?_, drives, exact_⟩ }
  rw [board]
  exact written

theorem adlOut (h : f.Progress base address buffer k a) (x : Byte) :
    f.Progress base address buffer k { a with rig := a.rig.adlOut x } :=
  h.ports fun b => ⟨{ b.adl with out := x }, b.adh, rfl⟩

theorem adlDir (h : f.Progress base address buffer k a) (x : Byte) :
    f.Progress base address buffer k { a with rig := a.rig.adlDir x } :=
  h.ports fun b => ⟨{ b.adl with dir := x }, b.adh, rfl⟩

theorem adhOut (h : f.Progress base address buffer k a) (x : Byte) :
    f.Progress base address buffer k { a with rig := a.rig.adhOut x } :=
  h.ports fun b => ⟨b.adl, { b.adh with out := x }, rfl⟩

theorem adhDir (h : f.Progress base address buffer k a) (x : Byte) :
    f.Progress base address buffer k { a with rig := a.rig.adhDir x } :=
  h.ports fun b => ⟨b.adl, { b.adh with dir := x }, rfl⟩

/-- The loop of a routine, from one step of its invariant. -/
theorem loop {length : BitVec 8} (step : BitVec 8) {body : Access → Option Access}
    (address : BitVec 32) (buffer : Buffer) (inside : length.toNat ≤ 64)
    (low : base.board.pl = false) (idle : base.board.Idle)
    (stepEq : step.toNat = f.step)
    (round : ∀ k a, (k + 1) * f.step ≤ 64 → f.Progress base address buffer k a →
      ∃ b, body a = some b ∧ f.Progress base address buffer (k + 1) b) :
    ∃ b, countLoop length step body 256 0#8 ⟨base, address, buffer, 0⟩ = some b ∧
      f.Progress base address buffer (rounds length.toNat f.step) b := by
  have range : 1 ≤ f.step ∧ f.step ≤ 2 := by cases f <;> decide
  have bound : rounds length.toNat f.step * f.step ≤ 64 := by
    rcases range with ⟨above, below⟩
    interval_cases eq : f.step <;> simp only [rounds] <;> omega
  have few : rounds length.toNat f.step ≤ 64 := by
    have := Nat.le_mul_of_pos_right (rounds length.toNat f.step) range.1
    omega
  rw [countLoop_eq_repeatM body (by omega) (by omega) 256 0 0#8 _ (by simp)
    (by rw [stepEq]; omega) (Nat.zero_le _), stepEq, Nat.sub_zero]
  refine repeatM_invariant (fun k a more progress => round k a ?_ progress)
    (Progress.start base low idle address buffer)
  exact (Nat.mul_le_mul_right f.step more).trans bound

end AccessFunc.Progress

/-- **A call of an access routine.** With at most a buffer to move it returns, after
one cycle a round. -/
theorem AccessFunc.call_spec (f : AccessFunc) {length : BitVec 8} (inside : length.toNat ≤ 64)
    (base : Rig) (low : base.board.pl = false) (idle : base.board.Idle) (address : BitVec 32)
    (buffer : Buffer) :
    ∃ a, f.call length base address buffer = some a ∧
      f.Progress base address buffer (rounds length.toNat f.step) a := by
  cases f with
  | vueReadData16bit =>
      exact Progress.loop _ address buffer inside low idle rfl fun k a room progress =>
        progress.readRound rfl rfl (fun _ => rfl) room
  | vueReadData8bitLo =>
      exact Progress.loop _ address buffer inside low idle rfl fun k a room progress =>
        progress.readRound rfl rfl (fun _ => rfl) room
  | vueReadData8bitHi =>
      exact Progress.loop _ address buffer inside low idle rfl fun k a room progress =>
        progress.readRound rfl rfl (fun _ => rfl) room
  | vueWriteData16bit =>
      obtain ⟨b, looped, progress⟩ := Progress.loop (f := vueWriteData16bit) 2#8 address buffer
        inside low idle rfl fun k a room progress => progress.writeRound16 room
      refine ⟨{ b with rig := releaseBus b.rig }, ?_, ?_⟩
      · simp only [AccessFunc.call, VueCartReader.vueWriteData16bit, looped, Option.map_some]
      · exact progress.adlOut 0xFF#8 |>.adlDir 0x00#8 |>.adhOut 0xFF#8 |>.adhDir 0x00#8
  | vueWriteData8bitLo =>
      obtain ⟨b, looped, progress⟩ := Progress.loop (f := vueWriteData8bitLo) 1#8 address buffer
        inside low idle rfl fun k a room progress =>
          progress.writeRound8Lo (by simpa [step] using room)
      refine ⟨{ b with rig := b.rig.adlOut 0xFF#8 |>.adlDir 0x00#8 }, ?_, ?_⟩
      · simp only [AccessFunc.call, VueCartReader.vueWriteData8bitLo, looped, Option.map_some]
      · exact progress.adlOut 0xFF#8 |>.adlDir 0x00#8
  | vueWriteData8bitHi =>
      obtain ⟨b, looped, progress⟩ := Progress.loop (f := vueWriteData8bitHi) 1#8 address buffer
        inside low idle rfl fun k a room progress =>
          progress.writeRound8Hi (by simpa [step] using room)
      refine ⟨{ b with rig := b.rig.adhOut 0xFF#8 |>.adhDir 0x00#8 }, ?_, ?_⟩
      · simp only [AccessFunc.call, VueCartReader.vueWriteData8bitHi, looped, Option.map_some]
      · exact progress.adhOut 0xFF#8 |>.adhDir 0x00#8

end VueCartReader
