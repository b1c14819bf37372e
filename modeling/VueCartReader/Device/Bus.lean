import VueCartReader.Device.Frame
import VueCartReader.Board.Running

/-!
# Bus safety of the bus routines

A state of the board is safe (`Board.Safe`) when the microcontroller does not drive
the bus against a read, does not read and write at once, keeps `PL` low during
strobes and selects at most one chip. Every routine that starts on a board at rest
goes through safe states only and leaves the board at rest; so do the reader of the
ROM header and the writer of the default state.
-/

set_option autoImplicit false

namespace VueCartReader

open Program

/-! ## Safe states -/

/-- At most one of the chip selects is low. -/
def oneSelect (flags : Byte) : Bool :=
  (flags.getLsbD 1 || flags.getLsbD 2) && (flags.getLsbD 1 || flags.getLsbD 4) &&
    (flags.getLsbD 2 || flags.getLsbD 4)

/-- All chip selects are high. -/
def noSelect (flags : Byte) : Bool := flags.getLsbD 1 && flags.getLsbD 2 && flags.getLsbD 4

theorem oneSelect_of_noSelect {flags : Byte} (none_ : noSelect flags = true) :
    oneSelect flags = true := by
  simp only [noSelect, Bool.and_eq_true] at none_
  simp [oneSelect, none_.1.1, none_.1.2]

structure Board.Safe (b : Board) : Prop where
  released : b.nOE = false → b.adl.dir = 0x00#8 ∧ b.adh.dir = 0x00#8
  apart : b.nOE = false → b.nUWR = true ∧ b.nLWR = true
  load : b.pl = true → b.Idle
  selects : oneSelect b.flagLatch = true

/-- Between accesses: the strobes are high and `PL` is low. -/
structure Board.Resting (b : Board) : Prop where
  low : b.pl = false
  idle : b.Idle

theorem boardInit_resting (cartridge : Cartridge) (lowLatch : BitVec 15)
    (flagLatch pageLatch : Byte) :
    (boardInit cartridge lowLatch flagLatch pageLatch).Resting where
  low := by
    show (0xF2#8).getLsbD 2 = false
    decide
  idle := by
    show (0xF2#8).getLsbD 6 = true ∧ (0xF2#8).getLsbD 4 = true ∧ (0xF2#8).getLsbD 7 = true
    decide

theorem Board.Resting.addressed {b : Board} (rest : b.Resting) (address : BitVec 32) :
    (b.addressed address).Resting := ⟨rest.low, rest.idle⟩

theorem Board.safe_of_idle {b : Board} (idle : b.Idle) (selects : oneSelect b.flagLatch = true) :
    b.Safe where
  released low := nomatch idle.1.symm.trans low
  apart low := nomatch idle.1.symm.trans low
  load _ := idle
  selects := selects

theorem AddressStep.safe {start s : Board} {flags : Byte} (step : AddressStep start flags s)
    (idle : start.Idle) (old : oneSelect start.flagLatch = true) (new : oneSelect flags = true) :
    s.Safe :=
  Board.safe_of_idle (step.idle idle) <| by
    rcases step.flagLatch with eq | eq <;> rw [eq] <;> assumption

theorem AccessStep.safe {base s : Board} {f : AccessFunc} {address : BitVec 32}
    {data : List Byte} {n : Nat} (step : AccessStep base f address data n s)
    (old : oneSelect base.flagLatch = true) (new : oneSelect (flagBits address) = true) :
    s.Safe where
  released low := ⟨(step.read low).1, (step.read low).2.1⟩
  apart low := (step.read low).2.2
  load := step.load
  selects := by
    rcases step.flagLatch with eq | eq <;> rw [eq] <;> assumption

/-- The read strobe falls over released ports. -/
theorem Board.strobed_safe {b : Board} (rest : b.Resting) (adl : b.adl = VueCartReader.released)
    (adh : b.adh = VueCartReader.released) (selects : oneSelect b.flagLatch = true) :
    (b.strobed vueNOe).Safe where
  released _ := by
    show b.adl.dir = _ ∧ b.adh.dir = _
    rw [adl, adh]
    exact ⟨rfl, rfl⟩
  apart _ := by
    rw [strobed_nUWR, strobed_nLWR, rest.idle.2.1, rest.idle.2.2]
    exact ⟨rfl, rfl⟩
  load high := nomatch (Board.strobed_low rest.low vueNOe).symm.trans high
  selects := selects

/-! ## Traces -/

theorem Performs.reaches {P : Nat → Board → Prop} {Q : Board → Prop} {n : Nat} {r r' : Rig}
    {b : Board} {cs : List BusCycle} (h : Performs P n r r' b cs) (weaker : ∀ k s, P k s → Q s) :
    Reaches Q r r' b := by
  obtain ⟨trace, settled, board, -, along⟩ := h
  exact ⟨trace, settled, board, (along.mono weaker).forall_mem⟩

/-- A port write is safe: its state is, and no latch moves during a strobe. -/
def Event.BusSafe : Event → Prop
  | .port _ before after =>
      after.Safe ∧ (before.strobing = true → after.strobing = true →
        after.latches = before.latches)
  | _ => True

theorem Board.Safe.low_of_strobing {b : Board} (safe : b.Safe) (strobing : b.strobing = true) :
    b.pl = false := by
  cases high : b.pl with
  | false => rfl
  | true => exact nomatch (safe.load high).not_strobing.symm.trans strobing

theorem portEvents_safe (by_ : Actor) {start : Board} {trace : List Board} (safe : start.Safe)
    (writes : Writes start trace) (all : ∀ s ∈ trace, s.Safe) :
    ∀ e ∈ portEvents by_ start trace, e.BusSafe := by
  induction trace generalizing start with
  | nil => exact fun _ member => nomatch member
  | cons after rest ih =>
      have here : after.Safe := all after (List.mem_cons_self ..)
      intro e member
      rcases List.mem_append.mp member with later | now
      · exact ih here writes.2 (fun s member => all s (List.mem_cons_of_mem _ member)) e later
      · rw [List.mem_singleton.mp now]
        exact ⟨here, fun was still =>
          writes.1.latches_eq (safe.low_of_strobing was) (here.low_of_strobing still)⟩

theorem portEvents_kind (by_ : Actor) (start : Board) (trace : List Board) :
    ∀ e ∈ portEvents by_ start trace, ∃ before after, e = .port by_ before after := by
  induction trace generalizing start with
  | nil => exact fun _ member => nomatch member
  | cons after rest ih =>
      intro e member
      rcases List.mem_append.mp member with later | now
      · exact ih after e later
      · exact ⟨start, after, List.mem_singleton.mp now⟩

/-- Writes from a board to a board at rest, through safe states. -/
structure SafeRun (start : Board) (r : Rig) : Prop where
  reaches : ∃ b, Reaches Board.Safe ⟨start, []⟩ r b
  resting : r.board.Resting

theorem SafeRun.portEvents_safe {start : Board} {r : Rig} (run : SafeRun start r) (by_ : Actor)
    (safe : start.Safe) : ∀ e ∈ portEvents by_ start r.seen, e.BusSafe := by
  obtain ⟨b, trace, settled, -, all⟩ := run.reaches
  have seen : r.seen = trace := settled.seen
  rw [seen]
  exact VueCartReader.portEvents_safe by_ safe settled.writes all

/-! ## The routines -/

theorem vueWriteAddressFull_run {b : Board} (rest : b.Resting) {address : BitVec 32}
    (old : oneSelect b.flagLatch = true) (new : oneSelect (flagBits address) = true) :
    SafeRun b (vueWriteAddressFull address ⟨b, []⟩) ∧
      (vueWriteAddressFull address ⟨b, []⟩).board = b.addressed address := by
  have spec := vueWriteAddressFull_spec (r := ⟨b, []⟩) rest.low address
  have board : (vueWriteAddressFull address ⟨b, []⟩).board = b.addressed address :=
    spec.choose_spec.2.1
  refine ⟨⟨⟨_, spec.mono fun s step => step.safe rest.idle old new⟩, ?_⟩, board⟩
  rw [board]
  exact rest.addressed address

theorem AccessFunc.Progress.run {f : AccessFunc} {b : Board} {address : BitVec 32}
    {buffer : Buffer} {k : Nat} {a : Access} (h : f.Progress ⟨b, []⟩ address buffer k a)
    (old : oneSelect b.flagLatch = true) (new : oneSelect (flagBits address) = true) :
    SafeRun b a.rig := by
  obtain ⟨cs, performs, -⟩ := h.cycles
  exact ⟨⟨_, performs.reaches fun k s step => step.safe old new⟩, h.low, h.idle⟩

theorem or_strobes {x : Byte} (oe : x.getLsbD 6 = true) (uwr : x.getLsbD 4 = true)
    (lwr : x.getLsbD 7 = true) : x ||| (vueNOe ||| vueNUwr ||| vueNLwr) = x := by
  apply BitVec.eq_of_getLsbD_eq
  intro i bound
  rw [BitVec.getLsbD_or]
  interval_cases i <;> simp_all

theorem and_not_pl_of_low {x : Byte} (low : x.getLsbD 2 = false) :
    x &&& ~~~vueCartReaderPl = x := by
  apply BitVec.eq_of_getLsbD_eq
  intro i bound
  rw [BitVec.getLsbD_and]
  interval_cases i <;> simp_all

/-- The writes to the control port of the reset block change nothing on a board at
rest. -/
theorem writeDefaultState_run {b : Board} (rest : b.Resting) (old : oneSelect b.flagLatch = true) :
    SafeRun b (writeDefaultState ⟨b, []⟩) ∧
      (writeDefaultState ⟨b, []⟩).board = b.addressed allFlags := by
  have ready : b.ctrl.out ||| (vueNOe ||| vueNUwr ||| vueNLwr) = b.ctrl.out :=
    or_strobes rest.idle.1 rest.idle.2.1 rest.idle.2.2
  have lowered : b.ctrl.out &&& ~~~vueCartReaderPl = b.ctrl.out := and_not_pl_of_low rest.low
  have safe := Board.safe_of_idle rest.idle old
  have raised := (Reaches.refl (P := Board.Safe) ⟨b, []⟩).ctrlOr
    (vueNOe ||| vueNUwr ||| vueNLwr) rest.low (by rw [ready]; exact rest.low)
    (by simp only [ready]; exact safe)
  simp only [ready] at raised
  have fallen := raised.ctrlAnd (~~~vueCartReaderPl) rest.low (by simp only [lowered]; exact safe)
  simp only [lowered] at fallen
  have board : (Rig.ctrlAnd (~~~vueCartReaderPl)
      (Rig.ctrlOr (vueNOe ||| vueNUwr ||| vueNLwr) ⟨b, []⟩)).board = b := fallen.choose_spec.2.1
  have written := vueWriteAddressFull_spec (by rw [board]; exact rest.low) allFlags
  rw [board] at written
  have all := fallen.trans (written.mono fun s step => step.safe rest.idle old (by decide))
  have final : (writeDefaultState ⟨b, []⟩).board = b.addressed allFlags := all.choose_spec.2.1
  refine ⟨⟨⟨_, all⟩, ?_⟩, final⟩
  rw [final]
  exact rest.addressed allFlags

/-! ## The header reader -/

/-- Where the header reader starts: the ROM header, selected by the flags. -/
abbrev headerStart : BitVec 32 := 0x0AFFFEF0#32

/-- The word addresses of the header with the flags the reader leaves. -/
abbrev headerEnd : BitVec 32 := 0x0BFFFF00#32

/-- The variable of the header reader holds all four flags. -/
def HeaderReady (address : BitVec 32) : Prop := address &&& vueFlagMask = vueFlagMask

theorem headerReady_end : HeaderReady headerEnd := by
  rw [HeaderReady]
  decide

theorem HeaderReady.start {address : BitVec 32} (ready : HeaderReady address) :
    (address &&& vueFlagMask ||| ((0xFFFFFDE0#32 >>> 1) &&& vueAddressMask)) &&&
      ~~~vueNRomCe = headerStart := by
  rw [show address &&& vueFlagMask = vueFlagMask from ready]
  decide

/-- The header as a cartridge shows it. -/
def headerBytes (cartridge : Cartridge) (words : Nat) : List Byte :=
  (List.range words).flatMap fun k =>
    let word := cartridge (flagBits headerStart)
      (wordAddress headerStart + BitVec.ofNat 23 k)
    [word.1, word.2]

theorem headerAddress_parts {k : Nat} (inside : k < 16) :
    flagBits (headerStart + BitVec.ofNat 32 k) = flagBits headerStart ∧
      wordAddress (headerStart + BitVec.ofNat 32 k) =
        wordAddress headerStart + BitVec.ofNat 23 k := by
  interval_cases k <;> decide

/-- What holds after some words of the header. -/
structure HeaderProgress (b : Board) (k : Nat) (h : HeaderReader) : Prop where
  run : SafeRun b h.rig
  selects : oneSelect h.rig.board.flagLatch = true
  ctrl : h.rig.board.ctrl = b.ctrl
  cartridge : h.rig.board.cartridge = b.cartridge
  address : h.address = headerStart + BitVec.ofNat 32 k
  position : h.i = 2 * k
  bytes : h.myBuffer.toList.take (2 * k) = headerBytes b.cartridge k

theorem HeaderProgress.round {b : Board} {k : Nat} {h : HeaderReader}
    (progress : HeaderProgress b k h) (inside : k < 16) : HeaderProgress b (k + 1) h.round := by
  obtain ⟨run, selects, ctrl, cartridge, address, position, bytes⟩ := progress
  obtain ⟨flags, word⟩ := headerAddress_parts inside
  have rom : oneSelect (flagBits h.address) = true := by
    rw [address, flags]
    decide
  obtain ⟨start, reached⟩ := run.reaches
  have board : h.rig.board = start := reached.choose_spec.2.1
  rw [← board] at reached
  have written := vueWriteAddressFull_spec run.resting.low h.address
  have addressed : (vueWriteAddressFull h.address h.rig).board = h.rig.board.addressed h.address :=
    written.choose_spec.2.1
  have low : (vueWriteAddressFull h.address h.rig).board.pl = false := by
    rw [addressed]
    exact run.resting.low
  -- the strobe falls and rises over the addressed board
  have pulsed := (reached.trans (written.mono fun s step => step.safe run.resting.idle selects rom))
    |>.ctrlAnd (~~~vueNOe) run.resting.low
      (Board.strobed_safe (run.resting.addressed h.address) rfl rfl rom)
  have restored : h.rig.board.ctrl.out &&& ~~~vueNOe ||| vueNOe = h.rig.board.ctrl.out :=
    and_not_or_of_set (set_of_idle run.resting.idle rfl)
  have risen := pulsed.ctrlOr vueNOe
    (Board.strobed_low (b := h.rig.board.addressed h.address) run.resting.low vueNOe)
    (by simp only [restored]; exact run.resting.low)
    (Board.safe_of_idle (by simp only [restored]; exact run.resting.idle) rom)
  simp only [restored] at risen
  have final : h.round.rig.board = h.rig.board.addressed h.address := risen.choose_spec.2.1
  have strobed : ((vueWriteAddressFull h.address h.rig).ctrlAnd (~~~vueNOe)).board =
      (h.rig.board.addressed h.address).strobed vueNOe := by
    rw [Rig.strobe_board low, addressed]
  obtain ⟨lower, upper⟩ := Board.strobed_in (b := h.rig.board.addressed h.address) rfl rfl
  have shown : (h.rig.board.addressed h.address).cartridge
      (h.rig.board.addressed h.address).flagLatch (wordAddress h.address) =
        b.cartridge (flagBits headerStart) (wordAddress headerStart + BitVec.ofNat 23 k) := by
    show h.rig.board.cartridge (flagBits h.address) _ = _
    rw [cartridge, address, flags, word]
  rw [Board.latchedAddress_addressed, shown] at lower upper
  have size : 2 * k + 1 < 32 := by omega
  refine
    { run := ⟨⟨_, risen⟩, by rw [final]; exact run.resting.addressed h.address⟩
      selects := by rw [final]; exact rom
      ctrl := by rw [final]; exact ctrl
      cartridge := by rw [final]; exact cartridge
      address := ?_, position := ?_, bytes := ?_ }
  · show h.address + 1#32 = _
    rw [address, BitVec.add_assoc, ← BitVec.ofNat_add]
  · show h.i + 2 = _
    omega
  · have stored : h.round.myBuffer = (h.myBuffer.set! (2 * k)
        (b.cartridge (flagBits headerStart) (wordAddress headerStart + BitVec.ofNat 23 k)).1).set!
        (2 * k + 1)
        (b.cartridge (flagBits headerStart) (wordAddress headerStart + BitVec.ofNat 23 k)).2 := by
      show (h.myBuffer.set! h.i _).set! (h.i + 1) _ = _
      rw [strobed, lower, upper, position]
    rw [stored, headerBytes, List.range_succ, List.flatMap_append, List.flatMap_singleton,
      ← headerBytes, ← bytes]
    simp only [Vector.set!_eq_setIfInBounds, Vector.toList_setIfInBounds]
    rw [show 2 * (k + 1) = 2 * k + 1 + 1 from rfl, take_set_succ (by simpa using size),
      take_set_succ (by simpa using by omega), List.append_assoc]
    rfl

/-- What one word carries on is so after the sixteen words of the header. -/
theorem HeaderReader.loop_rule {P : Nat → HeaderReader → Prop}
    (position : ∀ {k : Nat} {h : HeaderReader}, P k h → h.i = 2 * k)
    (round : ∀ {k : Nat} {h : HeaderReader}, P k h → k < 16 → P (k + 1) h.round) (fuel : Nat) :
    ∀ {k : Nat} {h : HeaderReader}, P k h → k ≤ 16 → 16 ≤ k + fuel →
      P 16 (HeaderReader.loop fuel h) := by
  induction fuel with
  | zero =>
      intro k h held inside enough
      rwa [show (16 : Nat) = k by omega]
  | succ fuel ih =>
      intro k h held inside enough
      rw [HeaderReader.loop, position held]
      by_cases more : k < 16
      · rw [if_pos (by omega)]
        exact ih (round held more) more (by omega)
      · rw [if_neg (by omega), show (16 : Nat) = k by omega]
        exact held

theorem HeaderProgress.loop {b : Board} {h : HeaderReader} (progress : HeaderProgress b 0 h) :
    HeaderProgress b 16 (HeaderReader.loop 32 h) :=
  HeaderReader.loop_rule (P := HeaderProgress b) (fun progress => progress.position)
    HeaderProgress.round 32 progress (Nat.zero_le _) (by decide)

/-- **Reading the ROM header.** From any board at rest, whatever the ports and the
latches hold, the header is read with the ROM selected; afterwards no chip is. -/
theorem readHeader_spec {b : Board} (rest : b.Resting) (old : oneSelect b.flagLatch = true)
    {address : BitVec 32} (ready : HeaderReady address) (myBuffer : Vector Byte 32) :
    SafeRun b (readHeader ⟨b, []⟩ address myBuffer).rig ∧
      (readHeader ⟨b, []⟩ address myBuffer).rig.board = b.addressed headerEnd ∧
      (readHeader ⟨b, []⟩ address myBuffer).address = headerEnd ∧
      (readHeader ⟨b, []⟩ address myBuffer).myBuffer.toList = headerBytes b.cartridge 16 := by
  have started : HeaderProgress b 0 ⟨⟨b, []⟩, headerStart, myBuffer, 0⟩ :=
    { run := ⟨⟨_, .refl _⟩, rest⟩, selects := old, ctrl := rfl, cartridge := rfl
      address := (BitVec.add_zero _).symm, position := rfl, bytes := rfl }
  have finished := started.loop
  rw [readHeader, ready.start]
  obtain ⟨loop, loopEq⟩ : ∃ h, h = HeaderReader.loop 32 ⟨⟨b, []⟩, headerStart, myBuffer, 0⟩ :=
    ⟨_, rfl⟩
  rw [← loopEq] at finished ⊢
  obtain ⟨run, selects, ctrl, cartridge, address, -, bytes⟩ := finished
  have final : loop.address ||| vueNRomCe = headerEnd := by
    rw [address]
    decide
  obtain ⟨start, reached⟩ := run.reaches
  have board : loop.rig.board = start := reached.choose_spec.2.1
  rw [← board] at reached
  have written := vueWriteAddressFull_spec run.resting.low headerEnd
  have all := reached.trans
    (written.mono fun s step => step.safe run.resting.idle selects (by decide))
  have left : (vueWriteAddressFull headerEnd loop.rig).board = b.addressed headerEnd := by
    refine (written.choose_spec.2.1 : _ = loop.rig.board.addressed headerEnd).trans ?_
    simp only [Board.addressed, ctrl, cartridge]
  simp only [final]
  refine ⟨⟨⟨_, all⟩, ?_⟩, left, trivial, ?_⟩
  · rw [left]
    exact rest.addressed headerEnd
  · have whole : loop.myBuffer.toList.take (2 * 16) = loop.myBuffer.toList :=
      List.take_of_length_le (by simp)
    rw [← whole, bytes]

/-! ## A bulk access -/

/-- The world after a bulk access. -/
def World.accessed (w : World) (func : AccessFunc) (length : BitVec 32) (a : Access) : World :=
  { w with
    board := a.rig.board
    vars := { w.vars with bulkAddress := a.address, bulkBuffer := a.buffer }
    log := portEvents .task w.board a.rig.seen ++ .access func length :: w.log }

/-- A call of the chosen routine on at most a buffer does what the routine does. -/
theorem bulkAccess_eq {length : BitVec 32} (inside : (length.setWidth 8).toNat ≤ 64) {w : World}
    (rest : w.board.Resting) {func : AccessFunc} (chosen : w.vars.bulkAccessFunc = some func) :
    ∃ a, func.Progress ⟨w.board, []⟩ w.vars.bulkAddress w.vars.bulkBuffer
        (Program.rounds (length.setWidth 8).toNat func.step) a ∧
      bulkAccess length w = .value () (w.accessed func length a) := by
  obtain ⟨a, called, progress⟩ := func.call_spec inside ⟨w.board, []⟩ rest.low rest.idle
    w.vars.bulkAddress w.vars.bulkBuffer
  refine ⟨a, progress, ?_⟩
  simp only [bulkAccess, state_bind, chosen, note, modify_bind, called, Program.modify,
    World.accessed]

end VueCartReader
