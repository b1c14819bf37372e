import VueCartReader.Safety.Bus

/-!
# The ROM header

Wherever a run stands when `EVENT_USB_Device_ControlRequest` is called for `REQ_READ_HEADER`, and
whatever the ports and the latches hold then, the header is read in sixteen cycles with the ROM
alone selected and both AD ports as inputs, and what the handler leaves behind is the same
(`header_read`). What it needs of the state is what every run keeps: the board rests, and the
variable of the header reader holds all four flags (`BusInvariant`).
-/

set_option autoImplicit false

namespace VueCartReader

open Program

/-! ## The cycles -/

/-- The flags while the ROM alone is selected; the status flag is high. -/
abbrev romFlags : Byte := flagBits (vueFlagMask &&& ~~~vueNRomCe)

/-- The cycle that reads a word of the header: no lane is driven. -/
def headerCycle (k : Nat) : BusCycle :=
  ⟨romFlags, 0x7FFEF0#23 + BitVec.ofNat 23 k, true, .idle, .idle⟩

/-- A state on the way through the header, after `k` words: no write strobe is low, and
while the read strobe is low, the ports are inputs and the latches hold the word. -/
structure HeaderStep (k : Nat) (s : Board) : Prop where
  unwritten : s.nUWR = true ∧ s.nLWR = true
  inputs : s.nOE = false → s.adl.dir = 0x00#8 ∧ s.adh.dir = 0x00#8
  latched : s.nOE = false →
    s.flagLatch = romFlags ∧ s.latchedAddress = 0x7FFEF0#23 + BitVec.ofNat 23 k

theorem HeaderStep.of_idle {k : Nat} {s : Board} (idle : s.Idle) : HeaderStep k s where
  unwritten := idle.2
  inputs low := nomatch idle.1.symm.trans low
  latched low := nomatch idle.1.symm.trans low

/-- So many words of the header have been read. -/
abbrev HeaderRun (b : Board) (k : Nat) (r : Rig) : Prop :=
  Performs HeaderStep 0 ⟨b, []⟩ r r.board ((List.range k).map headerCycle)

/-- A full write between two words. -/
theorem HeaderRun.addressed {b : Board} {k : Nat} {r : Rig} (run : HeaderRun b k r)
    (rest : r.board.Resting) (address : BitVec 32) :
    Performs HeaderStep 0 ⟨b, []⟩ (vueWriteAddressFull address r) (r.board.addressed address)
      ((List.range k).map headerCycle) := by
  have quiet := Performs.of_reaches (P := HeaderStep)
    (n := 0 + ((List.range k).map headerCycle).length) (vueWriteAddressFull_spec rest.low address)
    rest.idle fun s step => ⟨step.idle rest.idle, .of_idle (step.idle rest.idle)⟩
  have done := run.trans quiet
  rwa [List.append_nil] at done

theorem HeaderRun.round {b : Board} {k : Nat} {h : HeaderReader} (run : HeaderRun b k h.rig)
    (progress : HeaderProgress b k h) (inside : k < 16) : HeaderRun b (k + 1) h.round.rig := by
  obtain ⟨flags, word⟩ := headerAddress_parts inside
  rw [← progress.address] at flags word
  have rest := progress.run.resting.addressed h.address
  have latched : (h.rig.board.addressed h.address).flagLatch = romFlags ∧
      (h.rig.board.addressed h.address).latchedAddress = 0x7FFEF0#23 + BitVec.ofNat 23 k := by
    rw [Board.latchedAddress_addressed, word]
    exact ⟨flags, rfl⟩
  have during : HeaderStep (0 + ((List.range k).map headerCycle).length)
      ((h.rig.board.addressed h.address).strobed vueNOe) := by
    rw [List.length_map, List.length_range, Nat.zero_add]
    refine ⟨?_, fun _ => ⟨rfl, rfl⟩, fun _ => latched⟩
    rw [strobed_nUWR, strobed_nLWR, rest.idle.2.1, rest.idle.2.2]
    exact ⟨rfl, rfl⟩
  have pulsed := (run.addressed progress.run.resting h.address).pulse (m := vueNOe) ⟨rfl, rfl⟩ rfl
    rest.low rest.idle during (.of_idle rest.idle)
  have cycle : (h.rig.board.addressed h.address).cycle vueNOe = headerCycle k := by
    rw [Board.cycle, latched.1, latched.2, headerCycle, Board.drive, strobed_nOE, strobed_nUWR,
      strobed_nLWR, rest.idle.1, rest.idle.2.1, rest.idle.2.2]
    rfl
  rw [cycle] at pulsed
  rw [HeaderRun, List.range_succ, List.map_append, List.map_singleton]
  have board := pulsed.board
  rw [← board] at pulsed
  exact pulsed

theorem HeaderRun.loop {b : Board} {h : HeaderReader} (run : HeaderRun b 0 h.rig)
    (progress : HeaderProgress b 0 h) : HeaderRun b 16 (HeaderReader.loop 32 h).rig := by
  have read := HeaderReader.loop_rule (P := fun k h => HeaderRun b k h.rig ∧ HeaderProgress b k h)
    (fun held => held.2.position)
    (fun held more => ⟨held.1.round held.2 more, held.2.round more⟩) 32 ⟨run, progress⟩
    (Nat.zero_le _) (by decide)
  exact read.1

/-- The whole of the header reader, from a board at rest. -/
theorem readHeader_run {b : Board} (rest : b.Resting) (old : oneSelect b.flagLatch = true)
    {address : BitVec 32} (ready : HeaderReady address) (myBuffer : Vector Byte 32) :
    HeaderRun b 16 (readHeader ⟨b, []⟩ address myBuffer).rig := by
  have progress : HeaderProgress b 0 ⟨⟨b, []⟩, headerStart, myBuffer, 0⟩ :=
    { run := ⟨⟨_, .refl _⟩, rest⟩, selects := old, ctrl := rfl, cartridge := rfl
      address := (BitVec.add_zero _).symm, position := rfl, bytes := rfl }
  have started : HeaderRun b 0 ⟨b, []⟩ := .refl _
  have run := HeaderRun.loop started progress
  have resting := progress.loop.run.resting
  have done := run.addressed resting
    ((HeaderReader.loop 32 ⟨⟨b, []⟩, headerStart, myBuffer, 0⟩).address ||| vueNRomCe)
  rw [readHeader, ready.start]
  have board := done.board
  rw [← board] at done
  exact done

/-! ## The request -/

/-- What a cartridge has for a header. -/
def headerOf (cartridge : Cartridge) : List Byte :=
  (List.range 16).flatMap fun k =>
    [(cartridge romFlags (0x7FFEF0#23 + BitVec.ofNat 23 k)).1,
      (cartridge romFlags (0x7FFEF0#23 + BitVec.ofNat 23 k)).2]

/-- What serving `REQ_READ_HEADER` has done, and perhaps some looks at the control endpoint
since. -/
structure HeaderRead (s t : World) : Prop where
  bytes : t.vars.myBuffer.toList = (List.range 16).flatMap fun k =>
    [(s.board.cartridge romFlags (0x7FFEF0#23 + BitVec.ofNat 23 k)).1,
      (s.board.cartridge romFlags (0x7FFEF0#23 + BitVec.ofNat 23 k)).2]
  trace : ∃ later seen, t.log = later ++ (portEvents .control s.board seen ++ s.log) ∧
    (∀ e ∈ later, e.ofUsb = true) ∧
    busCycles s.board seen = (List.range 16).map headerCycle ∧
    ∀ b ∈ seen, (b.nUWR = true ∧ b.nLWR = true) ∧
      (b.nOE = false → b.adl.dir = 0x00#8 ∧ b.adh.dir = 0x00#8 ∧ b.flagLatch = romFlags)
  deselected : noSelect t.board.flagLatch = true
  idle : t.board.Idle
  released : t.board.adl = released ∧ t.board.adh = released
  flags : t.vars.address &&& vueFlagMask = vueFlagMask
  unchanged : t.vars = { s.vars with address := t.vars.address, myBuffer := t.vars.myBuffer }

theorem HeaderRead.state {s t : World} (read : HeaderRead s t) :
    t.vars.curVueState = s.vars.curVueState := by
  rw [read.unchanged]

/-- What only concerns the controller comes after the reading. -/
theorem HeaderRead.framed {s t u : World} (read : HeaderRead s t) (framed : Framed OfUsb t u) :
    HeaderRead s u := by
  obtain ⟨later, seen, log, ofUsb, cycles, along⟩ := read.trace
  obtain ⟨new, log', ofUsb'⟩ := framed.log
  have trace : u.log = (new ++ later) ++ (portEvents .control s.board seen ++ s.log) := by
    rw [log', log, List.append_assoc]
  have all : ∀ e ∈ new ++ later, e.ofUsb = true := by
    intro e member
    rcases List.mem_append.mp member with late | early
    · exact ofUsb' e late
    · exact ofUsb e early
  refine ⟨?_, ⟨new ++ later, seen, trace, all, cycles, along⟩, ?_, ?_, ?_, ?_, ?_⟩
  · rw [framed.vars]
    exact read.bytes
  · rw [framed.board]
    exact read.deselected
  · rw [framed.board]
    exact read.idle
  · rw [framed.board]
    exact read.released
  · rw [framed.vars]
    exact read.flags
  · rw [framed.vars]
    exact read.unchanged

theorem World.BusReady.readHeader_served {s : World} (ready : s.BusReady) :
    wp serveReadHeader (fun _ t => HeaderRead s t) Anywhere s := by
  have run := readHeader_run ready.resting ready.selects ready.header
    s.vars.myBuffer
  obtain ⟨safe, board, address, bytes⟩ :=
    readHeader_spec ready.resting ready.selects ready.header s.vars.myBuffer
  rw [serveReadHeader, wp_modify]
  generalize readHeader ⟨s.board, []⟩ s.vars.address s.vars.myBuffer =
    h at run safe board address bytes
  obtain ⟨trace, settled, -, cycles, along⟩ := run
  have seen : h.rig.seen = trace := settled.seen
  exact
    { bytes := bytes
      trace := ⟨[], trace, by rw [← seen]; rfl, List.forall_mem_nil _, cycles,
        (along.mono fun _ b step =>
          (show (b.nUWR = true ∧ b.nLWR = true) ∧
            (b.nOE = false → b.adl.dir = 0x00#8 ∧ b.adh.dir = 0x00#8 ∧ b.flagLatch = romFlags) from
            ⟨step.unwritten, fun low => ⟨(step.inputs low).1, (step.inputs low).2,
              (step.latched low).1⟩⟩)).forall_mem⟩
      deselected := by
        show noSelect h.rig.board.flagLatch = true
        rw [board]
        show noSelect (flagBits headerEnd) = true
        decide
      idle := safe.resting.idle
      released := by
        show h.rig.board.adl = _ ∧ h.rig.board.adh = _
        rw [board]
        exact ⟨rfl, rfl⟩
      flags := by
        show h.address &&& vueFlagMask = vueFlagMask
        rw [address]
        exact headerReady_end
      unchanged := rfl }

/-- The handler reads the header, and whatever the host does while it is sent, it does nothing
else to the board or to the variables. -/
theorem World.BusReady.header_answered {s : World} (ready : s.BusReady)
    (reads : s.usb.controlRequest.readsHeader = true) :
    wp eventUsbDeviceControlRequest (fun _ t => HeaderRead s t) (fun t => HeaderRead s t) s := by
  rw [wp_congr (eventUsbDeviceControlRequest_of_readsHeader reads)]
  have acknowledged : s.acknowledged.BusReady := ⟨ready.resting, ready.selects, ready.header⟩
  obtain ⟨t, run, read⟩ : ∃ t, serveReadHeader s.acknowledged = .value () t ∧
      HeaderRead s.acknowledged t :=
    ⟨_, rfl, acknowledged.readHeader_served.of_value rfl⟩
  have read : HeaderRead s t :=
    ⟨read.bytes, read.trace, read.deselected, read.idle, read.released, read.flags, read.unchanged⟩
  have rest : Moves (Framed OfUsb) (do
      endpointWriteControlStream (← state).vars.myBuffer.toList
      endpointClearStatusStage) :=
    .bind .state fun _ => (endpointWriteControlStream_framed _).bind fun _ =>
      endpointClearStatusStage_framed
  rw [wp_bind, wp_of_value run]
  exact (rest t).mono (fun _ _ framed => read.framed framed) fun _ framed => read.framed framed

/-- **The ROM header is read from any state.** In whatever state a run of the main loop stands,
finished or cut at any look at the hardware, with whatever the USB side has recorded since: when
the handler is called for `REQ_READ_HEADER`, it has read the header and nothing else by the time
it returns, or by the time the observation ends while it waits for the host. -/
theorem header_read {start w : World} (started : Started start) (inputs : List Input)
    (reached : (mainLoop inputs start).state = w) {s : World} (board : s.board = w.board)
    (vars : s.vars = w.vars) (reads : s.usb.controlRequest.readsHeader = true) :
    wp eventUsbDeviceControlRequest (fun _ t => HeaderRead s t) (fun t => HeaderRead s t) s := by
  have held := (mainLoop_keepsBus inputs).exit (fun _ => id) started.busInvariant
  rw [reached] at held
  have ready : s.BusReady := by
    refine ⟨?_, ?_, ?_⟩
    · rw [board]
      exact held.ready.resting
    · rw [board]
      exact held.ready.selects
    · rw [vars]
      exact held.ready.header
  exact ready.header_answered reads

/-- Two bytes are to be written to the upper lane, of which one has come when the task looks for a
request in the middle of the stream call. -/
def upperInputs : List Input :=
  [configuringInput,
    { packetInput ⟨commandBytes 2#8 0#8 1#8 2#32 2#32, by decide⟩ 46 with setups := [none, none] },
    ⟨plainCartridge, ⟨[.sendOut firstByte], false⟩ :: quietMoments 6, [none]⟩]

def upperWorld : World := (mainLoop upperInputs wordStart).state

/-- The request that is found there asks for the header. -/
def headerAsked : World :=
  { upperWorld with
    usb :=
      { upperWorld.usb with
        controlRequest := readHeaderTransfer.header
        polls := readHeaderTransfer.polls
        setupReceived := true } }

def headerSent : World := (eventUsbDeviceControlRequest headerAsked).state

/-- The write goes on after the header has been sent, but its target is not selected any more. -/
theorem header_read_upper :
    noSelect headerAsked.board.flagLatch = false ∧ headerAsked.vars.curVueState = .write ∧
      eventUsbDeviceControlRequest headerAsked = .value () headerSent ∧
      headerSent.vars.myBuffer.toList = headerOf headerAsked.board.cartridge ∧
      headerAsked.board.cartridge romFlags 0x7FFEF0#23 = (0xF0#8, 0x15#8) ∧
      noSelect headerSent.board.flagLatch = true ∧ headerSent.vars.curVueState = .write := by
  have before : noSelect headerAsked.board.flagLatch = false ∧
      headerAsked.vars.curVueState = .write := by decide +kernel
  have returned : eventUsbDeviceControlRequest headerAsked = .value () headerSent :=
    Exit.eq_value (by decide +kernel)
  have rom : headerAsked.board.cartridge romFlags 0x7FFEF0#23 = (0xF0#8, 0x15#8) := by
    decide +kernel
  have board : headerAsked.board = upperWorld.board := by rw [headerAsked]
  have vars : headerAsked.vars = upperWorld.vars := by rw [headerAsked]
  have read := (header_read wordStart_started upperInputs (w := upperWorld) rfl board vars
    (by decide +kernel)).of_value returned
  refine ⟨before.1, before.2, returned, read.bytes, rom, read.deselected,
    read.state.trans before.2⟩

end VueCartReader
