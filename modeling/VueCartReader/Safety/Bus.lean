import VueCartReader.Device.Loop

/-!
# Bus safety of the firmware

Every port write of every run is safe. The invariant that carries this through the
main loop (`BusInvariant`) says what a bus routine needs wherever it is called: the
board rests, the flags that the header reader and the bulk routines work with select
at most one chip, and what has been written so far was safe.
-/

set_option autoImplicit false

namespace VueCartReader

open Program

structure BusInvariant (w : World) : Prop where
  ready : w.BusReady
  bulk : w.vars.bulkAccessFunc ≠ none → oneSelect (flagBits w.vars.bulkAddress) = true
  log : ∀ e ∈ w.log, e.BusSafe

/-- The code keeps the bus safe, returned or cut. -/
abbrev KeepsBus {α : Type} (m : Fw α) : Prop := Stays BusInvariant BusInvariant m

/-! ## Code that leaves the bus alone -/

/-- Serving a control request keeps the bus safe. -/
theorem busInvariant_of_served {s t : World} (served : Served s t) (held : BusInvariant s) :
    BusInvariant t := by
  obtain ⟨reset, address, myBuffer, vars⟩ := served.vars
  obtain ⟨new, log, -, -, safe⟩ := served.log
  refine ⟨served.ready held.ready, ?_, fun e member => ?_⟩
  · rw [vars]
    exact held.bulk
  · rw [log] at member
    rcases List.mem_append.mp member with late | early
    · exact safe held.ready e late
    · exact held.log e early

theorem keepsBus_of_framed {α : Type} {m : Fw α} (framed : Moves (Framed OfUsb) m) :
    KeepsBus m :=
  .of_moves framed (fun _ _ framed => busInvariant_of_served (Served.of_framed framed)) fun _ => id

theorem usbUsbTask_keepsBus : KeepsBus usbUsbTask :=
  .of_moves usbUsbTask_served (fun _ _ => busInvariant_of_served) fun _ => id

/-- Events other than port writes, and changes of variables that do not concern the
bus. -/
theorem keepsBus_of_vars {f : World → World} (board : ∀ w, (f w).board = w.board)
    (address : ∀ w, (f w).vars.address = w.vars.address)
    (bulk : ∀ w, (f w).vars.bulkAddress = w.vars.bulkAddress ∧
      (f w).vars.bulkAccessFunc = w.vars.bulkAccessFunc)
    (log : ∀ w, (f w).log = w.log ∨ ∃ e : Event, e.BusSafe ∧ (f w).log = e :: w.log) :
    KeepsBus (modify f) := by
  refine Stays.modify fun w held => ⟨⟨?_, ?_, ?_⟩, ?_, fun e member => ?_⟩
  · rw [board]
    exact held.ready.resting
  · rw [board]
    exact held.ready.selects
  · rw [address]
    exact held.ready.header
  · rw [(bulk w).1, (bulk w).2]
    exact held.bulk
  · rcases log w with same | ⟨new, safe, more⟩
    · rw [same] at member
      exact held.log e member
    · rw [more] at member
      rcases List.mem_cons.mp member with rfl | early
      · exact safe
      · exact held.log e early

theorem note_keepsBus {e : Event} (safe : Event.BusSafe e) : KeepsBus (note e) :=
  keepsBus_of_vars (fun _ => rfl) (fun _ => rfl) (fun _ => ⟨rfl, rfl⟩)
    fun _ => .inr ⟨e, safe, rfl⟩

theorem onVars_keepsBus {f : Vars → Vars} (address : ∀ v, (f v).address = v.address)
    (bulk : ∀ v, (f v).bulkAddress = v.bulkAddress ∧ (f v).bulkAccessFunc = v.bulkAccessFunc) :
    KeepsBus (onVars f) :=
  keepsBus_of_vars (fun _ => rfl) (fun w => address w.vars) (fun w => bulk w.vars)
    fun _ => .inl rfl

theorem undefinedBehaviour_keepsBus {α : Type} :
    KeepsBus (undefinedBehaviour : Fw α) :=
  (note_keepsBus (e := .undefined) trivial).bind fun _ => .stop fun _ => id

/-! ## Bus routines -/

/-- Bus code that is safe from every board at rest keeps the bus safe. -/
theorem onBus_keepsBus (by_ : Actor) {f : Rig → Rig}
    (run : ∀ b : Board, b.Resting → oneSelect b.flagLatch = true →
      SafeRun b (f ⟨b, []⟩) ∧ oneSelect (f ⟨b, []⟩).board.flagLatch = true) :
    KeepsBus (onBus by_ f) := by
  refine Stays.modify fun w held => ?_
  obtain ⟨safeRun, selects⟩ := run w.board held.ready.resting held.ready.selects
  refine ⟨⟨safeRun.resting, selects, held.ready.header⟩, held.bulk, fun e member => ?_⟩
  rcases List.mem_append.mp member with late | early
  · exact safeRun.portEvents_safe by_ held.ready.safe e late
  · exact held.log e early

theorem writeFull_keepsBus (by_ : Actor) {address : BitVec 32}
    (selects : oneSelect (flagBits address) = true) :
    KeepsBus (onBus by_ (vueWriteAddressFull address)) :=
  onBus_keepsBus by_ fun b rest old => by
    obtain ⟨run, board⟩ := vueWriteAddressFull_run rest old selects
    exact ⟨run, by rw [board]; exact selects⟩

/-- A routine called on a chunk keeps the bus safe. -/
theorem bulkAccess_keepsBus {length : BitVec 32} (inside : (length.setWidth 8).toNat ≤ 64) :
    KeepsBus (bulkAccess length) := by
  intro w held
  cases chosen : w.vars.bulkAccessFunc with
  | none =>
      simp only [bulkAccess, wp_bind, wp_state, chosen]
      exact undefinedBehaviour_keepsBus w held
  | some func =>
      obtain ⟨a, progress, run⟩ := bulkAccess_eq inside held.ready.resting chosen
      have selects : oneSelect (flagBits w.vars.bulkAddress) = true := held.bulk (by simp [chosen])
      have safeRun := progress.run held.ready.selects selects
      rw [wp_of_value run]
      refine ⟨⟨safeRun.resting, ?_, held.ready.header⟩, fun _ => ?_, fun e member => ?_⟩
      · show oneSelect a.rig.board.flagLatch = true
        rcases progress.flagLatch with eq | eq
        · rw [eq]
          exact held.ready.selects
        · rw [eq]
          exact selects
      · show oneSelect (flagBits a.address) = true
        rw [progress.running, flagBits_iterate]
        exact selects
      · rcases List.mem_append.mp member with late | early
        · exact safeRun.portEvents_safe .task held.ready.safe e late
        · rcases List.mem_cons.mp early with rfl | before
          · trivial
          · exact held.log e before

/-- The flags of a target select one chip at most. -/
theorem flagBits_target_selects {target : BitVec 32} (known : target ∈ targetSelectMap)
    (address : BitVec 32) :
    oneSelect (flagBits ((target ||| address) &&& ~~~vueCartReaderNStatus)) = true := by
  simp only [targetSelectMap, List.mem_cons, List.not_mem_nil, or_false] at known
  rcases known with rfl | rfl | rfl <;> simp [oneSelect, flagBits]

theorem flagBits_or_mask (address : BitVec 32) :
    noSelect (flagBits (address ||| vueFlagMask)) = true := by
  simp [noSelect, flagBits]

/-- A transfer begins with a full write of its start address. -/
theorem beginTransfer_keepsBus (func : Byte → AccessFunc) :
    KeepsBus (beginTransfer func) := by
  refine .bind .state fun w => ?_
  dsimp only
  cases found : targetSelectMap[w.vars.curCommand.targetRegion.toNat]? with
  | none => exact undefinedBehaviour_keepsBus
  | some target =>
      have selects := flagBits_target_selects (List.mem_of_getElem? found)
        (w.vars.curCommand.address >>> 1)
      have chosen : KeepsBus (onVars fun v =>
          { v with
            bulkAccessFunc := some (func v.curCommand.accessMode)
            bulkAddress := (target ||| (w.vars.curCommand.address >>> 1)) &&&
              ~~~vueCartReaderNStatus }) :=
        Stays.modify fun s held =>
          ⟨⟨held.ready.resting, held.ready.selects, held.ready.header⟩, fun _ => selects, held.log⟩
      refine chosen.bind fun _ => ?_
      exact (writeFull_keepsBus .task selects).bind fun _ =>
        onVars_keepsBus (fun _ => rfl) fun _ => ⟨rfl, rfl⟩

theorem deselect_keepsBus : KeepsBus deselect :=
  (note_keepsBus (e := .finish) trivial).bind fun _ => .bind .state fun _ =>
    writeFull_keepsBus .task (oneSelect_of_noSelect (flagBits_or_mask _))

/-! ## Streams and tasks -/

theorem enterIdle_keepsBus : KeepsBus enterIdle :=
  onVars_keepsBus (fun _ => rfl) fun _ => ⟨rfl, rfl⟩

theorem shortenCommand_keepsBus (length : BitVec 32) :
    KeepsBus (shortenCommand length) :=
  onVars_keepsBus (fun _ => rfl) fun _ => ⟨rfl, rfl⟩

theorem endpointRead8_keepsBus : KeepsBus endpointRead8 := by
  refine .bind .state fun w => ?_
  split
  · exact (keepsBus_of_framed (onUsb_framed _)).bind fun _ =>
      (note_keepsBus (e := .take _) trivial).bind fun _ => .pure _
  · exact .pure _

theorem endpointWrite8_keepsBus (x : Byte) : KeepsBus (endpointWrite8 x) :=
  (keepsBus_of_framed (onUsb_framed _)).bind fun _ => note_keepsBus (e := .give x) trivial

theorem stream_keepsBus {d : Direction} (transfer : ∀ i, KeepsBus (d.transferByte i))
    (clear : KeepsBus d.clearEndpoint) (length : Nat) : KeepsBus (stream d length) :=
  Stays.stream (fun _ => id) (fun e ok => note_keepsBus (by cases e <;> trivial))
    (keepsBus_of_framed endpointWaitUntilReady_framed)
    (keepsBus_of_framed endpointIsReadWriteAllowed_framed) transfer clear usbUsbTask_keepsBus length

theorem readStream_keepsBus (store : Nat → Byte → Vars → Vars)
    (address : ∀ i x v, (store i x v).address = v.address)
    (bulk : ∀ i x v, (store i x v).bulkAddress = v.bulkAddress ∧
      (store i x v).bulkAccessFunc = v.bulkAccessFunc) (length : Nat) :
    KeepsBus (stream (readStream store) length) :=
  stream_keepsBus
    (fun i => endpointRead8_keepsBus.bind fun x => onVars_keepsBus (address i x) (bulk i x))
    (keepsBus_of_framed (endpointClearOut_framed _)) length

theorem writeStream_keepsBus (load : Nat → Vars → Byte) (length : Nat) :
    KeepsBus (stream (writeStream load) length) :=
  stream_keepsBus (d := writeStream load)
    (fun i => Stays.state.bind fun w => endpointWrite8_keepsBus (load i w.vars))
    (keepsBus_of_framed endpointClearIn_framed) length

/-- A chunk fits in the buffer. -/
theorem chunkLength_le (v : Vars) : (chunkLength v).toNat ≤ 64 := by
  unfold chunkLength
  split
  · rename_i short
    have := BitVec.lt_def.mp short
    simp only [BitVec.toNat_ofNat] at this
    omega
  · decide

/-- A chunk fits into the buffer. -/
theorem chunkLength_inside (v : Vars) : ((chunkLength v).setWidth 8).toNat ≤ 64 := by
  rw [BitVec.toNat_setWidth]
  exact (Nat.mod_le _ _).trans (chunkLength_le v)

theorem vueBulkWriteTask_keepsBus : KeepsBus vueBulkWriteTask := by
  have finish : KeepsBus finishWrite :=
    deselect_keepsBus.bind fun _ => enterIdle_keepsBus
  refine .bind .state fun w => .ite (fun _ => beginTransfer_keepsBus _) fun _ =>
    .ite (fun _ => ?_) fun _ => finish
  have received := readStream_keepsBus storeBuffer (fun _ _ _ => rfl) fun _ _ _ => ⟨rfl, rfl⟩
  refine (received _).bind fun _ => .ite (fun _ => ?_) fun _ => .pure _
  exact (bulkAccess_keepsBus (chunkLength_inside _)).bind fun _ =>
    (shortenCommand_keepsBus _).bind fun _ => .bind .state fun _ => .whenever fun _ => finish

theorem vueBulkReadTask_keepsBus : KeepsBus vueBulkReadTask := by
  have finish : KeepsBus finishRead :=
    deselect_keepsBus.bind fun _ => (keepsBus_of_framed taskClearIn_framed).bind fun _ =>
      enterIdle_keepsBus
  refine .bind .state fun w => .ite (fun _ => beginTransfer_keepsBus _) fun _ =>
    .ite (fun _ => ?_) fun _ => finish
  refine (bulkAccess_keepsBus (chunkLength_inside _)).bind fun _ =>
    (writeStream_keepsBus _ _).bind fun _ => .ite (fun _ => ?_) fun _ => .pure _
  exact (shortenCommand_keepsBus _).bind fun _ => .bind .state fun _ => .whenever fun _ => finish

theorem vueCommandTask_keepsBus : KeepsBus vueCommandTask := by
  have received := readStream_keepsBus storeCommand (fun _ _ _ => rfl) fun _ _ _ => ⟨rfl, rfl⟩
  refine .bind .state fun w => (note_keepsBus (e := .command _) trivial).bind fun _ =>
    (received 32).bind fun _ => .ite (fun _ => ?_) fun _ => .pure _
  refine .bind (onVars_keepsBus (fun _ => rfl) fun _ => ⟨rfl, rfl⟩) fun _ => .bind .state fun c =>
    .ite (fun _ => .ite (fun _ => note_keepsBus (e := .ignore _) trivial) fun _ => ?_) fun _ =>
      (note_keepsBus (e := .reject _) trivial).bind fun _ => keepsBus_of_framed refuseOut_framed
  refine (note_keepsBus (e := .accept _) trivial).bind fun _ =>
    .bind (onVars_keepsBus (fun _ => rfl) fun _ => ⟨rfl, rfl⟩) fun _ => .bind .state fun s => ?_
  split
  · exact vueBulkReadTask_keepsBus
  · exact vueBulkWriteTask_keepsBus
  · exact .pure _

/-- Both halves of `VUE_Task` keep the bus safe. -/
theorem vueTask_keepsBus : KeepsBus vueTask := by
  have framed (s t : World) (framed : Framed OfUsb s t) : BusInvariant s → BusInvariant t :=
    busInvariant_of_served (Served.of_framed framed)
  have keep : EndpointsKeep BusInvariant BusInvariant :=
    .of_framed (fun e ok => note_keepsBus (by cases e <;> trivial)) framed fun _ => id
  exact vueTask_stays keep <| keep.tasks_of_framed framed (fun _ => id)
    (fun s held _ _ => vueCommandTask_keepsBus s held)
    (fun s held _ _ => vueBulkWriteTask_keepsBus s held)
    fun s held _ _ => vueBulkReadTask_keepsBus s held

/-! ## The main loop -/

/-- The reset block may run at any time. -/
theorem resetBlock_keepsBus : KeepsBus resetBlock := by
  have writes : KeepsBus (onBus .main writeDefaultState) :=
    onBus_keepsBus .main fun b rest old => by
      obtain ⟨run, board⟩ := writeDefaultState_run rest old
      refine ⟨run, ?_⟩
      rw [board]
      show oneSelect (flagBits allFlags) = true
      decide
  have reset (address : Nat) := keepsBus_of_framed (endpointResetEndpoint_framed .main address)
  have clear (address : Nat) := keepsBus_of_framed (clearEndpointStall_framed address)
  have restored : KeepsBus restoreDefaultState :=
    writes.bind fun _ => enterIdle_keepsBus.bind fun _ => (reset _).bind fun _ =>
      (note_keepsBus (e := .outReset) trivial).bind fun _ => (reset _).bind fun _ =>
        (clear _).bind fun _ => (clear _).bind fun _ =>
          keepsBus_of_framed endpointAbortPendingIn_framed
  exact (note_keepsBus (e := .resetBegin) trivial).bind fun _ => restored.bind fun _ =>
    .bind (onVars_keepsBus (fun _ => rfl) fun _ => ⟨rfl, rfl⟩) fun _ =>
      note_keepsBus (e := .resetEnd) trivial

theorem mainLoop_keepsBus (inputs : List Input) : KeepsBus (mainLoop inputs) :=
  mainLoop_stays inputs
    (fun _ _ _ held => ⟨⟨⟨held.ready.resting.low, held.ready.resting.idle⟩,
      held.ready.selects, held.ready.header⟩, held.bulk, held.log⟩)
    (mainIteration_stays usbUsbTask_keepsBus vueTask_keepsBus
      fun s held _ => resetBlock_keepsBus s held)

theorem World.started_board (cartridge : Cartridge) (lowLatch : BitVec 15)
    (flagLatch pageLatch : Byte) (serialString : List Byte) :
    (World.started cartridge lowLatch flagLatch pageLatch serialString).board =
      (boardInit cartridge lowLatch flagLatch pageLatch).addressed allFlags :=
  (vueWriteAddressFull_spec (r := ⟨boardInit cartridge lowLatch flagLatch pageLatch, []⟩)
    (boardInit_resting cartridge lowLatch flagLatch pageLatch).low allFlags).choose_spec.2.1

/-- After power-up the bus is safe. -/
theorem Started.busInvariant {w : World} (started : Started w) : BusInvariant w := by
  obtain ⟨cartridge, lowLatch, flagLatch, pageLatch, serialString, rfl⟩ := started
  have rest := boardInit_resting cartridge lowLatch flagLatch pageLatch
  have board := World.started_board cartridge lowLatch flagLatch pageLatch serialString
  refine ⟨⟨?_, ?_, ?_⟩, fun chosen => absurd rfl chosen, List.forall_mem_nil _⟩
  · rw [board]
    exact rest.addressed allFlags
  · rw [board]
    show oneSelect (flagBits allFlags) = true
    decide
  · show allFlags &&& vueFlagMask = vueFlagMask
    decide

/-- **Bus safety at every instant.** In every run of the main loop, finished or cut,
after every write to a port register: a low `nOE` finds both AD ports released and
the write strobes high, `PL` is high only between strobes, at most one chip is
selected in the high latch, and the latches do not move during a strobe. -/
theorem mainLoop_busSafe {start : World} (started : Started start) (inputs : List Input)
    {by_ : Actor} {before after : Board}
    (written : Event.port by_ before after ∈ (mainLoop inputs start).state.log) :
    (after.nOE = false → after.adl.dir = 0x00#8 ∧ after.adh.dir = 0x00#8) ∧
      (after.nOE = false → after.nUWR = true ∧ after.nLWR = true) ∧
      (after.pl = true → after.Idle) ∧
      (before.strobing = true → after.strobing = true → after.latches = before.latches) ∧
      oneSelect after.flagLatch = true := by
  have held := (mainLoop_keepsBus inputs).exit (fun _ => id) started.busInvariant
  obtain ⟨safe, still⟩ : after.Safe ∧ _ := held.log _ written
  exact ⟨safe.released, safe.apart, safe.load, still, safe.selects⟩

/-- A port write after which the read strobe is low. -/
def Event.readsBus : Event → Bool
  | .port _ _ after => !after.nOE
  | _ => false

/-- The header is read in the middle of a write: the last strobe of that reading. -/
theorem mainLoop_busSafe_header :
    ∃ by_ before after, .port by_ before after ∈ (wordEnd (some readHeaderTransfer)).log ∧
      after.nOE = false ∧ (after.adl.dir = 0x00#8 ∧ after.adh.dir = 0x00#8) ∧
      (after.nUWR = true ∧ after.nLWR = true) ∧ after.pl = false ∧
      oneSelect after.flagLatch = true := by
  have found : (wordEnd (some readHeaderTransfer)).log[59]?.map Event.readsBus = some true := by
    decide +kernel
  obtain ⟨e, entry, low⟩ := Option.map_eq_some_iff.mp found
  cases e with
  | port by_ before after =>
      have low : after.nOE = false := by simpa [Event.readsBus] using low
      have written := List.mem_of_getElem? entry
      obtain ⟨released, apart, load, -, selects⟩ := mainLoop_busSafe wordStart_started
        (wordInputs (some readHeaderTransfer)) written
      refine ⟨by_, before, after, written, low, released low, apart low, ?_, selects⟩
      by_contra high
      rw [Bool.not_eq_false] at high
      exact Bool.noConfusion ((load high).1.symm.trans low)
  | _ => cases low

end VueCartReader
