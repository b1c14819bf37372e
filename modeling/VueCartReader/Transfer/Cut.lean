import VueCartReader.Transfer.Write

/-!
# How the host may cut its data

The result of a write is the same for every way of cutting the data into packets in which no
packet reaches over the end of a chunk of 64 bytes (`write_stores_inChunks`). At the end of a
chunk the firmware frees the bank, whatever is left in it: of a packet that reaches further
the rest is dropped, and the write waits for bytes that never come (`write_drops`).
-/

set_option autoImplicit false

namespace VueCartReader

open Program

section Stores

variable {packet : Vector Byte 32} {data : List Byte}

/-- **A write does not depend on how its data is cut into packets, as long as no packet
reaches over the end of a chunk**: its cycles are those of any write of the data in full
packets, in whatever run, and no byte is dropped. -/
theorem write_stores_inChunks {start start' : World} (started : Started start)
    (started' : Started start') (inputs inputs' : List Input) (write : WholeWrite packet)
    (size : data.length = (lengthOf packet).toNat) :
    (∀ later past later' past', (mainLoop inputs start).state.log = later ++ past →
      (mainLoop inputs' start').state.log = later' ++ past' →
      ChunkSession packet data past → FullSession packet data past' →
      .finish ∈ sinceAccept past → .finish ∈ sinceAccept past' →
      cyclesOf (sinceAccept past) = cyclesOf (sinceAccept past')) ∧
    StoresExactly packet data (ChunkSession packet data) start inputs := by
  have cut := storesExactly_of_inChunks started inputs write size
  have full := storesExactly_of_inChunks started' inputs' write size
  refine ⟨fun later past later' past' log log' session session' finished finished' => ?_, cut⟩
  rw [cut.complete later past log session finished,
    full.complete later' past' log' session'.inChunks finished']

end Stores

/-! ## Two packets of one byte -/

/-- A command to write one word, and the word in two packets, or in one. -/
theorem write_stores_inChunks_word :
    cyclesOf (sinceAccept (wordEnd none).log) =
      cyclesOf (sinceAccept (storeEnd 2#32 wordData).log) := by
  have session : ChunkSession (storePacket 2#32) wordData.val (wordEnd none).log ∧
      .finish ∈ sinceAccept (wordEnd none).log := by decide +kernel
  have session' : FullSession (storePacket 2#32) wordData.val (storeEnd 2#32 wordData).log ∧
      .finish ∈ sinceAccept (storeEnd 2#32 wordData).log := by decide +kernel
  have write : WholeWrite (storePacket 2#32) :=
    ⟨by decide +kernel, by decide +kernel, .inl (by decide +kernel)⟩
  have size : wordData.val.length = (lengthOf (storePacket 2#32)).toNat := by decide +kernel
  have log : (mainLoop (wordInputs none) wordStart).state.log = [] ++ (wordEnd none).log :=
    (List.nil_append _).symm
  exact (write_stores_inChunks wordStart_started wordStart_started (wordInputs none)
    (storeInputs 2#32 wordData) write size).1 [] _ [] _ log (storeEnd_log _ _) session.1 session'.1
    session.2 session'.2

/-! ## Quiet moments -/

section Quiet

variable {w : World} {n : Nat} {C : World → Prop}

theorem moment_quiet {Q : Moment → World → Prop} (script : w.script = quietMoments (n + 1)) :
    wp moment Q C w ↔ Q ⟨[], false⟩ { w with script := quietMoments n } := by
  rw [wp, moment, script]
  rfl

theorem endpointIsInReady_quiet {Q : Bool → World → Prop}
    (script : w.script = quietMoments (n + 1)) :
    wp endpointIsInReady Q C w ↔ Q w.usb.inReady { w with script := quietMoments n } := by
  rw [endpointIsInReady, wp_bind, moment_quiet script]
  rfl

theorem endpointIsReadWriteAllowed_quiet {Q : Bool → World → Prop}
    (script : w.script = quietMoments (n + 1)) :
    wp endpointIsReadWriteAllowed Q C w ↔
      Q w.usb.readWriteAllowed { w with script := quietMoments n } := by
  rw [endpointIsReadWriteAllowed, wp_bind, moment_quiet script, if_neg Bool.false_ne_true]
  rfl

theorem endpointClearOut_quiet {Q : Unit → World → Prop} {rest : List Byte}
    (script : w.script = quietMoments (n + 1)) (selected : w.usb.selected = vueCartReaderOutEpAddr)
    (bank : w.usb.outBank = some rest) :
    wp (endpointClearOut .task) Q C w ↔
      Q () { w with usb := { w.usb with outBank := none }, script := quietMoments n
                    log := .free .task rest :: w.log } := by
  rw [endpointClearOut, wp_bind, moment_quiet script, wp_bind, wp_state, wp_whenever]
  simp only [selected, true_implies, not_true, false_implies, and_true, freeOut, wp_modify, bank]

/-- While there is nothing to send, `VUE_Task` looks at the IN endpoint and leaves it alone. -/
theorem serveIn_quiet {Q : Unit → World → Prop} (script : w.script = quietMoments (n + 3))
    (free : w.usb.inBusy = false) (stalled : w.usb.inStalled = false) (none_ : w.usb.inBank = [])
    (unread : w.vars.curVueState ≠ .read) :
    wp serveIn Q C w ↔
      Q () { w with usb := { w.usb with selected := vueCartReaderInEpAddr }
                    script := quietMoments n, log := .inReady w.vars.curVueState :: w.log } := by
  have allowed :
      ({ w.usb with selected := vueCartReaderInEpAddr } : Usb).readWriteAllowed = true := by
    simp [Usb.readWriteAllowed, free, stalled, none_]
  have ready : ({ w.usb with selected := vueCartReaderInEpAddr } : Usb).inReady = true := by
    simp [Usb.inReady, free]
  simp only [serveIn, endpointSelectEndpoint, onUsb, wp_bind, wp_modify]
  rw [endpointIsInReady_quiet (n := n + 2) (by exact script), ready, if_pos rfl]
  simp only [note, wp_bind, wp_state, wp_modify, flushIn]
  rw [endpointIsReadWriteAllowed_quiet (n := n + 1) rfl, allowed, if_pos rfl, wp_pure, if_pos rfl]
  simp only [wp_bind, wp_state, wp_whenever, unread, false_implies, not_false_eq_true,
    true_implies, true_and]
  rw [endpointIsReadWriteAllowed_quiet (n := n) rfl, allowed]
  simp

end Quiet

/-! ## A packet that reaches over the end of a chunk -/

/-- The command to write 66 bytes, and its data: a packet of two bytes, and one of 64. -/
def crossFirst : List Input :=
  [configuringInput,
    { packetInput ⟨commandBytes 0#8 0#8 1#8 2#32 66#32, by simp [commandBytes]⟩ 46 with
      setups := [none, none] }]

def crossInput : Input :=
  ⟨plainCartridge,
    ⟨[], false⟩ :: ⟨[.sendOut ⟨List.replicate 2 1#8, by decide⟩], false⟩ ::
      (quietMoments 6 ++ ⟨[.sendOut ⟨List.replicate 64 2#8, by decide⟩], false⟩ ::
        quietMoments 66),
    [none, none]⟩

def crossData : List Byte := List.replicate 2 1#8 ++ List.replicate 64 2#8

def crossBefore : World := (mainLoop crossFirst wordStart).state

def crossPolled : World := (usbUsbTask (crossBefore.offer crossInput)).state

def crossFound : World := (lookForOut crossPolled).state

def crossNoted : World := { crossFound with log := .outReceived .write :: crossFound.log }

/-- The world in which the first 64 bytes have been taken. -/
def crossTaken : World := (stream (readStream storeBuffer) 64 crossNoted).state

theorem eq_quietMoments {script : List Moment}
    (quiet : ∀ m ∈ script, m.acts.isEmpty = true ∧ m.refused = false) :
    script = quietMoments script.length := by
  refine List.eq_replicate_of_mem fun m member => ?_
  obtain ⟨none_, allowed⟩ := quiet m member
  cases m with
  | mk acts refused =>
      obtain rfl : acts = [] := List.isEmpty_iff.mp none_
      obtain rfl : refused = false := allowed
      rfl

theorem crossTaken_script : crossTaken.script = quietMoments 4 := by
  have quiet : ∀ m ∈ crossTaken.script, m.acts.isEmpty = true ∧ m.refused = false := by
    decide +kernel
  have four : crossTaken.script.length = 4 := by decide +kernel
  rw [eq_quietMoments quiet, four]

theorem crossTaken_resting : crossTaken.board.Resting :=
  ⟨by decide +kernel, by decide +kernel, by decide +kernel, by decide +kernel⟩

/-- The half of `VUE_Task` for the OUT endpoint looks for a packet first. -/
theorem serveOut_eq : serveOut = lookForOut >>= fun found =>
    if found then do
      let s := (← state).vars.curVueState
      note (.outReceived s)
      outTask s
      note (.operate .clearOut (← state).usb.selected)
      endpointClearOut .task
    else pure () := by
  rw [serveOut, lookForOut]
  rfl

/-- A round in which a full chunk is taken and more of the write is to come drops what is left
in the bank. -/
theorem mainLoop_drops {before polled found taken : World} {i : Input} {func : AccessFunc}
    {rest : List Byte} (served : usbUsbTask (before.offer i) = .value () polled)
    (configured : polled.usb.deviceState = .configured) (clear : polled.vars.bulkReset = 0#32)
    (looked : lookForOut polled = .value true found) (writing : found.vars.curVueState = .write)
    (phase : found.vars.curCmdPhase = 1#32) (chunk : chunkLength found.vars = 64#32)
    (streamed : stream (readStream storeBuffer) 64
      { found with log := .outReceived .write :: found.log } = .value true taken)
    (chosen : taken.vars.bulkAccessFunc = some func) (resting : taken.board.Resting)
    (state : taken.vars.curVueState = .write) (length : taken.vars.curCommand.length ≠ 64#32)
    (selected : taken.usb.selected = vueCartReaderOutEpAddr) (bank : taken.usb.outBank = some rest)
    (free : taken.usb.inBusy = false) (stalled : taken.usb.inStalled = false)
    (none_ : taken.usb.inBank = []) (script : taken.script = quietMoments 4) :
    ∃ w trace, mainLoop [i] before = .value () w ∧ w.vars.curVueState = .write ∧
      w.usb.outBank = none ∧
      w.log =
        [.inReady .write, .free .task rest, .operate .clearOut vueCartReaderOutEpAddr] ++
          (portEvents .task taken.board trace ++ .access func 64#32 :: taken.log) := by
  obtain ⟨a, -, access⟩ :=
    bulkAccess_eq (show ((64#32).setWidth 8).toNat ≤ 64 by decide) resting chosen
  obtain ⟨used, eq⟩ : ∃ u, u = taken.accessed func 64#32 a := ⟨_, rfl⟩
  rw [← eq] at access
  replace state : used.vars.curVueState = .write := by rw [eq]; exact state
  replace length : used.vars.curCommand.length - 64#32 ≠ 0#32 := by
    rw [eq]
    exact fun none_ => length (sub_eq_zero.mp none_)
  replace selected : used.usb.selected = vueCartReaderOutEpAddr := by rw [eq]; exact selected
  replace bank : used.usb.outBank = some rest := by rw [eq]; exact bank
  replace free : used.usb.inBusy = false := by rw [eq]; exact free
  replace stalled : used.usb.inStalled = false := by rw [eq]; exact stalled
  replace none_ : used.usb.inBank = [] := by rw [eq]; exact none_
  replace script : used.script = quietMoments 4 := by rw [eq]; exact script
  have unread : used.vars.curVueState ≠ .read := by
    rw [state]
    exact nofun
  have run : wp (mainLoop [i])
      (fun _ t => t.vars.curVueState = .write ∧ t.usb.outBank = none ∧
        t.log = [.inReady .write, .free .task rest, .operate .clearOut vueCartReaderOutEpAddr] ++
          used.log) (fun _ => False) before := by
    simp only [mainLoop, mainIteration, wp_bind, wp_modify]
    rw [wp_of_value served]
    simp only [vueTask, wp_bind, wp_state, configured, clear, ne_eq, not_true, if_false]
    rw [serveOut_eq, wp_bind, wp_of_value looked, if_pos rfl]
    simp only [note, wp_bind, wp_state, wp_modify, writing, outTask, vueBulkWriteTask, phase, chunk]
    rw [if_neg (by decide), if_pos trivial, wp_bind, show (64#32).toNat = 64 from rfl,
      wp_of_value streamed, if_pos rfl, wp_bind, wp_of_value access]
    simp only [shortenCommand, onVars, wp_bind, wp_state, wp_modify, wp_whenever, length,
      false_implies, not_false_eq_true, true_implies, true_and]
    rw [endpointClearOut_quiet (n := 3) (by exact script) (by exact selected) (by exact bank),
      serveIn_quiet (n := 0) rfl (by exact free) (by exact stalled) (by exact none_)
        (by exact unread)]
    simp [clear, state, selected]
  obtain ⟨_, w, returned, writes, dropped, log⟩ := exists_of_wp run
  rw [eq] at log
  exact ⟨w, a.rig.seen, returned, writes, dropped, log⟩

/-- What leaves a session as it is. -/
structure Event.Silent (e : Event) : Prop where
  accepted : e.accepted = none
  sent : e.sent = none
  calm : e.disturbs = false
  sound : e.failed = false
  allowed : e ≠ .refuse

theorem CutSession.extended {packet : Vector Byte 32} {data : List Byte} {log new : List Event}
    (session : CutSession packet data log) (silent : ∀ e ∈ new, e.Silent) :
    CutSession packet data (new ++ log) := by
  have none_ : ∀ e ∈ new, e.accepted = none := fun e member => (silent e member).accepted
  have old := session.session
  refine ⟨⟨?_, ?_, ?_, ?_, ?_⟩, ?_⟩
  · rw [acceptedCommand_append none_]
    exact old.accepted
  · rw [heardOf, beforeAccept_append none_]
    exact old.heard
  · rw [sinceAccept_append none_]
    exact Calm.append.mpr ⟨fun e member => (silent e member).calm, old.calm⟩
  · rw [sinceAccept_append none_]
    exact Sound.append.mpr ⟨fun e member => (silent e member).sound, old.sound⟩
  · rw [sinceAccept_append none_, List.mem_append, not_or]
    exact ⟨fun member => (silent _ member).allowed rfl, old.unrefused⟩
  · rw [sinceAccept_append none_, packetsOf, occurrences_append,
      occurrences_eq_nil Event.sent fun e member => (silent e member).sent, List.append_nil]
    exact session.cut

/-- **Of a packet that reaches over the end of a chunk the rest is dropped**, and the write
goes on without it. -/
theorem write_drops :
    ¬ ∀ (start w : World) (inputs : List Input) (packet : Vector Byte 32) (data : List Byte),
      Started start → WholeWrite packet → data.length = (lengthOf packet).toNat →
      mainLoop inputs start = .value () w → CutSession packet data w.log →
      w.vars.curVueState = .write →
      sentOf (sinceAccept w.log) = takesOf (sinceAccept w.log) ++ w.usb.outBank.getD [] := by
  intro claim
  have first : mainLoop crossFirst wordStart = .value () crossBefore :=
    Exit.eq_value (by decide +kernel)
  have served : usbUsbTask (crossBefore.offer crossInput) = .value () crossPolled :=
    Exit.eq_value (by decide +kernel)
  have looked : lookForOut crossPolled = .value true crossFound := Exit.eq_value (by decide +kernel)
  have streamed : stream (readStream storeBuffer) 64 crossNoted = .value true crossTaken :=
    Exit.eq_value (by decide +kernel)
  have chosen : crossTaken.vars.bulkAccessFunc = some .vueWriteData16bit := by decide +kernel
  have bank : crossTaken.usb.outBank = some [2#8, 2#8] := by decide +kernel
  obtain ⟨w, trace, returned, writes, dropped, log⟩ :=
    mainLoop_drops served (by decide +kernel) (by decide +kernel) looked (by decide +kernel)
      (by decide +kernel) (by decide +kernel) streamed chosen crossTaken_resting
      (by decide +kernel) (by decide +kernel) (by decide +kernel) bank (by decide +kernel)
      (by decide +kernel) (by decide +kernel) crossTaken_script
  rw [← mainLoop_append first] at returned
  have session : CutSession (storePacket 66#32) crossData crossTaken.log := by decide +kernel
  have write : WholeWrite (storePacket 66#32) :=
    ⟨by decide +kernel, by decide +kernel, .inl (by decide +kernel)⟩
  have size : crossData.length = (lengthOf (storePacket 66#32)).toNat := by decide +kernel
  obtain ⟨new, eq⟩ : ∃ new, new =
      [.inReady .write, .free .task [2#8, 2#8], .operate .clearOut vueCartReaderOutEpAddr] ++
        (portEvents .task crossTaken.board trace ++ [.access .vueWriteData16bit 64#32]) := ⟨_, rfl⟩
  have grown : w.log = new ++ crossTaken.log := by
    rw [log, eq]
    simp
  have silent : ∀ e ∈ new, e.Silent ∧ e.taken = none := by
    rw [eq]
    intro e member
    rcases List.mem_append.mp member with late | member
    · simp only [List.mem_cons, List.not_mem_nil, or_false] at late
      rcases late with rfl | rfl | rfl <;> exact ⟨⟨rfl, rfl, rfl, rfl, nofun⟩, rfl⟩
    · rcases List.mem_append.mp member with accessed | early
      · obtain ⟨before, after, rfl⟩ := portEvents_kind .task _ _ e accessed
        exact ⟨⟨rfl, rfl, rfl, rfl, nofun⟩, rfl⟩
      · rw [List.mem_singleton.mp early]
        exact ⟨⟨rfl, rfl, rfl, rfl, nofun⟩, rfl⟩
  have none_ : ∀ e ∈ new, e.accepted = none := fun e member => (silent e member).1.accepted
  have kept := claim wordStart w _ _ _ wordStart_started write size returned
    (grown ▸ session.extended fun e member => (silent e member).1) writes
  rw [grown, sinceAccept_append none_, dropped, sentOf_append,
    sentOf_of_none fun e member => (silent e member).1.sent, List.append_nil,
    takesOf_append_of_none (occurrences_eq_nil Event.taken fun e member =>
      (silent e member).2)] at kept
  have lost : sentOf (sinceAccept crossTaken.log) ≠ takesOf (sinceAccept crossTaken.log) := by
    decide +kernel
  exact lost (kept.trans (List.append_nil _))

end VueCartReader
