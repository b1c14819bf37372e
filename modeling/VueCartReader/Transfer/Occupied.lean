import VueCartReader.Transfer.Ledger

/-!
# Which work belongs to a command

What the tasks do to the cartridge and to the host belongs to a command that is being executed
(`executing`), or takes in the bytes of a command (`receiving`), and no reset is due then
(`Belongs`). A command is accepted at the end of a reception, and after 32 bytes of it unless a
stream call has failed.

`Occupied` carries this through the main loop: while the firmware is not idle, a command is
being executed.
-/

set_option autoImplicit false

namespace VueCartReader

open Program

/-! ## Views of the log -/

/-- A command has been accepted, and neither has its transfer ended since nor has a reset block. -/
def executing : List Event → Bool
  | [] => false
  | .accept _ :: _ => true
  | .finish :: _ | .resetEnd :: _ => false
  | _ :: log => executing log

/-- `VUE_Command_Task` has been entered and has judged no command yet. -/
def receiving : List Event → Bool
  | [] => false
  | .command _ :: _ => true
  | .accept _ :: _ | .ignore _ :: _ | .reject _ :: _ | .resetEnd :: _ => false
  | _ :: log => receiving log

/-- By such an event the firmware begins or ends something. -/
def Event.turns : Event → Bool
  | .accept _ | .finish | .resetEnd | .command _ | .ignore _ | .reject _ => true
  | _ => false

/-- What is true of a log stays true while nothing begins or ends. -/
def Lasts (busy : List Event → Bool) : Prop :=
  ∀ new log, (∀ e ∈ new, e.turns = false) → busy (new ++ log) = busy log

theorem executing_lasts : Lasts executing := by
  intro new log same
  refine append_of_cons (fun e still log => ?_) same log
  cases e <;> first | rfl | cases still

theorem receiving_lasts : Lasts receiving := by
  intro new log same
  refine append_of_cons (fun e still log => ?_) same log
  cases e <;> first | rfl | cases still

/-! ## What belongs to a command -/

/-- A bus cycle and a byte for the host belong to a command that is being executed, a byte from
the host to such a command or to one that is being received. -/
structure Belongs (e : Event) (past : List Event) : Prop where
  strobe : e.cycle ≠ none → executing past = true
  given : e.given ≠ none → executing past = true ∧ resetPending past = false
  taken : e.taken ≠ none →
    (receiving past = true ∨ executing past = true) ∧ resetPending past = false
  accepted : e.accepted ≠ none → receiving past = true ∧
    (Sound (sinceCommand past) → (takesOf (sinceCommand past)).length = 32)

/-- An event that moves nothing and accepts nothing. -/
structure Event.Passive (e : Event) : Prop where
  cycle : e.cycle = none
  given : e.given = none
  taken : e.taken = none
  accepted : e.accepted = none

theorem Event.Passive.belongs {e : Event} (passive : e.Passive) (past : List Event) :
    Belongs e past where
  strobe some_ := absurd passive.cycle some_
  given some_ := absurd passive.given some_
  taken some_ := absurd passive.taken some_
  accepted some_ := absurd passive.accepted some_

/-- All that was recorded belongs to a command. -/
structure Owned (w : World) : Prop where
  history : History Belongs w.log

theorem Owned.extended {s t : World} (held : Owned s) {new : List Event}
    (log : t.log = new ++ s.log) (passive : ∀ e ∈ new, e.Passive) : Owned t := by
  refine ⟨?_⟩
  rw [log]
  exact held.history.append_of_forall fun e member past => (passive e member).belongs past

theorem Owned.one {s t : World} (held : Owned s) {e : Event} (log : t.log = e :: s.log)
    (belongs : Belongs e s.log) : Owned t := by
  refine ⟨?_⟩
  rw [log]
  exact ⟨belongs, held.history⟩

/-- Serving requests and looking at endpoints neither moves anything nor begins or ends it. -/
theorem passive_of_control {e : Event} (ok : e.ofControl = true) : e.Passive ∧ e.turns = false := by
  cases e with
  | port actor before after =>
      cases actor with
      | control => exact ⟨⟨rfl, rfl, rfl, rfl⟩, rfl⟩
      | _ => cases ok
  | _ => first | exact ⟨⟨rfl, rfl, rfl, rfl⟩, rfl⟩ | cases ok

theorem passive_of_loop {e : Event} (ok : e.ofLoop = true) : e.Passive ∧ e.turns = false := by
  cases e <;> first | exact ⟨⟨rfl, rfl, rfl, rfl⟩, rfl⟩ | cases ok

theorem passive_of_reset {e : Event} (ok : e.ofReset = true) : e.Passive := by
  cases e with
  | port actor before after =>
      cases actor with
      | main => exact ⟨rfl, rfl, rfl, rfl⟩
      | _ => cases ok
  | _ => first | exact ⟨rfl, rfl, rfl, rfl⟩ | cases ok

theorem portEvents_turns (by_ : Actor) (start : Board) (trace : List Board) :
    ∀ e ∈ portEvents by_ start trace, e.turns = false := by
  intro e member
  obtain ⟨before, after, rfl⟩ := portEvents_kind by_ start trace e member
  rfl

/-- Port accesses that end no cycle. -/
theorem portEvents_passive {start : Board} {trace : List Board}
    (none_ : occurrences Event.cycle (portEvents .task start trace) = []) :
    ∀ e ∈ portEvents .task start trace, e.Passive := by
  intro e member
  have cycle : e.cycle = none := by
    rw [occurrences, List.reverse_eq_nil_iff, List.filterMap_eq_nil_iff] at none_
    exact none_ e member
  obtain ⟨before, after, rfl⟩ := portEvents_kind .task start trace e member
  exact ⟨cycle, rfl, rfl, rfl⟩

theorem vueWriteAddressFull_passive {b : Board} (rest : b.Resting) (address : BitVec 32) :
    ∀ e ∈ portEvents .task b (vueWriteAddressFull address ⟨b, []⟩).seen, e.Passive :=
  portEvents_passive (vueWriteAddressFull_cycles rest address)

/-- The accesses of a chunk belong to the command that is being executed. -/
theorem Owned.accessed {w : World} (held : Owned w) (busy : executing w.log = true)
    (func : AccessFunc) (length : BitVec 32) (a : Access) :
    Owned (w.accessed func length a) ∧ executing (w.accessed func length a).log = true := by
  have log : (w.accessed func length a).log =
      (portEvents .task w.board a.rig.seen ++ [.access func length]) ++ w.log := by
    rw [List.append_assoc]
    rfl
  have same : ∀ e ∈ portEvents .task w.board a.rig.seen ++ [.access func length],
      e.turns = false := by
    intro e member
    rcases List.mem_append.mp member with port | access
    · exact portEvents_turns _ _ _ e port
    · rw [List.mem_singleton.mp access]
      rfl
  refine ⟨?_, by rw [log, executing_lasts _ _ same, busy]⟩
  refine ⟨?_⟩
  rw [log]
  refine held.history.append fun later e earlier split => ?_
  have still : executing (earlier ++ w.log) = true := by
    rw [executing_lasts _ _ fun f member => same f ?_, busy]
    rw [split]
    exact List.mem_append_right _ (List.mem_cons_of_mem _ member)
  have member : e ∈ portEvents .task w.board a.rig.seen ++ [.access func length] := by
    rw [split]
    exact List.mem_append_right _ (List.mem_cons_self ..)
  rcases List.mem_append.mp member with port | access
  · obtain ⟨before, after, rfl⟩ := portEvents_kind .task _ _ e port
    exact ⟨fun _ => still, fun some_ => absurd rfl some_, fun some_ => absurd rfl some_,
      fun some_ => absurd rfl some_⟩
  · rw [List.mem_singleton.mp access]
    exact Event.Passive.belongs ⟨rfl, rfl, rfl, rfl⟩ _

/-! ## Streams -/

/-- A stream is under way, for a command that is being executed or received. -/
structure Streaming (busy : List Event → Bool) (w : World) : Prop where
  reset : ResetInvariant w
  owned : Owned w
  busy : busy w.log = true

section Streams

variable {busy : List Event → Bool}

theorem Streaming.extended (lasts : Lasts busy) {s t : World} (held : Streaming busy s)
    {new : List Event} (log : t.log = new ++ s.log)
    (passive : ∀ e ∈ new, e.Passive ∧ e.turns = false) (reset : ResetInvariant t) :
    Streaming busy t := by
  refine ⟨reset, held.owned.extended log fun e member => (passive e member).1, ?_⟩
  rw [log, lasts _ _ fun e member => (passive e member).2, held.busy]

theorem Streaming.served (lasts : Lasts busy) {s t : World} (served : Served s t)
    (held : Streaming busy s) : Streaming busy t := by
  obtain ⟨new, log, all, -⟩ := served.log
  exact held.extended lasts log (fun e member => passive_of_control (all e member))
    (resetInvariant_of_streamed (.of_served served) held.reset)

/-- A byte is moved. -/
theorem Streaming.moved (lasts : Lasts busy) {s t : World} (held : Streaming busy s) {e : Event}
    (log : t.log = e :: s.log) (belongs : Belongs e s.log) (stream : e.ofStream = true)
    (other : e ≠ .resetRequest) (turns : e.turns = false)
    (reset : t.vars.bulkReset = s.vars.bulkReset) : Streaming busy t := by
  have one : t.log = [e] ++ s.log := log
  refine ⟨held.reset.of_quiet [e] log (fun f member => ?_) ?_, held.owned.one log belongs, ?_⟩
  · rw [List.mem_singleton.mp member]
    exact Event.quiet_of_stream stream
  · rw [resetRequested_eq_false fun f member => by rwa [List.mem_singleton.mp member]]
    exact reset
  · rw [one, lasts _ _ fun f member => by rwa [List.mem_singleton.mp member], held.busy]

theorem stream_owned (lasts : Lasts busy) {d : Direction}
    (transfer : ∀ i, Stays (fun s => Streaming busy s ∧ s.vars.bulkReset = 0#32) Owned
      (d.transferByte i))
    (clear : Moves (Framed OfUsb) d.clearEndpoint) (length : Nat) {s : World}
    (held : Streaming busy s) (unset : s.vars.bulkReset = 0#32) :
    wp (stream d length) (fun _ t => Streaming busy t) Owned s := by
  have served {α : Type} {m : Fw α} (moves : Moves Served m) : Stays (Streaming busy) Owned m :=
    .of_moves moves (fun _ _ served held => held.served lasts served) fun _ held => held.owned
  have framed {α : Type} {m : Fw α} (framed : Moves (Framed OfUsb) m) :=
    served (served_of_framed framed)
  refine stream_while_clear (fun _ held => held.owned) (fun e ok => Stays.modify fun s held => ?_)
    (framed endpointWaitUntilReady_framed) (framed endpointIsReadWriteAllowed_framed) transfer
    (framed clear) (served usbUsbTask_served) length held unset
  obtain ⟨passive, turns⟩ := passive_of_loop ok
  refine held.moved lasts rfl (passive.belongs _) ?_ ?_ turns rfl
  · cases e <;> first | rfl | cases ok
  · rintro rfl
    cases ok

theorem readStream_owned (lasts : Lasts busy)
    (hears : ∀ log, busy log = true → receiving log = true ∨ executing log = true)
    (store : Nat → Byte → Vars → Vars) (same : ∀ i x v, (store i x v).bulkReset = v.bulkReset)
    (length : Nat) {s : World} (held : Streaming busy s) (unset : s.vars.bulkReset = 0#32) :
    wp (stream (readStream store) length) (fun _ t => Streaming busy t) Owned s := by
  refine stream_owned lasts (fun i s start => ?_) (endpointClearOut_framed _) length held unset
  obtain ⟨held, unset⟩ := start
  have stored (x : Byte) (t : World) (held : Streaming busy t) (unset : t.vars.bulkReset = 0#32) :
      wp (onVars (store i x)) (fun _ u => Streaming busy u ∧ u.vars.bulkReset = 0#32) Owned t :=
    ⟨⟨held.reset.of_quiet [] rfl (List.forall_mem_nil _) (same i x t.vars),
      ⟨held.owned.history⟩, held.busy⟩,
      (same i x t.vars).trans unset⟩
  show wp (endpointRead8 >>= fun x => onVars (store i x)) _ _ s
  rw [wp_bind, endpointRead8, wp_bind, wp_state]
  split
  · rename_i x rest bank
    refine stored x _ (held.moved lasts rfl ?_ rfl Event.noConfusion rfl rfl) unset
    exact ⟨fun some_ => absurd rfl some_, fun some_ => absurd rfl some_,
      fun _ => ⟨hears _ held.busy, held.reset.unset unset⟩, fun some_ => absurd rfl some_⟩
  · exact stored _ s held unset

theorem writeStream_owned (load : Nat → Vars → Byte) (length : Nat) {s : World}
    (held : Streaming executing s) (unset : s.vars.bulkReset = 0#32) :
    wp (stream (writeStream load) length) (fun _ t => Streaming executing t) Owned s := by
  refine stream_owned executing_lasts (fun i s start => ?_) endpointClearIn_framed length held unset
  obtain ⟨held, unset⟩ := start
  refine ⟨held.moved executing_lasts rfl ?_ rfl Event.noConfusion rfl rfl, unset⟩
  exact ⟨fun some_ => absurd rfl some_, fun _ => ⟨held.busy, held.reset.unset unset⟩,
    fun some_ => absurd rfl some_, fun some_ => absurd rfl some_⟩

end Streams

/-! ## The invariant -/

/-- While the firmware is not idle, a command is being executed. -/
structure Occupied (w : World) : Prop where
  busy : w.vars.curVueState ≠ .idle → executing w.log = true
  owned : Owned w

theorem Occupied.extended {s t : World} (held : Occupied s) {new : List Event}
    (log : t.log = new ++ s.log) (passive : ∀ e ∈ new, e.Passive ∧ e.turns = false)
    (state : t.vars.curVueState = s.vars.curVueState) : Occupied t := by
  refine ⟨fun busy => ?_, held.owned.extended log fun e member => (passive e member).1⟩
  rw [state] at busy
  rw [log, executing_lasts _ _ fun e member => (passive e member).2, held.busy busy]

theorem Occupied.served {s t : World} (held : Occupied s) (served : Served s t) : Occupied t := by
  obtain ⟨new, log, all, -⟩ := served.log
  obtain ⟨_, _, _, vars⟩ := served.vars
  exact held.extended log (fun e member => passive_of_control (all e member)) (by rw [vars])

theorem Streaming.occupied {w : World} (held : Streaming executing w) : Occupied w :=
  ⟨fun _ => held.busy, held.owned⟩

theorem Owned.idle {w : World} (held : Owned w) (idle : w.vars.curVueState = .idle) : Occupied w :=
  ⟨fun busy => absurd idle busy, held⟩

/-! ## The end of a transfer -/

/-- Releasing the target ends no cycle. -/
theorem deselect_owned {w : World} (held : Owned w) (rest : w.board.Resting) :
    wp deselect (fun _ t => Owned t) Owned w := by
  rw [wp_of_value (deselect_eq w)]
  have released := vueWriteAddressFull_passive rest (w.vars.bulkAddress ||| vueFlagMask)
  generalize vueWriteAddressFull (w.vars.bulkAddress ||| vueFlagMask) ⟨w.board, []⟩ =
    r at released ⊢
  have ended : Owned { w with log := .finish :: w.log } :=
    held.one rfl (Event.Passive.belongs ⟨rfl, rfl, rfl, rfl⟩ _)
  exact ended.extended rfl released

theorem finishWrite_occupied {w : World} (held : Owned w) (rest : w.board.Resting) :
    wp finishWrite (fun _ t => Occupied t) Owned w := by
  rw [finishWrite]
  refine wp.bind (deselect_owned held rest) fun _ t held => ?_
  rw [enterIdle, onVars, wp_modify]
  exact ⟨fun busy => absurd rfl busy, ⟨held.history⟩⟩

theorem owned_of_framed {s t : World} (held : Owned s) (framed : Framed OfUsb s t) : Owned t := by
  obtain ⟨new, log, all, -⟩ := (Served.of_framed framed).log
  exact held.extended log fun e member => (passive_of_control (all e member)).1

theorem finishRead_occupied {w : World} (held : Owned w) (rest : w.board.Resting) :
    wp finishRead (fun _ t => Occupied t) Owned w := by
  rw [finishRead]
  refine wp.bind (deselect_owned held rest) fun _ t held => ?_
  refine wp.bind ((taskClearIn_framed t).mono (fun _ _ framed => owned_of_framed held framed)
    fun _ framed => owned_of_framed held framed) fun _ u held => ?_
  rw [enterIdle, onVars, wp_modify]
  exact ⟨fun busy => absurd rfl busy, ⟨held.history⟩⟩

/-- The end of a chunk: the transfer goes on, or it ends. -/
theorem endChunk_occupied {finish : Fw Unit} {w : World} (held : Owned w)
    (busy : executing w.log = true) (length : BitVec 32)
    (finished : ∀ u : World, Owned u → u.board = w.board →
      wp finish (fun _ t => Occupied t) Owned u) :
    wp (do
      shortenCommand length
      whenever ((← state).vars.curCommand.length = 0#32) finish)
        (fun _ t => Occupied t) Owned w := by
  rw [wp_bind, shortenCommand, onVars, wp_modify, wp_bind, wp_state, wp_whenever]
  exact ⟨fun _ => finished _ ⟨held.history⟩ rfl, fun _ => ⟨fun _ => busy, ⟨held.history⟩⟩⟩

/-! ## The tasks -/

/-- What the tasks rely on and keep. -/
structure Tended (w : World) : Prop where
  machine : Machine w
  reset : ResetInvariant w
  occupied : Occupied w

theorem vueBulkWriteTask_occupied {s : World} (held : Tended s) (clear : s.vars.bulkReset = 0#32)
    (busy : s.vars.curVueState ≠ .idle) :
    wp vueBulkWriteTask (fun _ t => Occupied t) Owned s := by
  obtain ⟨c, -, going⟩ := held.machine.tracked.progress busy
  rw [vueBulkWriteTask, wp_bind, wp_state, if_neg (by rw [going.phase]; decide), if_pos going.phase]
  have start : Streaming executing s :=
    ⟨held.reset, held.occupied.owned, held.occupied.busy busy⟩
  have received := ((receiveChunk_unmoved (chunkLength s.vars).toNat s).and
    (readStream_keepsBus storeBuffer (fun _ _ _ => rfl) (fun _ _ _ => ⟨rfl, rfl⟩)
      (chunkLength s.vars).toNat s held.machine.bus)).and
    (readStream_owned executing_lasts (fun _ => .inr) storeBuffer (fun _ _ _ => rfl)
      (chunkLength s.vars).toNat start clear)
  refine wp.bind (received.mono (fun _ _ ends => ends) fun _ cut => cut.2) fun ok t received => ?_
  obtain ⟨⟨unmoved, bus⟩, streaming⟩ := received
  rw [wp_ite]
  refine ⟨fun _ => ?_, fun _ => streaming.occupied⟩
  obtain ⟨a, run, accessed, -⟩ := bulkAccess_machine bus (going.unmoved unmoved)
  rw [← chunkLength_unmoved unmoved, wp_bind, wp_of_value run]
  obtain ⟨owned, busy⟩ := streaming.owned.accessed streaming.busy c.func (chunkLength t.vars) a
  refine endChunk_occupied owned busy _ fun u held board => finishWrite_occupied held ?_
  rw [board]
  exact accessed.ready.resting

theorem vueBulkReadTask_occupied {s : World} (held : Tended s) (clear : s.vars.bulkReset = 0#32)
    (busy : s.vars.curVueState ≠ .idle) :
    wp vueBulkReadTask (fun _ t => Occupied t) Owned s := by
  obtain ⟨c, -, going⟩ := held.machine.tracked.progress busy
  rw [vueBulkReadTask, wp_bind, wp_state, if_neg (by rw [going.phase]; decide), if_pos going.phase]
  obtain ⟨a, run, accessed, -⟩ := bulkAccess_machine held.machine.bus going
  have worked := (bulkAccess_keepsWorking (chunkLength s.vars) s ⟨held.reset, clear⟩).of_value run
  rw [wp_bind, wp_of_value run]
  obtain ⟨owned, executes⟩ := held.occupied.owned.accessed (held.occupied.busy busy) c.func
    (chunkLength s.vars) a
  have sent := (writeStream_keepsBus loadBuffer (chunkLength s.vars).toNat _ accessed).and
    (writeStream_owned loadBuffer (chunkLength s.vars).toNat ⟨worked.held, owned, executes⟩
      worked.clear)
  refine wp.bind (sent.mono (fun _ _ ends => ends) fun _ cut => cut.2) fun ok t sent => ?_
  obtain ⟨bus, streaming⟩ := sent
  rw [wp_ite]
  refine ⟨fun _ => ?_, fun _ => streaming.occupied⟩
  refine endChunk_occupied streaming.owned streaming.busy _ fun u held board =>
    finishRead_occupied held ?_
  rw [board]
  exact bus.ready.resting

/-- A reception that is over is judged. -/
theorem judgeCommand_occupied {s : World} (held : Owned s) (rest : s.board.Resting)
    (idle : s.vars.curVueState = .idle) (receives : receiving s.log = true)
    (whole : Sound (sinceCommand s.log) → (takesOf (sinceCommand s.log)).length = 32) :
    wp judgeCommand (fun _ t => Occupied t) Owned s := by
  have noted (e : Event) (passive : e.Passive) : Owned { s with log := e :: s.log } :=
    held.one rfl (passive.belongs _)
  rw [judgeCommand, wp_bind, onVars, wp_modify, wp_bind, wp_state, wp_ite, wp_ite]
  refine ⟨fun defined => ⟨fun _ => ?_, fun _ => ?_⟩, fun _ => ?_⟩
  · have ignored := noted (.ignore s.vars.curCommand.correct) ⟨rfl, rfl, rfl, rfl⟩
    exact ⟨fun busy => absurd idle busy, ⟨ignored.history⟩⟩
  · rw [wp_of_value (startCommand_eq defined)]
    have selected := vueWriteAddressFull_passive rest s.vars.curCommand.correct.start
    rw [World.begun]
    dsimp only
    generalize vueWriteAddressFull s.vars.curCommand.correct.start ⟨s.board, []⟩ = r at selected ⊢
    have accepted : Owned { s with log := .accept s.vars.curCommand.correct :: s.log } :=
      held.one rfl ⟨fun some_ => absurd rfl some_, fun some_ => absurd rfl some_,
        fun some_ => absurd rfl some_, fun _ => ⟨receives, whole⟩⟩
    refine ⟨fun _ => ?_, accepted.extended rfl selected⟩
    exact executing_lasts _ _ (portEvents_turns _ _ _)
  · rw [wp_bind, note, wp_modify]
    have rejected : Owned { s with
        vars := { s.vars with curCommand := s.vars.curCommand.correct }
        log := .reject s.vars.curCommand.correct :: s.log } :=
      ⟨(noted (.reject s.vars.curCommand.correct) ⟨rfl, rfl, rfl, rfl⟩).history⟩
    refine (refuseOut_framed _).mono (fun _ t framed => (owned_of_framed rejected framed).idle ?_)
      fun _ framed => owned_of_framed rejected framed
    rw [framed.vars]
    exact idle

theorem vueCommandTask_occupied {s : World} (held : Tended s) (clear : s.vars.bulkReset = 0#32)
    (selected : s.usb.selected = vueCartReaderOutEpAddr) (idle : s.vars.curVueState = .idle) :
    wp vueCommandTask (fun _ t => Occupied t) Owned s := by
  rw [vueCommandTask, wp_bind, wp_state, wp_bind, note, wp_modify]
  obtain ⟨u, eq⟩ : ∃ u : World, u = { s with log := .command s.vars.curCommand :: s.log } :=
    ⟨_, rfl⟩
  have log : u.log = .command s.vars.curCommand :: s.log := by rw [eq]
  have vars : u.vars = s.vars := by rw [eq]
  have noted : Streaming receiving u ∧ BusInvariant u ∧ u.At vueCartReaderOutEpAddr := by
    rw [eq]
    have quiet : (Event.command s.vars.curCommand).Quiet := ⟨rfl, Event.noConfusion⟩
    refine ⟨⟨note_keepsReset quiet Event.noConfusion s held.reset, ?_, rfl⟩, ?_, .inl selected⟩
    · exact held.occupied.owned.one rfl (Event.Passive.belongs ⟨rfl, rfl, rfl, rfl⟩ _)
    · exact note_keepsBus (e := .command s.vars.curCommand) trivial s held.machine.bus
  obtain ⟨streaming, bus, at_⟩ := noted
  rw [← eq]
  have received := ((readStream_streamed storeCommand (fun _ _ _ => ⟨_, _, rfl⟩) 32 u).and
    (readStream_spec command_memory (by decide) at_ (by simp))).and
    ((readStream_keepsBus storeCommand (fun _ _ _ => rfl) (fun _ _ _ => ⟨rfl, rfl⟩) 32 u bus).and
      (readStream_owned receiving_lasts (fun _ => .inl) storeCommand (fun _ _ _ => rfl)
        32 streaming (by rw [vars]; exact clear)))
  refine wp.bind (received.mono (fun _ _ ends => ends) fun _ cut => cut.2.2) fun ok t received => ?_
  obtain ⟨⟨streamed, new, received, done, -⟩, bus, streaming⟩ := received
  have idle : t.vars.curVueState = .idle := by
    obtain ⟨_, _, _, _, _, after⟩ := streamed.vars
    rw [after, vars]
    exact idle
  rw [wp_ite]
  refine ⟨fun yes => ?_, fun _ => streaming.owned.idle idle⟩
  have since : sinceCommand t.log = new := by
    obtain ⟨same, log', all, -⟩ := streamed.log
    rw [received.log, log, sinceCommand_command]
    rw [List.append_cancel_right (received.log.symm.trans log')]
    rintro e member old rfl
    cases all _ member
  refine judgeCommand_occupied streaming.owned bus.ready.resting idle streaming.busy fun sound => ?_
  rw [since] at sound ⊢
  rcases done yes with ⟨-, whole⟩ | ⟨failed, -⟩
  · exact whole
  · exact absurd sound failed

/-! ## Runs -/

theorem passive_of_poll {e : Event} (ok : e.ofPoll = true) : e.Passive ∧ e.turns = false := by
  cases e <;> first | exact ⟨⟨rfl, rfl, rfl, rfl⟩, rfl⟩ | cases ok

theorem tended_of_framed (s t : World) (framed : Framed OfUsb s t) (held : Tended s) : Tended t :=
  ⟨machine_of_framed s t framed held.machine,
    resetInvariant_of_streamed (.of_framed framed) held.reset,
    held.occupied.served (.of_framed framed)⟩

/-- What is known of a run of the firmware, taken together. -/
theorem tended_of_parts {α : Type} {m : Fw α} {s : World} {C D : World → Prop}
    (machine : wp m (fun _ t => Machine t) C s) (reset : wp m (fun _ t => ResetInvariant t) D s)
    (occupied : wp m (fun _ t => Occupied t) Owned s) : wp m (fun _ t => Tended t) Owned s :=
  ((machine.and reset).and occupied).mono (fun _ _ ends => ⟨ends.1.1, ends.1.2, ends.2⟩)
    fun _ cut => cut.2

theorem tended_endpoints : EndpointsKeep Tended Owned := by
  refine .of_framed (fun e ok s held => ?_) tended_of_framed fun _ held => held.occupied.owned
  have quiet := Event.quiet_of_poll ok
  refine tended_of_parts (machine_endpoints.note e ok s held.machine)
    (note_keepsReset quiet.1 quiet.2 s held.reset) ?_
  have one : e :: s.log = [e] ++ s.log := rfl
  exact held.occupied.extended one
    (fun f member => by rw [List.mem_singleton.mp member]; exact passive_of_poll ok) rfl

theorem tended_tasks : TasksKeep Tended Tended Owned where
  command s held found idle := by
    exact tended_of_parts (machine_tasks.command s held.machine found idle)
      (vueCommandTask_keepsReset s ⟨held.reset, found.clear⟩)
      (vueCommandTask_occupied held found.clear found.selected idle)
  write s held found write :=
    tended_of_parts (machine_tasks.write s held.machine found write)
      (vueBulkWriteTask_keepsReset s ⟨held.reset, found.clear⟩)
      (vueBulkWriteTask_occupied held found.clear (by rw [write]; decide))
  refuse s held _ _ _ :=
    Stays.of_moves refuseOut_framed tended_of_framed (fun _ held => held.occupied.owned) s held
  free s x held := by
    have noted := tended_endpoints.note (.operate .clearOut x) rfl s held
    exact Stays.of_moves (endpointClearOut_framed .task) tended_of_framed
      (fun _ held => held.occupied.owned) _ noted
  read s held clear reading at_ :=
    tended_of_parts (machine_tasks.read s held.machine clear reading at_)
      (vueBulkReadTask_keepsReset s ⟨held.reset, clear⟩)
      (vueBulkReadTask_occupied held clear (by rw [reading]; decide))

theorem resetBlock_passive : Moves (Logs Event.Passive) resetBlock := by
  have mark {e : Event} (passive : e.Passive) : Moves (Logs Event.Passive) (note e) :=
    Moves.modify fun _ => .one rfl passive
  have restored : Moves (Logs Event.Passive) restoreDefaultState :=
    restoreDefaultState_inBlock.mono fun _ _ moved => moved.log.mono fun _ => passive_of_reset
  exact (mark ⟨rfl, rfl, rfl, rfl⟩).bind fun _ => restored.bind fun _ =>
    .bind (Moves.modify fun _ => .none rfl) fun _ => mark ⟨rfl, rfl, rfl, rfl⟩

theorem resetBlock_tended (s : World) (held : Tended s) :
    wp resetBlock (fun _ t => Tended t) Owned s := by
  refine tended_of_parts (resetBlock_keepsMachine s held.machine)
    (resetBlock_keepsReset s held.reset) ?_
  refine ((resetBlock_passive s).and (resetBlock_spec held.machine.bus.ready)).mono
    (fun _ t ends => ?_) fun t cut => ?_
  · obtain ⟨⟨new, log, all⟩, restored, -⟩ := ends
    exact (held.occupied.owned.extended log all).idle restored.idle
  · obtain ⟨⟨new, log, all⟩, -⟩ := cut
    exact held.occupied.owned.extended log all

theorem usbUsbTask_tended : Stays Tended Owned usbUsbTask := fun s held =>
  ((usbUsbTask_keepsMachine s held.machine).and (usbUsbTask_served s)).mono
    (fun _ _ ends => ⟨ends.1, resetInvariant_of_streamed (.of_served ends.2) held.reset,
      held.occupied.served ends.2⟩)
    fun _ cut => (held.occupied.served cut.2).owned

theorem mainLoop_tended (inputs : List Input) : Stays Tended Owned (mainLoop inputs) :=
  mainLoop_stays inputs
    (fun i _ _ held => ⟨held.machine.offer i, ⟨held.reset.pending, held.reset.log⟩,
      held.occupied.busy, ⟨held.occupied.owned.history⟩⟩)
    (mainIteration_stays usbUsbTask_tended (vueTask_stays tended_endpoints tended_tasks)
      fun s held _ => resetBlock_tended s held)

theorem Started.tended {w : World} (started : Started w) : Tended w := by
  have machine := started.machine
  have reset := started.resetInvariant
  obtain ⟨_, _, _, _, _, rfl⟩ := started
  exact ⟨machine, reset, fun busy => absurd rfl busy, ⟨trivial⟩⟩

/-- In every run, finished or cut, what was recorded belongs to a command. -/
theorem mainLoop_owned {start : World} (started : Started start) (inputs : List Input) :
    History Belongs (mainLoop inputs start).state.log :=
  ((mainLoop_tended inputs).exit (fun _ held => held.occupied.owned) started.tended).history

end VueCartReader
