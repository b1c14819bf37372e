import VueCartReader.Transfer.Progress
import VueCartReader.Transfer.Read

/-!
# From a command to its last byte

A host that sends the 32 bytes of a read to an idle firmware and from then on collects packets gets
what it asks for: all of it, nothing else, and in as many rounds as there are chunks
(`read_completes`). When it sends those of a write, and packets from then on, all of its data is
stored (`write_completes`). That the command arrives whole and that no stream call fails is not
assumed of the run: it follows from what the host does.
-/

set_option autoImplicit false

namespace VueCartReader

open Program

/-! ## The command -/

/-- So many moments are enough for a round in which a command comes. -/
abbrev commandBudget : Nat := chunkBudget + 43

/-- The host sends the bytes of a command first of all. -/
structure Input.Commands (task : FsmState) (packet : Vector Byte 32) (i : Input) : Prop
    extends i.Serves task where
  first : ∃ (sent : Packet) (acts : List HostAct) (refused : Bool) (rest : List Moment),
    i.script = ⟨.sendOut sent :: acts, refused⟩ :: rest ∧ sent.val = packet.toList
  longer : commandBudget ≤ i.script.length
  moreLooks : commandBudget ≤ i.setups.length

/-- Since the log `past` a command has come, and is accepted as it was received. -/
def Commanded (packet : Vector Byte 32) (past log : List Event) : Prop :=
  ∃ got old new, log = .accept (.ofPacket packet) :: (got ++ .command old :: (new ++ past)) ∧
    takesOf got = packet.toList ∧ (∀ e ∈ got, e.Smooth ∧ ∀ old, e ≠ .command old) ∧
    ∀ e ∈ new, e.Smooth

/-- Of the command some bytes are still in the bank; the others have been taken since the log
`past`. -/
structure Hears (task : FsmState) (packet : Vector Byte 32) (past : List Event) (unread : List Byte)
    (t : World) : Prop where
  held : Assisted task past t
  selected : t.usb.selected = vueCartReaderOutEpAddr
  unstalled : t.usb.outStalled = false
  bank : t.usb.outBank = some unread
  log : ∃ got, t.log = got ++ past ∧ takesOf got ++ unread = packet.toList ∧
    ∀ e ∈ got, ∀ old, e ≠ .command old

section Hears

variable {task : FsmState} {packet : Vector Byte 32} {past : List Event} {unread : List Byte}
  {s t : World}

/-- Events that take nothing. -/
theorem Hears.aside (hears : Hears task packet past unread s) (held : Assisted task past t)
    (selected : t.usb.selected = s.usb.selected) (stalled : t.usb.outStalled = s.usb.outStalled)
    (bank : t.usb.outBank = s.usb.outBank) (log : Logs Event.Aside s t) :
    Hears task packet past unread t := by
  refine ⟨held, selected.trans hears.selected, stalled.trans hears.unstalled,
    bank.trans hears.bank, ?_⟩
  obtain ⟨got, eq, whole, other⟩ := hears.log
  obtain ⟨new, eq', all⟩ := log
  refine ⟨new ++ got, by rw [eq', eq, List.append_assoc], ?_, ?_⟩
  · have none_ : takesOf new = [] := occurrences_eq_nil _ fun e member => (all e member).silent
    rw [takesOf, occurrences_append, ← takesOf, ← takesOf, none_, List.append_nil]
    exact whole
  · intro e member
    rcases List.mem_append.mp member with late | early
    · exact (all e late).other
    · exact other e early

theorem Hears.carried (hears : Hears task packet past unread s) (held : Assisted task past t)
    (carried : Carried s t) : Hears task packet past unread t :=
  hears.aside held carried.selected carried.outStalled
    ((carried.out unread hears.bank).trans hears.bank.symm) carried.log

theorem Hears.noted (hears : Hears task packet past unread s) {e : Event} (aside : e.Aside) :
    Hears task packet past unread { s with log := e :: s.log } :=
  hears.aside (hears.held.noted aside.toSmooth) rfl rfl rfl (.one rfl aside)

/-- A byte is taken from the bank into the command. -/
theorem transferByte_hears {x : Byte} (hears : Hears task packet past (x :: unread) s) (i : Nat) :
    Returns World.left 0 ((readStream storeCommand).transferByte i)
      (fun _ t => Hears task packet past unread t) s := by
  obtain ⟨held, selected, unstalled, bank, got, log, whole, other⟩ := hears
  have read : endpointRead8 s = .value x
      { s with usb := { s.usb with outBank := some unread }, log := .take x :: s.log } := by
    rw [endpointRead8, state_bind]
    dsimp only
    rw [bank]
    rfl
  refine .of_value (bind_of_value read) ?_ (Nat.le_refl _)
  refine ⟨?_, selected, unstalled, rfl, .take x :: got,
    congrArg (List.cons (Event.take x)) log, ?_, ?_⟩
  · exact held.step rfl rfl rfl rfl ⟨held.able.sends, held.able.receives⟩
      (.one rfl ⟨rfl, rfl, rfl, Event.noConfusion⟩)
  · rw [takesOf, occurrences_cons]
    show takesOf got ++ [x] ++ unread = _
    rw [List.append_assoc]
    exact whole
  · intro e member
    rcases List.mem_cons.mp member with rfl | early
    · exact fun _ => Event.noConfusion
    · exact other e early

/-- While bytes are in the bank it allows access. -/
theorem Hears.allowed {x : Byte} (hears : Hears task packet past (x :: unread) s) :
    s.usb.readWriteAllowed = true := by
  rw [Usb.readWriteAllowed, if_pos hears.selected, hears.unstalled, hears.bank]
  rfl

theorem transferBytes_hears (processed : Nat) : ∀ b s, Hears task packet past unread s →
    Returns World.left unread.length
      (transferBytes (readStream storeCommand) processed unread.length b)
      (fun x t => x.1 = .noError ∧ Hears task packet past [] t) s := by
  induction unread with
  | nil => exact fun b s hears => .pure ⟨rfl, hears⟩
  | cons x unread ih =>
      intro b s hears
      rw [List.length_cons, transferBytes]
      have looked := endpointIsReadWriteAllowed_assisted hears.held
      refine Returns.of_le (looked.bind (k := unread.length) fun allowed t looked => ?_) (by omega)
      obtain ⟨⟨held, carried, -⟩, same⟩ := looked
      have hears := hears.carried held carried
      rw [if_pos (same.trans hears.allowed)]
      refine Returns.of_le ((transferByte_hears hears _).bind (k := unread.length)
        fun _ u hears => ?_) (by omega)
      exact ih (b + 1) u hears

/-- The whole command is taken. -/
theorem stream_hears (hears : Hears task packet past packet.toList s) :
    Returns World.left 33 (stream (readStream storeCommand) 32)
      (fun ok t => ok = true ∧ Hears task packet past [] t) s := by
  have size : packet.toList.length = 32 := Vector.length_toList
  have call : Returns World.left 33 (endpointStream (readStream storeCommand) 32 0)
      (fun x t => x.1 = .noError ∧ Hears task packet past [] t) s := by
    have noted := hears.noted (e := .operate .readStream s.usb.selected)
      ⟨⟨rfl, rfl, rfl, Event.noConfusion⟩, rfl, fun _ => Event.noConfusion⟩
    have waited : Returns World.left 1 endpointWaitUntilReady (fun result t =>
        result = .noError ∧ Hears task packet past packet.toList t)
        { s with log := .operate .readStream s.usb.selected :: s.log } := by
      refine (moment_assisted noted.held).bind (k := 0) fun m t seen => ?_
      obtain ⟨-, held, carried, -⟩ := seen
      have hears := noted.carried held carried
      have ready : t.usb.outReceived = true := by
        rw [Usb.outReceived, hears.selected, hears.bank]
        rfl
      refine .state_bind ?_
      dsimp only
      rw [ready, Bool.true_or, if_pos rfl]
      exact .pure ⟨rfl, hears⟩
    refine .state_bind (.modify_bind rfl (waited.bind (k := 32) fun result t ends => ?_))
    obtain ⟨rfl, hears⟩ := ends
    have moved := transferBytes_hears 0 0 t hears
    rwa [size] at moved
  refine .state_bind (call.bind (k := 0) fun x t ends => ?_)
  obtain ⟨done, hears⟩ := ends
  have noted := hears.noted (e := .stream x.1) (by
    rw [done]
    exact ⟨⟨rfl, rfl, rfl, Event.noConfusion⟩, rfl, fun _ => Event.noConfusion⟩)
  refine .modify_bind rfl ?_
  rw [if_neg (by rw [done]; decide)]
  exact .pure ⟨rfl, noted⟩

/-- The command is what its bytes make. -/
theorem Hears.command (hears : Hears task packet past packet.toList s) (since : s.log = past) :
    wp (stream (readStream storeCommand) 32) (fun _ t => Hears task packet past [] t →
      t.vars.curCommand.correct = .ofPacket packet) Anywhere s := by
  have spec := readStream_spec (n := 32) command_memory (by decide) (s := s) (.inl hears.selected)
    (by simp)
  refine spec.mono (fun ok t ends hears => ?_) fun _ _ => trivial
  obtain ⟨part, received, -⟩ := ends
  obtain ⟨got, log, whole, -⟩ := hears.log
  rw [← since] at log
  obtain rfl := List.append_cancel_right (received.log.symm.trans log)
  rw [List.append_nil] at whole
  rw [received_correct received, ← VueCommand.completed_whole s.vars.curCommand packet, ← whole]

/-- What is well-formed and asks for something is taken up. -/
theorem judgeCommand_takesUp (formed : WellFormed packet)
    (some_ : lengthOf packet ≠ 0#32) {s : World}
    (judged : s.vars.curCommand.correct = .ofPacket packet) :
    judgeCommand s = .value () (World.begun
      { s with vars := { s.vars with curCommand := .ofPacket packet } } (.ofPacket packet)) := by
  have defined := (VueCommand.ofPacket_defined packet).mpr formed
  rw [judgeCommand, onVars, modify_bind, state_bind]
  dsimp only
  rw [judged, if_pos defined, if_neg (by rwa [VueCommand.ofPacket_length])]
  exact startCommand_eq (w := { s with
    vars := { s.vars with curCommand := .ofPacket packet } }) defined

end Hears

/-! ## The first round -/

/-- The bytes are those of a command for a task, and it asks for something. -/
structure AsksFor (task : FsmState) (packet : Vector Byte 32) : Prop where
  known : task = .read ∨ task = .write
  formed : WellFormed packet
  kind : (VueCommand.ofPacket packet).task = task
  some_ : lengthOf packet ≠ 0#32

/-- So much is moved in the round in which the command comes: a read sends its first chunk, while
the packets of a write are still to come. -/
def FsmState.early : FsmState → Nat
  | .read => 64
  | .idle | .write | .other _ => 0

/-- A command has been taken up as it came, and the host goes on with its part. -/
structure TakenOn (task : FsmState) (packet : Vector Byte 32) (past : List Event) (t : World) :
    Prop where
  base : ∃ base, Commanded packet past base ∧ Assisted task base t
  going : t.vars.curVueState = task
  remaining : t.remaining = (lengthOf packet).toNat

section Round

variable {task : FsmState} {packet : Vector Byte 32} {past : List Event} {s : World}

theorem vueCommandTask_takesUp (asks : AsksFor task packet) (held : Assisted task past s)
    (selected : s.usb.selected = vueCartReaderOutEpAddr) (unstalled : s.usb.outStalled = false)
    (bank : s.usb.outBank = some packet.toList) :
    Returns World.left 33 vueCommandTask (fun _ t => TakenOn task packet past t) s := by
  have noted : Hears task packet (.command s.vars.curCommand :: s.log) packet.toList
      { s with log := .command s.vars.curCommand :: s.log } := by
    have begun := held.noted (e := .command s.vars.curCommand) ⟨rfl, rfl, rfl, Event.noConfusion⟩
    exact ⟨begun.restart, selected, unstalled, bank, [], rfl, rfl, List.forall_mem_nil _⟩
  refine .state_bind (.modify_bind rfl ?_)
  refine ((stream_hears noted).and (noted.command rfl)).bind (k := 0) fun ok t ends => ?_
  obtain ⟨⟨rfl, hears⟩, judged⟩ := ends
  rw [if_pos rfl]
  refine .of_value (judgeCommand_takesUp asks.formed asks.some_ (judged hears)) ?_ (Nat.le_refl _)
  obtain ⟨held', -, -, -, got, log, whole, other⟩ := hears
  rw [List.append_nil] at whole
  obtain ⟨new, before, smooth⟩ := held.log
  obtain ⟨same, eq, smooth'⟩ := held'.log
  obtain rfl := List.append_cancel_right (log.symm.trans eq)
  have commanded : Commanded packet past (.accept (.ofPacket packet) :: t.log) :=
    ⟨got, s.vars.curCommand, new, by rw [log, before], whole,
      fun e member => ⟨smooth' e member, other e member⟩, smooth⟩
  have steadied : Steadied task (.accept (.ofPacket packet) :: t.log) (World.begun
      { t with vars := { t.vars with curCommand := .ofPacket packet } } (.ofPacket packet)) :=
    ⟨held'.clear, held'.configured, held'.able, _, rfl, portEvents_smooth _ _ _⟩
  refine ⟨⟨_, commanded, steadied, held'.moments, held'.setups⟩, asks.kind, ?_⟩
  show (VueCommand.ofPacket packet).length.toNat = _
  rw [VueCommand.ofPacket_length]

/-- An idle firmware finds the command in the bank and takes it up. -/
theorem serveOut_takesUp (asks : AsksFor task packet) (held : Assisted task past s)
    (idle : s.vars.curVueState = .idle) (unstalled : s.usb.outStalled = false)
    (bank : s.usb.outBank = some packet.toList) :
    Returns World.left 35 serveOut (fun _ t => TakenOn task packet past t) s := by
  refine .modify_bind rfl ((endpointIsOutReceived_assisted (held.select _)).bind (k := 34)
    fun found t looked => ?_)
  obtain ⟨⟨held, carried, -⟩, found⟩ := looked
  have idle : t.vars.curVueState = .idle := by
    rw [carried.vars]
    exact idle
  have at_ : t.usb.selected = vueCartReaderOutEpAddr := carried.selected
  have bank : t.usb.outBank = some packet.toList := carried.out _ bank
  have there : t.usb.outReceived = true := by
    rw [Usb.outReceived, at_, bank]
    rfl
  rw [if_pos (found.trans there)]
  refine .state_bind (.modify_bind rfl ?_)
  rw [idle]
  have noted := held.noted (e := .outReceived .idle) ⟨rfl, rfl, rfl, Event.noConfusion⟩
  refine (vueCommandTask_takesUp asks noted at_ (carried.outStalled.trans unstalled) bank).bind
    (k := 1) fun _ u taken => ?_
  obtain ⟨⟨base, commanded, held⟩, going, remaining⟩ := taken
  refine .state_bind (.modify_bind rfl ?_)
  refine ((endpointClearOut_assisted (held.noted ⟨rfl, rfl, rfl, Event.noConfusion⟩)).and
    (endpointClearOut_framed .task _)).mono fun _ v ends => ?_
  have same : v.vars = u.vars := ends.2.vars
  refine ⟨⟨base, commanded, ends.1.1⟩, ?_, ?_⟩
  · rw [same]
    exact going
  · rw [World.remaining, same]
    exact remaining

/-- So many bytes are still to be moved of a command that has been taken up since the log `past`. -/
structure Underway (task : FsmState) (packet : Vector Byte 32) (past : List Event) (t : World) :
    Prop where
  base : ∃ base, Commanded packet past base ∧ Assisted task base t
  remains : Remains task ((lengthOf packet).toNat - task.early) t

/-- A call of `VUE_Task` takes the command up, and moves the first chunk of a read. -/
theorem vueTask_takesUp (asks : AsksFor task packet) (machine : Machine s)
    (held : Assisted task past s) (idle : s.vars.curVueState = .idle)
    (unstalled : s.usb.outStalled = false) (bank : s.usb.outBank = some packet.toList) :
    Returns World.left (chunkBudget + 41) vueTask (fun _ t => Underway task packet past t) s := by
  refine .state_bind ?_
  rw [if_neg (by rw [held.configured]; simp), if_neg (by rw [held.clear]; simp)]
  have taken := (serveOut_takesUp asks held idle unstalled bank).and
    (serveOut_stays machine_endpoints.toLooksKeep machine_tasks s machine held.clear)
  refine Returns.of_le (taken.bind (k := chunkBudget + 6) fun _ t ends => ?_) (by omega)
  obtain ⟨⟨⟨base, commanded, held⟩, going, remaining⟩, machine, -⟩ := ends
  rcases asks.known with rfl | rfl
  · refine (serveIn_moves machine held going).mono fun _ u ends => ?_
    refine ⟨⟨base, commanded, ends.1⟩, ?_⟩
    rw [← remaining]
    exact ends.2
  · -- the IN half leaves a write as it has been taken up
    have idles := serveIn_idles held (by rw [going]; decide)
    refine Returns.of_le (idles.mono fun _ u ends => ?_) (by decide)
    refine ⟨⟨base, commanded, ends.1⟩, ?_⟩
    have some_ : (lengthOf packet).toNat ≠ 0 := fun none_ =>
      asks.some_ (BitVec.eq_of_toNat_eq none_)
    rw [Remains, World.remaining, ends.2, FsmState.early, Nat.sub_zero, if_neg some_]
    exact ⟨going, remaining⟩

/-- The host sends the command before the firmware looks. -/
theorem moment_sends {i : Input} (commands : i.Commands task packet) (script : s.script = i.script)
    (enabled : s.usb.enabled = true) (unstalled : s.usb.outStalled = false)
    (free : s.usb.outBank = none) :
    (moment s).state.usb.outBank = some packet.toList := by
  obtain ⟨sent, acts, refused, rest, eq, whole⟩ := commands.first
  have serves := commands.moments ⟨.sendOut sent :: acts, refused⟩ (by
    rw [eq]
    exact List.mem_cons_self ..)
  have bulk : ∀ a ∈ acts, a.bulk = true := fun a member =>
    serves.bulk a (List.mem_cons_of_mem _ member)
  rw [moment, script, eq]
  show (acts.foldl World.act (World.act { s with script := rest } (.sendOut sent))).usb.outBank = _
  refine (acts_carried bulk _).out _ ?_
  rw [World.act]
  dsimp only
  rw [enabled, unstalled, free, whole]
  rfl

/-- An idle firmware that can be sent a command. -/
structure World.Awaiting (w : World) : Prop where
  idle : w.vars.curVueState = .idle
  clear : w.vars.bulkReset = 0#32
  configured : w.usb.deviceState = .configured
  enabled : w.usb.enabled = true
  outUnstalled : w.usb.outStalled = false
  inUnstalled : w.usb.inStalled = false
  free : w.usb.outBank = none

theorem mainIteration_takesUp {i : Input} (asks : AsksFor task packet) (machine : Machine s)
    (awaiting : s.Awaiting) (commands : i.Commands task packet) :
    Returns World.left commandBudget mainIteration (fun _ t => Underway task packet s.log t)
      (s.offer i) := by
  have able : s.usb.Able task :=
    ⟨fun _ => awaiting.inUnstalled, fun _ => ⟨awaiting.enabled, awaiting.outUnstalled⟩⟩
  have held : Assisted task s.log (s.offer i) :=
    ⟨⟨awaiting.clear, awaiting.configured, able, [], rfl, List.forall_mem_nil _⟩, commands.moments,
      commands.setups⟩
  have sent := moment_sends (s := s.offer i) commands rfl awaiting.enabled awaiting.outUnstalled
    awaiting.free
  refine ((usbUsbTask_assisted held).and (usbUsbTask_keepsMachine _ (machine.offer i))).bind
    (k := chunkBudget + 41) fun _ t ends => ?_
  obtain ⟨⟨held, u, polled⟩, machine⟩ := ends
  rw [polled.moment] at sent
  have idle : t.vars.curVueState = .idle := by
    rw [polled.vars, polled.carried.vars]
    exact awaiting.idle
  have unstalled : t.usb.outStalled = false := by
    rw [polled.usb]
    exact polled.carried.outStalled.trans awaiting.outUnstalled
  have bank : t.usb.outBank = some packet.toList := by
    rw [polled.usb]
    exact sent
  refine .state_bind ((vueTask_takesUp asks machine held idle unstalled bank).bind (k := 0)
    fun _ v ends => ?_)
  rw [whenever, if_neg (by simp [held.clear])]
  exact .pure ends

end Round

/-! ## The run -/

theorem Session.toCalm {packet : Vector Byte 32} {log : List Event} (session : Session packet log) :
    CalmSession packet log :=
  ⟨session.accepted, session.heard, session.calm, session.sound⟩

/-- A command that has been taken up is carried out in so many rounds. -/
theorem mainLoop_carriesOut {task : FsmState} {packet : Vector Byte 32} {w : World}
    (asks : AsksFor task packet) (machine : Machine w) (awaiting : w.Awaiting) {i : Input}
    {rest : List Input} (commands : i.Commands task packet) (serves : ∀ j ∈ rest, j.Serves task)
    (size : rest.length = ((lengthOf packet).toNat - task.early + 63) / 64) :
    ∃ t base, mainLoop (i :: rest) w = .value () t ∧ Commanded packet w.log base ∧
      Steadied task base t ∧ t.vars.curVueState = .idle := by
  have round := (mainIteration_takesUp asks machine awaiting commands).and
    (mainIteration_keepsMachine _ (machine.offer i))
  obtain ⟨_, s, first, ⟨⟨base, commanded, held⟩, remains⟩, machine⟩ :=
    round.returned (le_min commands.longer commands.moreLooks)
  have first : mainLoop (i :: rest) w = mainLoop rest s := bind_of_value first
  rw [first]
  by_cases last : rest = []
  · subst last
    rw [List.length_nil] at size
    rw [Remains, if_pos (by omega)] at remains
    exact ⟨s, base, rfl, commanded, held.toSteadied, remains⟩
  · -- the rounds after the first move the chunks that are left
    have more : 0 < rest.length := List.length_pos_iff.mpr last
    rw [Remains, if_neg (by omega)] at remains
    obtain ⟨t, run, -, steadied, left⟩ := mainLoop_moves asks.known rest s machine held.toSteadied
      remains.1 serves (by rw [remains.2]; omega)
    rw [Remains, if_pos (by rw [remains.2]; omega)] at left
    exact ⟨t, base, run, commanded, steadied, left⟩

/-- Since the command was accepted nothing has gone wrong. -/
theorem Commanded.session {packet : Vector Byte 32} {past base : List Event}
    (commanded : Commanded packet past base) {new : List Event} (smooth : ∀ e ∈ new, e.Smooth) :
    Session packet (new ++ base) := by
  obtain ⟨got, old, early, rfl, whole, other, -⟩ := commanded
  have none_ : ∀ e ∈ new, e.accepted = none := fun e member => (smooth e member).same
  have since := sinceAccept_accept none_ (.ofPacket packet) (got ++ .command old :: (early ++ past))
  refine ⟨?_, ?_, ?_, ?_, ?_⟩
  · rw [acceptedCommand_append none_]
    exact Option.some_ne_none _
  · have other' : ∀ e ∈ .accept (.ofPacket packet) :: got, ∀ old, e ≠ Event.command old := by
      intro e member
      rcases List.mem_cons.mp member with rfl | early
      · exact fun _ => Event.noConfusion
      · exact (other e early).2
    have heard : heardOf (new ++ .accept (.ofPacket packet) ::
        (got ++ .command old :: (early ++ past))) = .accept (.ofPacket packet) :: got := by
      rw [heardOf, beforeAccept_append none_]
      exact sinceCommand_command other' old _
    rw [heard, takesOf, occurrences_cons, ← takesOf, whole]
    exact List.append_nil _
  · rw [since]
    exact fun e member => (smooth e member).calm
  · rw [since]
    exact fun e member => (smooth e member).sound
  · rw [since]
    exact fun member => (smooth _ member).granted rfl

/-- It is the only command that has been accepted. -/
theorem Commanded.only {packet : Vector Byte 32} {past base : List Event}
    (commanded : Commanded packet past base) {new : List Event} (smooth : ∀ e ∈ new, e.Smooth) :
    ∃ mid, new ++ base = mid ++ past ∧ acceptedCommand mid ≠ none ∧
      occurrences Event.accepted mid = [.ofPacket packet] := by
  obtain ⟨got, old, early, rfl, -, other, smooth'⟩ := commanded
  refine ⟨new ++ .accept (.ofPacket packet) :: (got ++ .command old :: early), by simp, ?_, ?_⟩
  · rw [acceptedCommand_append fun e member => (smooth e member).same]
    exact Option.some_ne_none _
  have none_ (es : List Event) (all : ∀ e ∈ es, e.Smooth) : occurrences Event.accepted es = [] :=
    occurrences_eq_nil _ fun e member => (all e member).same
  rw [occurrences_append, occurrences_cons, occurrences_append, occurrences_cons, none_ new smooth,
    none_ early smooth', none_ got fun e member => (other e member).1]
  rfl

/-! ## A diligent host -/

/-- A round with a command first. -/
theorem diligentInput_commands {task : FsmState} (cartridge : Cartridge) {packet : Vector Byte 32}
    {sent : Packet} (some_ : sent.val ≠ []) (same : sent.val = packet.toList) {act : HostAct}
    (bulk : act.bulk = true) (part : act.serves task = true) :
    (diligentInput cartridge [.sendOut sent] act).Commands task packet where
  toServes := by
    refine diligentInput_serves cartridge (fun a member => ?_) bulk part
    rw [List.mem_singleton.mp member, HostAct.bulk]
    simpa using some_
  first := ⟨sent, [act], false, _, rfl, same⟩
  longer := by
    rw [diligentInput, List.length_cons, List.length_replicate]
    decide
  moreLooks := by
    rw [diligentInput, List.length_replicate]
    decide

theorem configuredWorld_awaiting : configuredWorld.Awaiting := by
  have state : configuredWorld.vars.curVueState = .idle ∧ configuredWorld.vars.bulkReset = 0#32 ∧
      configuredWorld.usb.deviceState = .configured ∧ configuredWorld.usb.enabled = true ∧
      configuredWorld.usb.outStalled = false ∧ configuredWorld.usb.inStalled = false ∧
      configuredWorld.usb.outBank = none := by decide +kernel
  obtain ⟨idle, clear, configured, enabled, outUnstalled, inUnstalled, free⟩ := state
  exact ⟨idle, clear, configured, enabled, outUnstalled, inUnstalled, free⟩

/-! ## Reads -/

/-- **A read is completed.** A host that sends the bytes of a read to an idle firmware, and collects
packets from then on, gets what the cartridge holds at the addresses that it has asked for, and
nothing else, in as many rounds as there are chunks. -/
theorem read_completes {w : World} (reachable : Reachable w) (awaiting : w.Awaiting)
    {packet : Vector Byte 32} (read : WholeRead packet) {cartridge : Cartridge} {i : Input}
    {rest : List Input} (commands : i.Commands .read packet) (serves : ∀ j ∈ rest, j.Serves .read)
    (plugged : ∀ j ∈ i :: rest, j.cartridge = cartridge)
    (size : (i :: rest).length = ((lengthOf packet).toNat + 63) / 64) :
    ∃ t mid, mainLoop (i :: rest) w = .value () t ∧ t.log = mid ++ w.log ∧
      occurrences Event.accepted mid = [.ofPacket packet] ∧ t.vars.curVueState = .idle ∧
      noSelect t.board.flagLatch = true ∧
      deliveredOf (sinceAccept t.log) = bytesOf packet cartridge := by
  rw [List.length_cons] at size
  have some_ : lengthOf packet ≠ 0#32 := by
    intro none_
    rw [none_] at size
    exact absurd size (Nat.succ_ne_zero _)
  obtain ⟨t, base, run, commanded, steadied, idle⟩ :=
    mainLoop_carriesOut
      ⟨.inl rfl, read.formed, read.task, some_⟩ reachable.machine awaiting commands
      serves (by rw [FsmState.early]; omega)
  obtain ⟨new, log, smooth⟩ := steadied.log
  obtain ⟨mid, split, accepted, only⟩ := commanded.only smooth
  have session : CalmSession packet t.log := by
    rw [log]
    exact (commanded.session smooth).toCalm
  -- the ledger of the run knows what has been delivered
  obtain ⟨start, before, started, reached⟩ := reachable
  have stocked := (mainLoop_stocked before (by intro _ _ _ none_; cases none_) start
    started.stocked).of_value reached
  have due := (mainLoop_due before start started.resetsDue).of_value reached
  have stocked := (mainLoop_plugged stocked plugged).of_value run
  have due := (mainLoop_due (i :: rest) w due).of_value run
  refine ⟨t, mid, run, log.trans split, only, idle, ?_⟩
  rcases session.ends read (log.trans split) accepted stocked due with ended | goesOn
  · exact ⟨ended.2.2.1, ended.2.2.2⟩
  · rw [idle] at goesOn
    exact absurd goesOn.1 (by decide)

/-- A command to read one word comes. -/
def readingInput : Input :=
  diligentInput countedCartridge [.sendOut ⟨readPacket.toList, by decide⟩] .collectIn

/-- One round is enough for a word. -/
theorem read_completes_word : ∃ t, mainLoop [readingInput] configuredWorld = .value () t ∧
    t.vars.curVueState = .idle ∧ deliveredOf (sinceAccept t.log) = [0x10#8, 0xA5#8] := by
  have read : WholeRead readPacket := ⟨by decide +kernel, by decide +kernel⟩
  have commands : readingInput.Commands .read readPacket :=
    diligentInput_commands _ (by decide) (by decide) rfl rfl
  have plugged : ∀ j ∈ [readingInput], j.cartridge = countedCartridge := by
    intro j member
    rw [List.mem_singleton.mp member]
    rfl
  have size : [readingInput].length = ((lengthOf readPacket).toNat + 63) / 64 := by
    rw [List.length_singleton]
    decide +kernel
  obtain ⟨t, mid, run, -, -, idle, -, delivered⟩ := read_completes configuredWorld_reachable
    configuredWorld_awaiting read commands (List.forall_mem_nil _) plugged size
  exact ⟨t, run, idle, delivered.trans (by decide +kernel)⟩

/-! ## Writes -/

/-- **A write is completed.** A host that sends the bytes of a write to an idle firmware, and
packets from then on, has all of its data stored, each word once and in order, when no packet
reaches over the end of a chunk; it takes one round more than there are chunks. -/
theorem write_completes {w : World} (reachable : Reachable w) (awaiting : w.Awaiting)
    {packet : Vector Byte 32} (write : WholeWrite packet)
    (some_ : lengthOf packet ≠ 0#32) {i : Input}
    {rest : List Input} (commands : i.Commands .write packet) (serves : ∀ j ∈ rest, j.Serves .write)
    (size : rest.length = ((lengthOf packet).toNat + 63) / 64) :
    ∃ t mid, mainLoop (i :: rest) w = .value () t ∧ t.log = mid ++ w.log ∧
      occurrences Event.accepted mid = [.ofPacket packet] ∧ t.vars.curVueState = .idle ∧
      noSelect t.board.flagLatch = true ∧
      ∀ data : List Byte, data.length = (lengthOf packet).toNat →
        CutInto data (packetsOf (sinceAccept t.log)) →
        InChunks data.length 0 (packetsOf (sinceAccept t.log)) →
        cyclesOf (sinceAccept t.log) = storesOf packet data := by
  obtain ⟨t, base, run, commanded, steadied, idle⟩ :=
    mainLoop_carriesOut
      ⟨.inr rfl, write.formed, write.task, some_⟩ reachable.machine awaiting commands
      serves size
  obtain ⟨new, log, smooth⟩ := steadied.log
  obtain ⟨mid, split, -, only⟩ := commanded.only smooth
  have session : Session packet t.log := by
    rw [log]
    exact commanded.session smooth
  obtain ⟨start, before, started, reached⟩ := reachable
  have whole : mainLoop (before ++ i :: rest) start = .value () t :=
    (mainLoop_append reached (i :: rest)).trans run
  have ended : Reachable t := ⟨start, before ++ i :: rest, started, whole⟩
  refine ⟨t, mid, run, log.trans split, only, idle, ended.machine.tracked.released idle, ?_⟩
  intro data length cut chunks
  have stores := storesExactly_of_inChunks started (before ++ i :: rest) write length
  have session : ChunkSession packet data t.log := ⟨⟨session, cut⟩, chunks⟩
  rcases stores.ends t whole session with ended | goesOn
  · exact stores.complete [] t.log (congrArg (fun e => e.state.log) whole) session ended.2.1
  · rw [idle] at goesOn
    exact absurd goesOn.1 (by decide)

/-- A command to write one word comes, and the word. -/
def storingInput : Input :=
  diligentInput plainCartridge [.sendOut ⟨(storePacket 2#32).toList, by decide⟩] (.sendOut wordData)

/-- A word is stored in the round after that of the command. -/
def storedEnd : World :=
  (mainLoop [storingInput, diligentInput plainCartridge [] (.sendOut wordData)]
    configuredWorld).state

theorem write_completes_word : storedEnd.vars.curVueState = .idle ∧
    cyclesOf (sinceAccept storedEnd.log) =
      [⟨0x12#8, 0x1#23, ⟨false, .driven 1#8, .driven 2#8⟩⟩] := by
  have write : WholeWrite (storePacket 2#32) :=
    ⟨by decide +kernel, by decide +kernel, .inl (by decide +kernel)⟩
  have commands : storingInput.Commands .write (storePacket 2#32) :=
    diligentInput_commands _ (by decide) (by decide) rfl rfl
  have serves : ∀ j ∈ [diligentInput plainCartridge [] (.sendOut wordData)], j.Serves .write := by
    intro j member
    rw [List.mem_singleton.mp member]
    exact diligentInput_serves _ (List.forall_mem_nil _) rfl rfl
  have size : [diligentInput plainCartridge [] (.sendOut wordData)].length =
      ((lengthOf (storePacket 2#32)).toNat + 63) / 64 := by
    rw [List.length_singleton]
    decide +kernel
  have sent : CutInto wordData.val (packetsOf (sinceAccept storedEnd.log)) ∧
      InChunks wordData.val.length 0 (packetsOf (sinceAccept storedEnd.log)) := by decide +kernel
  have length : wordData.val.length = (lengthOf (storePacket 2#32)).toNat := by decide +kernel
  have words : storesOf (storePacket 2#32) wordData.val =
      [⟨0x12#8, 0x1#23, ⟨false, .driven 1#8, .driven 2#8⟩⟩] := by decide +kernel
  obtain ⟨t, mid, run, -, -, idle, -, stores⟩ := write_completes configuredWorld_reachable
    configuredWorld_awaiting write (by decide +kernel) commands serves size
  have same : storedEnd = t := by
    rw [storedEnd, run]
    rfl
  have log : storedEnd.log = t.log := congrArg World.log same
  have vars : storedEnd.vars = t.vars := congrArg World.vars same
  rw [log] at sent
  rw [log, vars]
  exact ⟨idle, (stores wordData.val length sent.1 sent.2).trans words⟩

end VueCartReader
