import VueCartReader.Device.Exchange
import VueCartReader.Safety.Machine

/-!
# Which bytes a command is made of

`VUE_Command_Task` judges the 32 bytes in the memory of `cur_command`: those it took in
this call, completed by what an earlier command left there (`VueCommand.completed`).
When a stream call fails early the task goes on as if it had succeeded, and judges
the mixture; only a mixture that is a valid command of length zero has no consequence
(`vueCommandTask_whole_iff`).
-/

set_option autoImplicit false

namespace VueCartReader

open Program

/-! ## What is judged -/

namespace VueCommand

/-- Received bytes over what is in memory, as the firmware reads them. -/
def completed (old : VueCommand) (received : List Byte) : VueCommand :=
  ofPacket (Vector.ofFn fun i =>
    (received ++ old.toBytes.toList.drop received.length).getD i 0#8)

/-- A valid command of length zero. -/
def ignorable (c : VueCommand) : Bool := c.defined && c.length == 0#32

/-- A whole packet leaves nothing of the old command. -/
theorem completed_whole (old : VueCommand) (packet : Vector Byte 32) :
    old.completed packet.toList = ofPacket packet := by
  have gone : old.toBytes.toList.drop packet.toList.length = [] := by simp
  have same : Vector.ofFn (fun i : Fin 32 => packet.toList.getD i 0#8) = packet := by
    ext i inside
    simp
  rw [completed, gone, List.append_nil, same]

end VueCommand

/-- The judged command is made of the received bytes and the old ones. -/
theorem received_correct {s t : World} {new : List Event}
    (received : Received (fun v => v.curCommand.toBytes.toList) s new t) :
    t.vars.curCommand.correct = s.vars.curCommand.completed (occurrences Event.taken new) := by
  rw [VueCommand.completed, ← received.memory, VueCommand.ofPacket]
  have whole : Vector.ofFn (fun i : Fin 32 => t.vars.curCommand.toBytes.toList.getD i 0#8) =
      t.vars.curCommand.toBytes := by
    ext i inside
    simp
  rw [whole, VueCommand.ofBytes_toBytes]

/-! ## Consequences -/

def Event.isTaskPort : Event → Bool
  | .port .task _ _ => true
  | _ => false

def Event.isReject : Event → Bool
  | .reject _ => true
  | _ => false

/-- The task changes the state, drives the bus, or stalls the endpoint for an invalid
command. -/
def ActsOn (s : World) (new : List Event) (t : World) : Prop :=
  t.vars.curVueState ≠ s.vars.curVueState ∨ new.any Event.isTaskPort = true ∨
    new.any Event.isReject = true

theorem any_eq_false {kind : Event → Bool} {log : List Event}
    (none_ : ∀ e ∈ log, kind e = false) : log.any kind = false := by
  simp only [List.any_eq_false]
  intro e member
  simp [none_ e member]

/-- The command is judged. -/
def Event.judges : Event → Bool
  | .accept _ | .ignore _ | .reject _ => true
  | _ => false

/-- What becomes of the bytes in memory, and whether it is a consequence. -/
structure Judged (s : World) (more : List Event) (t : World) : Prop where
  log : t.log = more ++ s.log
  verdict : ∃ later e, more = later ++ [e] ∧ e.judges = true
  silent : occurrences Event.taken more = []
  sound : Sound more
  acts : s.vars.curCommand.correct.ignorable = false →
    t.vars.curVueState ≠ .idle ∨ more.any Event.isReject = true
  rests : s.vars.curCommand.correct.ignorable = true →
    t.vars.curVueState = .idle ∧ more.any Event.isTaskPort = false ∧
      more.any Event.isReject = false

theorem judgeCommand_judged {s : World} (idle : s.vars.curVueState = .idle) :
    wp judgeCommand (fun _ t => ∃ more, Judged s more t) Anywhere s := by
  rw [judgeCommand, wp_bind, onVars, wp_modify, wp_bind, wp_state, wp_ite, wp_ite]
  refine ⟨fun defined => ⟨fun zero => ?_, fun positive => ?_⟩, fun undefined_ => ?_⟩
  · refine ⟨[.ignore s.vars.curCommand.correct], rfl, ⟨[], _, rfl, rfl⟩, rfl, fun _ member => by
      rw [List.mem_singleton.mp member]; rfl, fun acts => ?_, fun _ => ⟨idle, rfl, rfl⟩⟩
    have ignorable : s.vars.curCommand.correct.ignorable = true := by
      simp only [VueCommand.ignorable, Bool.and_eq_true, beq_iff_eq]
      exact ⟨defined, zero⟩
    exact absurd (acts.symm.trans ignorable) Bool.false_ne_true
  · rw [wp_of_value (startCommand_eq defined)]
    refine ⟨portEvents .task s.board
      (vueWriteAddressFull s.vars.curCommand.correct.start ⟨s.board, []⟩).seen ++
        [.accept s.vars.curCommand.correct], ?_, ⟨_, _, rfl, rfl⟩,
      occurrences_eq_nil _ fun e member => ?_, fun e member => ?_, fun _ => ?_, fun rests => ?_⟩
    · rw [List.append_assoc]
      rfl
    · rcases List.mem_append.mp member with port | accept
      · obtain ⟨_, _, rfl⟩ := portEvents_kind _ _ _ e port
        rfl
      · rw [List.mem_singleton.mp accept]
        rfl
    · rcases List.mem_append.mp member with port | accept
      · obtain ⟨_, _, rfl⟩ := portEvents_kind _ _ _ e port
        rfl
      · rw [List.mem_singleton.mp accept]
        rfl
    · exact .inl (VueCommand.task_ne_idle defined)
    · simp only [VueCommand.ignorable, Bool.and_eq_true, beq_iff_eq] at rests
      exact absurd rests.2 positive
  · rw [wp_bind, note, wp_modify]
    refine (refuseOut_framed _).mono (fun _ t framed => ?_) fun _ _ => trivial
    obtain ⟨more, log, all⟩ := framed.log
    refine ⟨more ++ [.reject s.vars.curCommand.correct], by rw [log, List.append_assoc]; rfl,
      ⟨_, _, rfl, rfl⟩, occurrences_eq_nil _ fun e member => ?_, fun e member => ?_,
      fun _ => .inr (by simp [Event.isReject]), fun rests => ?_⟩
    · rcases List.mem_append.mp member with late | reject
      · have ok := all e late
        cases e <;> first | rfl | cases ok
      · rw [List.mem_singleton.mp reject]
        rfl
    · rcases List.mem_append.mp member with late | reject
      · have ok := all e late
        cases e <;> first | rfl | cases ok
      · rw [List.mem_singleton.mp reject]
        rfl
    · simp only [VueCommand.ignorable, Bool.and_eq_true] at rests
      exact absurd rests.1 undefined_

/-- Whatever a stream call records is no consequence. -/
theorem stream_rests {new : List Event} (all : ∀ e ∈ new, e.ofStream = true) :
    new.any Event.isTaskPort = false ∧ new.any Event.isReject = false := by
  refine ⟨any_eq_false fun e member => ?_, any_eq_false fun e member => ?_⟩
  · have ok := all e member
    cases e with
    | port actor before after => cases actor <;> first | rfl | exact nomatch ok
    | _ => rfl
  · have ok := all e member
    cases e <;> first | rfl | exact nomatch ok

/-- A consequence came after 32 bytes, or the call was sound, or what it judged had no
consequence. -/
def WholeIff (s : World) (new : List Event) (t : World) : Prop :=
  (ActsOn s new t → (occurrences Event.taken new).length = 32) ↔
    (Sound new ∨ (s.vars.curCommand.completed (occurrences Event.taken new)).ignorable = true)

/-- The call ends after its stream: it was abandoned. -/
theorem WholeIff.of_rests {s t : World} {new : List Event}
    (state : t.vars.curVueState = s.vars.curVueState) (taskPort : new.any Event.isTaskPort = false)
    (reject : new.any Event.isReject = false)
    (sound : Sound new) : WholeIff s new t := by
  refine ⟨fun _ => .inl sound, fun _ acts => ?_⟩
  rcases acts with busy | port | rejected
  · exact absurd state busy
  · rw [taskPort] at port
    exact nomatch port
  · rw [reject] at rejected
    exact nomatch rejected

/-- The call judges what its stream has left in memory. -/
theorem WholeIff.of_judged {s u t : World} {part more : List Event}
    (received : Received (fun v => v.curCommand.toBytes.toList) s part u)
    (ended : Ended 32 (occurrences Event.taken part).length part)
    (taskPort : part.any Event.isTaskPort = false) (reject : part.any Event.isReject = false)
    (idle : s.vars.curVueState = .idle) (made : Judged u more t) :
    WholeIff s (more ++ part) t := by
  have taken : occurrences Event.taken (more ++ part) = occurrences Event.taken part := by
    rw [occurrences_append, made.silent, List.append_nil]
  have sound : Sound (more ++ part) ↔ Sound part := by
    rw [Sound.append]
    exact ⟨And.right, fun fine => ⟨made.sound, fine⟩⟩
  have judged := received_correct received
  rw [WholeIff, taken, sound, ← judged]
  rcases ended with ⟨fine, all⟩ | ⟨failed, fewer⟩
  · exact ⟨fun _ => .inl fine, fun _ _ => all⟩
  · refine ⟨fun only => .inr ?_, fun cause acts => ?_⟩
    · by_contra consequence
      refine absurd (only ?_) (by omega)
      rw [ActsOn, idle]
      rcases made.acts (by simpa using consequence) with busy | rejected
      · exact .inl busy
      · refine .inr (.inr ?_)
        rw [List.any_append, rejected, Bool.true_or]
    · have rests := made.rests (cause.resolve_left failed)
      rcases acts with busy | port | rejected
      · exact absurd (rests.1.trans idle.symm) busy
      · rw [List.any_append, rests.2.1, taskPort] at port
        exact nomatch port
      · rw [List.any_append, rests.2.2, reject] at rejected
        exact nomatch rejected

theorem vueCommandTask_wholeIff {s : World} (idle : s.vars.curVueState = .idle)
    (selected : s.usb.selected = vueCartReaderOutEpAddr) :
    wp vueCommandTask (fun _ t => ∃ new, t.log = new ++ s.log ∧ WholeIff s new t) Anywhere s := by
  rw [vueCommandTask, wp_bind, wp_state, wp_bind, note, wp_modify]
  have streamed := (readStream_streamed storeCommand (fun _ _ _ => ⟨_, _, rfl⟩) 32
    { s with log := .command s.vars.curCommand :: s.log }).and
      (readStream_spec command_memory (by decide)
        (s := { s with log := .command s.vars.curCommand :: s.log }) (.inl selected) (by simp))
  refine wp.bind (streamed.mono (fun _ _ ends => ends) fun _ _ => trivial)
    fun ok u ends => ?_
  obtain ⟨streamed, part, received, done, abandoned⟩ := ends
  have state : u.vars.curVueState = s.vars.curVueState := by
    obtain ⟨_, _, _, _, _, vars⟩ := streamed.vars
    rw [vars]
  obtain ⟨taskPort, reject⟩ : part.any Event.isTaskPort = false ∧
      part.any Event.isReject = false := by
    obtain ⟨same, log, all, -⟩ := streamed.log
    rw [List.append_cancel_right (received.log.symm.trans log)]
    exact stream_rests all
  -- the entry of the call belongs to what it records
  have entered : u.log = (part ++ [.command s.vars.curCommand]) ++ s.log := by
    rw [received.log, List.append_assoc]
    rfl
  have silent : occurrences Event.taken (part ++ [.command s.vars.curCommand]) =
      occurrences Event.taken part := by
    rw [occurrences_append]
    rfl
  have received : Received (fun v => v.curCommand.toBytes.toList) s
      (part ++ [.command s.vars.curCommand]) u :=
    ⟨entered, by rw [silent]; exact received.memory⟩
  have sound : Sound (part ++ [.command s.vars.curCommand]) ↔ Sound part :=
    Sound.append.trans (and_iff_left fun _ member => by rw [List.mem_singleton.mp member]; rfl)
  have taskPort : (part ++ [Event.command s.vars.curCommand]).any Event.isTaskPort = false := by
    rw [List.any_append, taskPort]
    rfl
  have reject : (part ++ [Event.command s.vars.curCommand]).any Event.isReject = false := by
    rw [List.any_append, reject]
    rfl
  rw [wp_ite]
  refine ⟨fun yes => ?_, fun no => ?_⟩
  · have ended := done yes
    rw [← silent, Ended, ← sound] at ended
    refine (judgeCommand_judged (state.trans idle)).mono (fun _ t judged => ?_)
      fun _ _ => trivial
    obtain ⟨more, made⟩ := judged
    exact ⟨_, by rw [made.log, entered, ← List.append_assoc],
      .of_judged received ended taskPort reject idle made⟩
  · exact ⟨_, entered, .of_rests state taskPort reject
      (sound.mpr (abandoned (by simpa using no)).1)⟩

theorem vueCommandTask_new {s t : World} (idle : s.vars.curVueState = .idle)
    (selected : s.usb.selected = vueCartReaderOutEpAddr)
    (returned : vueCommandTask s = .value () t) :
    ∃ new, t.log = new ++ s.log ∧ WholeIff s new t :=
  (vueCommandTask_wholeIff idle selected).of_value returned

/-- **When a command is acted on only if it was received whole.** Of a call of
`VUE_Command_Task` in the idle state it is true that it changes the state, drives the
bus or stalls the endpoint only after it has taken 32 bytes, if and only if no stream
call failed in it or the bytes it took make, over the old command, a valid command of
length zero. -/
theorem vueCommandTask_whole_iff {s t : World} {new : List Event}
    (idle : s.vars.curVueState = .idle) (selected : s.usb.selected = vueCartReaderOutEpAddr)
    (returned : vueCommandTask s = .value () t) (log : t.log = new ++ s.log) :
    (ActsOn s new t → (occurrences Event.taken new).length = 32) ↔
      (Sound new ∨
        (s.vars.curCommand.completed (occurrences Event.taken new)).ignorable = true) := by
  obtain ⟨same, log', iff_⟩ := vueCommandTask_new idle selected returned
  rw [List.append_cancel_right (log.symm.trans log')]
  exact iff_

/-! ## A command of one byte -/

/-- What a run has added to a log. -/
theorem new_eq_take {new old log : List Event} (grown : log = new ++ old) :
    new = log.take (log.length - old.length) := by
  rw [grown, List.length_append, Nat.add_sub_cancel, List.take_left]

/-- `VUE_Task` looks for a packet. -/
def lookForOut : Fw Bool := do
  endpointSelectEndpoint vueCartReaderOutEpAddr
  endpointIsOutReceived

/-- The round in which the host sends one byte, an access mode that is not defined. -/
def shortInput : Input :=
  { packetInput ⟨[0xFF#8], by decide⟩ 12 with setups := [none, none] }

def shortPolled : World := (usbUsbTask (configuredWorld.offer shortInput)).state

/-- The world in which `VUE_Task` has found that packet. -/
def shortFound : World := (lookForOut shortPolled).state

def shortWorld : World := { shortFound with log := .outReceived .idle :: shortFound.log }

def shortEnd : World := (vueCommandTask shortWorld).state

theorem shortWorld_returned : vueCommandTask shortWorld = .value () shortEnd :=
  Exit.eq_value (by decide +kernel)

/-- What the call on a short packet records. -/
theorem shortWorld_log : ∃ new, shortEnd.log = new ++ shortWorld.log ∧
    new = shortEnd.log.take (shortEnd.log.length - shortWorld.log.length) := by
  have idle : shortWorld.vars.curVueState = .idle := by decide +kernel
  have selected : shortWorld.usb.selected = vueCartReaderOutEpAddr := by decide +kernel
  obtain ⟨new, log, -⟩ := vueCommandTask_new idle selected shortWorld_returned
  exact ⟨new, log, new_eq_take log⟩

theorem vueCommandTask_whole_iff_short :
    ∃ t new, vueCommandTask shortWorld = .value () t ∧ t.log = new ++ shortWorld.log ∧
      ((ActsOn shortWorld new t → (occurrences Event.taken new).length = 32) ↔
        (Sound new ∨ (shortWorld.vars.curCommand.completed
          (occurrences Event.taken new)).ignorable = true)) := by
  obtain ⟨new, log, -⟩ := shortWorld_log
  exact ⟨shortEnd, new, shortWorld_returned, log,
    vueCommandTask_whole_iff (s := shortWorld) (by decide +kernel) (by decide +kernel)
      shortWorld_returned log⟩

/-- The stream call times out after one byte, and the endpoint is stalled for a command
that was never received. -/
theorem vueCommandTask_short :
    ¬ ∀ (before : World) (i : Input) (polled s t : World) (new : List Event), Reachable before →
      usbUsbTask (before.offer i) = .value () polled → lookForOut polled = .value true s →
      s.vars.curVueState = .idle →
      vueCommandTask { s with log := .outReceived .idle :: s.log } = .value () t →
      t.log = new ++ (.outReceived .idle :: s.log) →
      ActsOn s new t → (occurrences Event.taken new).length = 32 := by
  intro claim
  obtain ⟨new, log, recorded⟩ := shortWorld_log
  have served : usbUsbTask (configuredWorld.offer shortInput) = .value () shortPolled :=
    Exit.eq_value (by decide +kernel)
  have looked : lookForOut shortPolled = .value true shortFound :=
    Exit.eq_value (by decide +kernel)
  have idle : shortFound.vars.curVueState = .idle := by decide +kernel
  have whole := claim configuredWorld shortInput shortPolled shortFound shortEnd new
    configuredWorld_reachable served looked idle shortWorld_returned log
  have rejected : (shortEnd.log.take (shortEnd.log.length - shortWorld.log.length)).any
    Event.isReject = true := by decide +kernel
  have few : (occurrences Event.taken (shortEnd.log.take (shortEnd.log.length -
    shortWorld.log.length))).length = 1 := by decide +kernel
  rw [← recorded] at rejected few
  rw [whole (.inr (.inr rejected))] at few
  exact absurd few (by decide)

end VueCartReader
