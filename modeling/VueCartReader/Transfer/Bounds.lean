import VueCartReader.Transfer.Ledger

/-!
# No access out of range

What the language leaves undefined never happens: `target_select_map` is indexed with a
defined target, `bulk_access_func` is set before it is called, no routine goes past the
end of the buffer and none loops for ever. Each call belongs to the command accepted last
and passes between 1 and 64 bytes, no more than are left of it, and is over after a cycle
for each step (`mainLoop_inBounds`). Streams stay inside their memory (`stream_within`).

`Counted` carries this through the main loop: the lengths passed for a command add up to
what its remaining length says is over.
-/

set_option autoImplicit false

namespace VueCartReader

open Program

/-! ## Streams stay inside their memory -/

/-- A direction that leaves it undefined what happens at a bound and past it. -/
def Direction.within (bound : Nat) (d : Direction) : Direction :=
  { d with transferByte := fun i => if i < bound then d.transferByte i else undefinedBehaviour }

section Within

variable {d : Direction} {bound : Nat}

theorem transferBytes_within (processed left : Nat) :
    ∀ moved, (∀ i < left, processed + moved + i < bound) →
      transferBytes (d.within bound) processed left moved =
        transferBytes d processed left moved := by
  induction left with
  | zero => exact fun _ _ => rfl
  | succ left ih =>
      intro moved inside
      have here : processed + moved < bound := inside 0 (Nat.succ_pos left)
      have rest : ∀ i < left, processed + (moved + 1) + i < bound := by
        intro i less
        have next := inside (i + 1) (Nat.succ_lt_succ less)
        omega
      simp only [transferBytes, ih (moved + 1) rest]
      simp only [Direction.within, if_pos here]

theorem endpointStream_within {length : Nat} (inside : length ≤ bound) (processed : Nat) :
    endpointStream (d.within bound) length processed = endpointStream d length processed := by
  have same : transferBytes (d.within bound) processed (length - processed) 0 =
      transferBytes d processed (length - processed) 0 :=
    transferBytes_within processed (length - processed) 0 fun i less => by omega
  unfold endpointStream
  rw [same]
  rfl

theorem retryStream_within {length : Nat} (inside : length ≤ bound) (calls : Nat) :
    ∀ processed, retryStream (d.within bound) length calls processed =
      retryStream d length calls processed := by
  induction calls with
  | zero => exact fun _ => rfl
  | succ calls ih =>
      intro processed
      simp only [retryStream, endpointStream_within inside, ih]

/-- A stream over a piece of memory reaches nothing outside it. -/
theorem stream_within {length : Nat} (inside : length ≤ bound) :
    stream (d.within bound) length = stream d length := by
  simp only [stream, retryStream_within inside]

end Within

/-! ## Calls in the log -/

/-- The routine an event calls, and the length it passes. -/
def Event.called : Event → Option (AccessFunc × BitVec 32)
  | .access f n => some (f, n)
  | _ => none

/-- What has been recorded since a routine was last called. -/
def sinceCall (log : List Event) : List Event := log.takeWhile fun e => e.called.isNone

/-- The last call of a routine. -/
def lastCall (log : List Event) : Option (AccessFunc × BitVec 32) := log.findSome? Event.called

/-- The lengths passed to routines, taken together. -/
def passed (log : List Event) : Nat :=
  ((occurrences Event.called log).map fun call => call.2.toNat).sum

theorem passed_append (newer older : List Event) :
    passed (newer ++ older) = passed older + passed newer := by
  rw [passed, occurrences_append, List.map_append, List.sum_append]
  rfl

theorem passed_access (f : AccessFunc) (n : BitVec 32) (log : List Event) :
    passed (.access f n :: log) = passed log + n.toNat := by
  rw [passed, occurrences_cons, List.map_append, List.sum_append]
  rfl

theorem passed_of_uncalled {log : List Event} (none_ : ∀ e ∈ log, e.called = none) :
    passed log = 0 := by
  rw [passed, occurrences_eq_nil _ none_]
  rfl

/-- The last call is over: it has had a cycle for each step of its length. -/
def Balanced (log : List Event) : Prop :=
  ∀ f n, lastCall log = some (f, n) →
    (cyclesOf (sinceCall log)).length = rounds n.toNat f.step

/-- A call fits the command it is made for. -/
structure CallFits (c : VueCommand) (f : AccessFunc) (n : BitVec 32)
    (past : List Event) : Prop where
  defined : c.defined = true
  func : f = c.func
  positive : 1 ≤ n.toNat
  chunk : n.toNat ≤ 64
  left : passed (sinceAccept past) + n.toNat ≤ c.length.toNat

/-- What an event says about calls. -/
structure Calling (e : Event) (past : List Event) : Prop where
  defined : e ≠ .undefined
  call : ∀ f n, e = .access f n → Balanced past ∧
    ∃ c, acceptedCommand past = some c ∧ CallFits c f n past

/-- An event that has nothing to do with calls. -/
structure Event.Uncalled (e : Event) : Prop where
  called : e.called = none
  cycle : e.cycle = none
  defined : e ≠ .undefined

theorem Event.Uncalled.calling {e : Event} (apart : e.Uncalled) (past : List Event) :
    Calling e past := by
  refine ⟨apart.defined, ?_⟩
  rintro f n rfl
  exact nomatch apart.called

theorem sinceCall_append {new : List Event} (none_ : ∀ e ∈ new, e.called = none)
    (log : List Event) : sinceCall (new ++ log) = new ++ sinceCall log := by
  rw [sinceCall, List.takeWhile_append_of_pos fun e member => by rw [none_ e member]; rfl]
  rfl

theorem lastCall_append {new : List Event} (none_ : ∀ e ∈ new, e.called = none)
    (log : List Event) : lastCall (new ++ log) = lastCall log := by
  rw [lastCall, List.findSome?_append, List.findSome?_eq_none_iff.mpr none_]
  rfl

theorem Balanced.append {log : List Event} (held : Balanced log) {new : List Event}
    (apart : ∀ e ∈ new, e.Uncalled) : Balanced (new ++ log) := by
  have none_ : ∀ e ∈ new, e.called = none := fun e member => (apart e member).called
  intro f n last
  rw [lastCall_append none_] at last
  rw [sinceCall_append none_, cyclesOf, occurrences_append,
    occurrences_eq_nil _ fun e member => (apart e member).cycle, List.append_nil]
  exact held f n last

/-! ## The invariant -/

/-- Of the calls so far all is well. -/
structure CallsWell (w : World) : Prop where
  history : History Calling w.log
  balanced : Balanced w.log

structure Counted (w : World) : Prop where
  well : CallsWell w
  passed : w.vars.bulkReset = 0#32 → w.vars.curVueState ≠ .idle →
    ∀ c, acceptedCommand w.log = some c → passed (sinceAccept w.log) = c.moved w

structure Tallied (w : World) : Prop where
  machine : Machine w
  counted : Counted w

theorem CallsWell.extended {s t : World} (held : CallsWell s) {new : List Event}
    (log : t.log = new ++ s.log) (apart : ∀ e ∈ new, e.Uncalled) : CallsWell t := by
  refine ⟨?_, ?_⟩
  · rw [log]
    exact held.history.append_of_forall fun e member past => (apart e member).calling past
  · rw [log]
    exact held.balanced.append apart

theorem Counted.of_idle {w : World} (well : CallsWell w) (idle : w.vars.curVueState = .idle) :
    Counted w := ⟨well, fun _ busy => absurd idle busy⟩

/-- What has been passed for a command does not change with events that call nothing. -/
theorem passed_extended {log new : List Event}
    (apart : ∀ e ∈ new, e.accepted = none ∧ e.called = none) :
    passed (sinceAccept (new ++ log)) = passed (sinceAccept log) := by
  rw [sinceAccept_append fun e member => (apart e member).1, passed_append,
    passed_of_uncalled fun e member => (apart e member).2, Nat.add_zero]

theorem Counted.extended {s t : World} (held : Counted s) {new : List Event}
    (log : t.log = new ++ s.log) (apart : ∀ e ∈ new, e.Uncalled ∧ e.accepted = none)
    (unmoved : Unmoved s t) : Counted t := by
  refine ⟨held.well.extended log fun e member => (apart e member).1, fun clear busy c found => ?_⟩
  obtain ⟨_, _, _, _, vars⟩ := unmoved.vars
  have state : t.vars.curVueState = s.vars.curVueState := by rw [vars]
  have moved : c.moved t = c.moved s := by rw [VueCommand.moved, vars, VueCommand.moved]
  rw [state] at busy
  rw [unmoved.accepted] at found
  rw [log, passed_extended fun e member => ⟨(apart e member).2, (apart e member).1.called⟩, moved]
  exact held.passed (unmoved.reset clear) busy c found

theorem uncalled_of_stream {e : Event} (ok : e.ofStream = true) :
    e.Uncalled ∧ e.accepted = none := by
  refine ⟨⟨?_, cycle_of_stream ok, ?_⟩, accepted_of_stream ok⟩
  · cases e <;> first | rfl | exact nomatch ok
  · rintro rfl
    exact nomatch ok

theorem Counted.streamed {s t : World} (held : Counted s) (streamed : Streamed s t)
    (unmoved : Unmoved s t) : Counted t := by
  obtain ⟨new, log, all, -⟩ := streamed.log
  exact held.extended log (fun e member => uncalled_of_stream (all e member)) unmoved

theorem CallsWell.streamed {s t : World} (held : CallsWell s) (streamed : Streamed s t) :
    CallsWell t := by
  obtain ⟨new, log, all, -⟩ := streamed.log
  exact held.extended log fun e member => (uncalled_of_stream (all e member)).1

theorem CallsWell.framed {s t : World} (held : CallsWell s) (framed : Framed OfUsb s t) :
    CallsWell t := held.streamed (.of_framed framed)

theorem Tallied.served {s t : World} (held : Tallied s) (served : Served s t) : Tallied t :=
  ⟨⟨busInvariant_of_served served held.machine.bus,
    held.machine.tracked.unmoved (.of_served served) held.machine.bus.ready⟩,
    held.counted.streamed (.of_served served) (.of_served served)⟩

/-- Port writes without a cycle. -/
theorem portEvents_uncalled {start : Board} {trace : List Board}
    (silent : occurrences Event.cycle (portEvents .task start trace) = []) :
    ∀ e ∈ portEvents .task start trace, e.Uncalled := by
  intro e member
  have cycle := (portEvents_plain silent e member).cycle
  obtain ⟨before, after, rfl⟩ := portEvents_kind .task start trace e member
  exact ⟨rfl, cycle, nofun⟩

/-! ## A call -/

section Call

variable {c : VueCommand} {w : World}

/-- A call for the next chunk fits its command, and is over after a cycle a step. -/
theorem bulkAccess_well (held : CallsWell w) (bus : BusInvariant w) (going : InProgress c 0 w)
    (accepted : acceptedCommand w.log = some c)
    (sum : passed (sinceAccept w.log) = c.moved w) :
    ∃ a, bulkAccess (chunkLength w.vars) w =
        .value () (w.accessed c.func (chunkLength w.vars) a) ∧
      BusInvariant (w.accessed c.func (chunkLength w.vars) a) ∧
      InProgress c (chunkLength w.vars).toNat (w.accessed c.func (chunkLength w.vars) a) ∧
      CallsWell (w.accessed c.func (chunkLength w.vars) a) ∧
      passed (sinceAccept (w.accessed c.func (chunkLength w.vars) a).log) =
        c.moved w + (chunkLength w.vars).toNat := by
  obtain ⟨a, progress, run⟩ :=
    bulkAccess_eq (chunkLength_inside w.vars) bus.ready.resting going.func
  have kept := bulkAccess_keepsBus (chunkLength_inside w.vars) w bus
  rw [wp_of_value run] at kept
  have ahead := going.accessed progress
  have chunk := chunkLength_toNat w.vars
  have bounded := going.bounded
  have positive := going.positive
  have moved : c.moved w = c.length.toNat - w.vars.curCommand.length.toNat := rfl
  have fits : CallFits c c.func (chunkLength w.vars) w.log :=
    ⟨going.defined, rfl, by omega, by omega, by omega⟩
  have uncalled : ∀ e ∈ portEvents .task w.board a.rig.seen, e.called = none := fun e member => by
    obtain ⟨before, after, rfl⟩ := portEvents_kind .task w.board a.rig.seen e member
    rfl
  have called : History Calling (.access c.func (chunkLength w.vars) :: w.log) := by
    refine ⟨⟨nofun, fun f n same => ?_⟩, held.history⟩
    cases same
    exact ⟨held.balanced, c, accepted, fits⟩
  refine ⟨a, run, kept, ahead, ⟨?_, fun f n last => ?_⟩, ?_⟩
  · refine called.append_of_forall fun e member past => ?_
    obtain ⟨before, after, rfl⟩ := portEvents_kind .task w.board a.rig.seen e member
    exact ⟨nofun, nofun⟩
  · -- the call has just been made, and its cycles are those of the routine
    have last :=
      (lastCall_append uncalled (.access c.func (chunkLength w.vars) :: w.log)).symm.trans
      last
    cases last
    obtain ⟨cs, ⟨trace, settled, -, cycles, -⟩, drives, -⟩ := progress.cycles
    have seen : a.rig.seen = trace := settled.seen
    have count := congrArg List.length drives
    simp only [List.length_map, List.length_range] at count
    have since := sinceCall_append uncalled (.access c.func (chunkLength w.vars) :: w.log)
    have log : (w.accessed c.func (chunkLength w.vars) a).log =
      portEvents .task w.board a.rig.seen ++ .access c.func (chunkLength w.vars) :: w.log := rfl
    rw [log, since]
    show (cyclesOf (portEvents .task w.board a.rig.seen ++ [])).length = _
    rw [List.append_nil, cyclesOf, portEvents_cycles, seen]
    rw [← chunkLength_setWidth, ← count]
    exact congrArg List.length cycles
  · rw [accessed_since, passed_append, passed_of_uncalled uncalled, Nat.add_zero,
      passed_access, sum]

/-- The end of a transfer calls nothing. -/
theorem deselect_well (held : CallsWell w) (bus : BusInvariant w) :
    wp deselect (fun _ t => CallsWell t) CallsWell w := by
  have silent := vueWriteAddressFull_cycles bus.ready.resting (w.vars.bulkAddress ||| vueFlagMask)
  rw [wp_of_value (deselect_eq w)]
  generalize vueWriteAddressFull (w.vars.bulkAddress ||| vueFlagMask) ⟨w.board, []⟩ = r at silent ⊢
  have log : portEvents .task w.board r.seen ++ .finish :: w.log =
      (portEvents .task w.board r.seen ++ [.finish]) ++ w.log := by
    rw [List.append_assoc]
    rfl
  refine held.extended log fun e member => ?_
  · rcases List.mem_append.mp member with port | finish
    · exact portEvents_uncalled silent e port
    · rw [List.mem_singleton.mp finish]
      exact ⟨rfl, rfl, nofun⟩

theorem enterIdle_counted (held : CallsWell w) :
    wp enterIdle (fun _ t => Counted t) CallsWell w := .of_idle ⟨held.history, held.balanced⟩ rfl

theorem finishWrite_counted (held : CallsWell w) (bus : BusInvariant w) :
    wp finishWrite (fun _ t => Counted t) CallsWell w :=
  (deselect_well held bus).bind fun _ _ => enterIdle_counted

theorem finishRead_counted (held : CallsWell w) (bus : BusInvariant w) :
    wp finishRead (fun _ t => Counted t) CallsWell w :=
  (deselect_well held bus).bind fun _ t well =>
    wp.bind ((taskClearIn_framed t).mono (fun _ _ => well.framed) fun _ => well.framed)
      fun _ _ => enterIdle_counted

/-- The end of a chunk, whichever way it went. -/
theorem endChunk_counted {finish : Fw Unit} (held : CallsWell w) (bus : BusInvariant w)
    (going : InProgress c (chunkLength w.vars).toNat w) (accepted : acceptedCommand w.log = some c)
    (sum : passed (sinceAccept w.log) = c.moved w + (chunkLength w.vars).toNat)
    (finished : ∀ u, CallsWell u → BusInvariant u → wp finish (fun _ t => Counted t) CallsWell u) :
    wp (do
      shortenCommand (chunkLength w.vars)
      whenever ((← state).vars.curCommand.length = 0#32) finish) (fun _ t => Counted t) CallsWell
      w := by
  have counted := shortenCommand_keepsBus (chunkLength w.vars) w bus
  have chunk := chunkLength_toNat w.vars
  have left := shortened_length w
  have bounded := going.bounded
  have well : CallsWell (w.shortened (chunkLength w.vars)) := ⟨held.history, held.balanced⟩
  rw [wp_bind, shortenCommand, onVars, wp_modify, wp_bind, wp_state, wp_whenever]
  refine ⟨fun _ => finished _ well counted, fun more => ⟨well, fun _ _ d found => ?_⟩⟩
  obtain rfl : c = d := Option.some.inj (accepted.symm.trans found)
  show passed (sinceAccept w.log) = c.moved (w.shortened (chunkLength w.vars))
  simp only [VueCommand.moved] at sum ⊢
  omega

end Call

/-! ## The tasks -/

section Tasks

variable {s : World}

theorem vueBulkWriteTask_counted (held : Tallied s) (clear : s.vars.bulkReset = 0#32)
    (writing : s.vars.curVueState = .write) :
    wp vueBulkWriteTask (fun _ t => Counted t) CallsWell s := by
  have busy : s.vars.curVueState ≠ .idle := by
    rw [writing]
    exact nofun
  obtain ⟨c, accepted, going⟩ := held.machine.tracked.progress busy
  rw [vueBulkWriteTask, wp_bind, wp_state, if_neg (by rw [going.phase]; decide), if_pos going.phase]
  have received := ((readStream_streamed storeBuffer (fun _ _ _ => ⟨_, _, rfl⟩)
      (chunkLength s.vars).toNat s).and (receiveChunk_unmoved (chunkLength s.vars).toNat s)).and
    ((readStream_reset storeBuffer (fun _ _ _ => rfl) (chunkLength s.vars).toNat s).and
      (readStream_keepsBus storeBuffer (fun _ _ _ => rfl) (fun _ _ _ => ⟨rfl, rfl⟩)
        (chunkLength s.vars).toNat s held.machine.bus))
  refine wp.bind (received.mono (fun _ _ ends => ends)
    fun t cut => held.counted.well.streamed cut.1.1) fun ok t received => ?_
  obtain ⟨⟨streamed, unmoved⟩, reset, bus⟩ := received
  have counted := held.counted.streamed streamed unmoved
  rw [wp_ite]
  refine ⟨fun yes => ?_, fun _ => counted⟩
  have accepted := unmoved.accepted.trans accepted
  have going := going.unmoved unmoved
  have sum := counted.passed (reset.1 yes clear) (by
    rw [going.task]
    exact VueCommand.task_ne_idle going.defined) c accepted
  obtain ⟨a, run, bus, ahead, well, sum⟩ := bulkAccess_well counted.well bus going accepted sum
  rw [← chunkLength_unmoved unmoved, wp_bind, wp_of_value run]
  exact endChunk_counted well bus ahead ((accessed_accepted t _ _ a).trans accepted) sum
    fun _ => finishWrite_counted

theorem vueBulkReadTask_counted (held : Tallied s) (clear : s.vars.bulkReset = 0#32)
    (reading : s.vars.curVueState = .read) :
    wp vueBulkReadTask (fun _ t => Counted t) CallsWell s := by
  have busy : s.vars.curVueState ≠ .idle := by
    rw [reading]
    exact nofun
  obtain ⟨c, accepted, going⟩ := held.machine.tracked.progress busy
  have sum := held.counted.passed clear busy c accepted
  rw [vueBulkReadTask, wp_bind, wp_state, if_neg (by rw [going.phase]; decide), if_pos going.phase]
  obtain ⟨a, run, bus, ahead, well, sum⟩ :=
    bulkAccess_well held.counted.well held.machine.bus going accepted sum
  rw [wp_bind, wp_of_value run]
  have sent := ((writeStream_streamed loadBuffer (chunkLength s.vars).toNat (s.accessed _ _ a)).and
      (sendChunk_unmoved (chunkLength s.vars).toNat (s.accessed _ _ a))).and
    ((writeStream_reset loadBuffer (chunkLength s.vars).toNat (s.accessed _ _ a)).and
      (writeStream_keepsBus loadBuffer (chunkLength s.vars).toNat _ bus))
  refine wp.bind (sent.mono (fun _ _ ends => ends) fun t cut => well.streamed cut.1.1)
    fun ok t sent => ?_
  obtain ⟨⟨streamed, unmoved⟩, reset, bus⟩ := sent
  have well := well.streamed streamed
  have accepted := unmoved.accepted.trans ((accessed_accepted s _ _ a).trans accepted)
  have ahead := ahead.unmoved unmoved
  rw [wp_ite]
  refine ⟨fun _ => ?_, fun abandoned => ?_⟩
  · have same := chunkLength_unmoved unmoved
    have moved : c.moved t = c.moved s := by
      obtain ⟨_, _, _, _, vars⟩ := unmoved.vars
      rw [VueCommand.moved, vars]
      rfl
    obtain ⟨new, log, all, -⟩ := streamed.log
    have further : passed (sinceAccept t.log) = c.moved t + (chunkLength s.vars).toNat := by
      rw [log, passed_extended fun e member => ⟨(uncalled_of_stream (all e member)).2,
        (uncalled_of_stream (all e member)).1.called⟩, sum, moved]
    rw [show chunkLength s.vars = chunkLength t.vars from same.symm] at ahead further ⊢
    exact endChunk_counted well bus ahead accepted further fun _ => finishRead_counted
  · have set : t.vars.bulkReset ≠ 0#32 := reset.2 (by simpa using abandoned)
    exact ⟨well, fun clear => absurd clear set⟩

/-- A command that is taken up has called nothing yet. -/
theorem begun_counted (held : CallsWell s) (bus : BusInvariant s) :
    Counted (s.begun s.vars.curCommand) := by
  have silent := vueWriteAddressFull_cycles bus.ready.resting s.vars.curCommand.start
  have begun : (s.begun s.vars.curCommand).log =
      (portEvents .task s.board (vueWriteAddressFull s.vars.curCommand.start ⟨s.board, []⟩).seen ++
        [.accept s.vars.curCommand]) ++ s.log := by
    rw [List.append_assoc]
    rfl
  have none_ : s.vars.curCommand.moved (s.begun s.vars.curCommand) = 0 := Nat.sub_self _
  have accepted := begun_accepted s s.vars.curCommand
  generalize vueWriteAddressFull s.vars.curCommand.start ⟨s.board, []⟩ = r at silent begun
  have ports := portEvents_uncalled silent
  refine ⟨held.extended begun fun e member => ?_, fun _ _ c found => ?_⟩
  · rcases List.mem_append.mp member with port | accept
    · exact ports e port
    · rw [List.mem_singleton.mp accept]
      exact ⟨rfl, rfl, nofun⟩
  · obtain rfl : s.vars.curCommand = c := Option.some.inj (accepted.symm.trans found)
    rw [none_, begun, List.append_assoc]
    rw [show [Event.accept s.vars.curCommand] ++ s.log =
        .accept s.vars.curCommand :: s.log from rfl,
      sinceAccept_accept (portEvents_accepted _ _ _)]
    exact passed_of_uncalled fun e member => (ports e member).called

theorem judgeCommand_counted (held : CallsWell s) (bus : BusInvariant s)
    (idle : s.vars.curVueState = .idle) :
    wp judgeCommand (fun _ t => Counted t) CallsWell s := by
  rw [judgeCommand, wp_bind, onVars, wp_modify, wp_bind, wp_state, wp_ite, wp_ite]
  have one {e : Event} (apart : e.Uncalled) {t : World} (log : t.log = e :: s.log) : CallsWell t :=
    held.extended (show t.log = [e] ++ s.log from log) fun f member => by
      rwa [List.mem_singleton.mp member]
  refine ⟨fun defined => ⟨fun _ => ?_, fun _ => ?_⟩, fun _ => ?_⟩
  · exact .of_idle (one (e := .ignore s.vars.curCommand.correct) ⟨rfl, rfl, by simp⟩ rfl) idle
  · rw [wp_of_value (startCommand_eq defined)]
    exact begun_counted ⟨held.history, held.balanced⟩
      ⟨⟨bus.ready.resting, bus.ready.selects, bus.ready.header⟩, bus.bulk, bus.log⟩
  · rw [wp_bind, note, wp_modify]
    have rejected := one (e := .reject s.vars.curCommand.correct) ⟨rfl, rfl, by simp⟩
      (t := { s with
        vars := { s.vars with curCommand := s.vars.curCommand.correct }
        log := .reject s.vars.curCommand.correct :: s.log }) rfl
    refine (refuseOut_framed _).mono (fun _ t framed => ?_) fun _ framed => rejected.framed framed
    refine .of_idle (rejected.framed framed) ?_
    rw [framed.vars]
    exact idle

theorem vueCommandTask_counted (held : Tallied s) (idle : s.vars.curVueState = .idle) :
    wp vueCommandTask (fun _ t => Counted t) CallsWell s := by
  rw [vueCommandTask, wp_bind, wp_state, wp_bind, note, wp_modify]
  have entered : CallsWell { s with log := .command s.vars.curCommand :: s.log } :=
    held.counted.well.extended
      (show _ = [.command s.vars.curCommand] ++ s.log from rfl) fun f member => by
        rw [List.mem_singleton.mp member]
        exact ⟨rfl, rfl, by simp⟩
  have noted := note_keepsBus (e := .command s.vars.curCommand) trivial s held.machine.bus
  have streamed := readStream_streamed storeCommand (fun _ _ _ => ⟨_, _, rfl⟩) 32
    { s with log := .command s.vars.curCommand :: s.log }
  have kept := readStream_keepsBus storeCommand (fun _ _ _ => rfl) (fun _ _ _ => ⟨rfl, rfl⟩) 32 _
    noted
  refine wp.bind ((streamed.and kept).mono (fun _ _ ends => ends)
    fun _ cut => entered.streamed cut.1) fun ok t ends => ?_
  obtain ⟨streamed, bus⟩ := ends
  obtain ⟨_, _, _, _, _, vars⟩ := streamed.vars
  have state : t.vars.curVueState = .idle := by
    rw [vars]
    exact idle
  have well := entered.streamed streamed
  rw [wp_ite]
  exact ⟨fun _ => judgeCommand_counted well bus state, fun _ => .of_idle well state⟩

end Tasks

/-! ## Runs -/

theorem uncalled_of_reset {e : Event} (ok : e.ofReset = true) : e.Uncalled := by
  refine ⟨?_, (plain_of_reset ok).cycle, ?_⟩
  · cases e <;> first | rfl | exact nomatch ok
  · rintro rfl
    exact nomatch ok

theorem resetBlock_counted {s : World} (held : Tallied s) :
    wp resetBlock (fun _ t => Counted t) CallsWell s := by
  have begun : CallsWell { s with log := .resetBegin :: s.log } :=
    held.counted.well.extended (show _ = [.resetBegin] ++ s.log from rfl) fun f member => by
      rw [List.mem_singleton.mp member]
      exact ⟨rfl, rfl, nofun⟩
  have ready := held.machine.bus.ready
  have spec := (restoreDefaultState_inBlock { s with log := .resetBegin :: s.log }).and
    (restoreDefaultState_board ⟨ready.resting, ready.selects, ready.header⟩)
  have well {t : World} (moved : InBlock { s with log := .resetBegin :: s.log } t) :
      CallsWell t := by
    obtain ⟨new, log, all⟩ := moved.log
    exact begun.extended log fun e member => uncalled_of_reset (all e member)
  rw [resetBlock, note, wp_bind, wp_modify]
  refine wp.bind (spec.mono (fun _ _ ends => ends) fun t cut => well cut.1)
    fun _ t ends => ?_
  obtain ⟨moved, idle, -⟩ := ends
  refine .of_idle ((well moved).extended (show _ = [.resetEnd] ++ t.log from rfl)
    fun f member => ?_) idle
  rw [List.mem_singleton.mp member]
  exact ⟨rfl, rfl, by simp⟩

theorem tallied_of_framed (s t : World) (framed : Framed OfUsb s t) (held : Tallied s) :
    Tallied t := held.served (.of_framed framed)

theorem vueTask_keepsTally : Stays Tallied CallsWell vueTask := by
  have weaker (s : World) (held : Tallied s) : CallsWell s := held.counted.well
  have noted (e : Event) (ok : e.ofPoll = true) : Stays Tallied CallsWell (note e) := by
    have apart : e.Uncalled ∧ e.accepted = none := by
      cases e with
      | outReceived s => exact ⟨⟨rfl, rfl, nofun⟩, rfl⟩
      | inReady s => exact ⟨⟨rfl, rfl, nofun⟩, rfl⟩
      | operate o x => exact ⟨⟨rfl, rfl, nofun⟩, rfl⟩
      | _ => exact nomatch ok
    intro s held
    have unmoved : Unmoved s { s with log := e :: s.log } :=
      ⟨⟨_, _, _, _, rfl⟩, acceptedCommand_cons apart.2 s.log, id, fun _ => .inl rfl⟩
    refine ⟨⟨note_keepsBus (by cases e <;> trivial) s held.machine.bus,
      held.machine.tracked.unmoved unmoved held.machine.bus.ready⟩, ?_⟩
    exact held.counted.extended (show _ = [e] ++ s.log from rfl)
      (fun f member => by rwa [List.mem_singleton.mp member]) unmoved
  have keep : EndpointsKeep Tallied CallsWell := .of_framed noted tallied_of_framed weaker
  have both {m : Fw Unit} {s : World} (keeps : KeepsBus m) (held : Tallied s)
      (tracked : wp m (fun _ t => Tracked t) Anywhere s)
      (counted : wp m (fun _ t => Counted t) CallsWell s) :
      wp m (fun _ t => Tallied t) CallsWell s :=
    ((machine_of_tracked keeps held.machine.bus tracked).and counted).mono
      (fun _ _ ends => ⟨ends.1, ends.2⟩) fun _ cut => cut.2
  exact vueTask_stays keep <| keep.tasks_of_framed tallied_of_framed weaker
    (fun s held _ idle => both vueCommandTask_keepsBus held
      (vueCommandTask_tracked held.machine idle) (vueCommandTask_counted held idle))
    (fun s held clear writing => both vueBulkWriteTask_keepsBus held
      (vueBulkWriteTask_tracked held.machine (by rw [writing]; exact nofun))
      (vueBulkWriteTask_counted held clear writing))
    fun s held clear reading => both vueBulkReadTask_keepsBus held
      (vueBulkReadTask_tracked held.machine (by rw [reading]; exact nofun))
      (vueBulkReadTask_counted held clear reading)

theorem Tallied.offer {w : World} (held : Tallied w) (i : Input) : Tallied (w.offer i) :=
  ⟨held.machine.offer i, ⟨⟨held.counted.well.history, held.counted.well.balanced⟩,
    held.counted.passed⟩⟩

theorem mainLoop_keepsTally (inputs : List Input) : Stays Tallied CallsWell (mainLoop inputs) :=
  mainLoop_stays inputs (fun i _ _ held => held.offer i)
    (mainIteration_stays
      (.of_moves usbUsbTask_served (fun _ _ served held => held.served served)
        fun _ held => held.counted.well)
      vueTask_keepsTally
      fun s held _ => ((resetBlock_keepsMachine s held.machine).and (resetBlock_counted held)).mono
        (fun _ _ ends => ⟨ends.1, ends.2⟩) fun _ cut => cut.2)

theorem Started.tallied {w : World} (started : Started w) : Tallied w := by
  have machine := started.machine
  obtain ⟨_, _, _, _, _, rfl⟩ := started
  exact ⟨machine, .of_idle ⟨trivial, nofun⟩ rfl⟩

/-- The cycles between a call and the next one, or the end of the log. -/
theorem Balanced.between {mid past : List Event} {f : AccessFunc} {n : BitVec 32}
    (held : Balanced (mid ++ .access f n :: past)) (none_ : ∀ e ∈ mid, e.called = none) :
    (cyclesOf mid).length = rounds n.toNat f.step := by
  have last := lastCall_append none_ (.access f n :: past)
  have since := sinceCall_append none_ (.access f n :: past)
  have count := held f n last
  rw [since] at count
  rwa [show sinceCall (.access f n :: past) = [] from rfl, List.append_nil] at count

/-- **No access is out of range and no loop runs away.** In every run, finished or cut:
nothing undefined happens; each call belongs to the command accepted last, passes between
1 and 64 bytes, which its conversion to a byte keeps, and no more than are left; until the
next call there is a cycle for each step of the length; streams stay inside the buffer and
the command; and between two rounds the remaining length is the length of the command less
the lengths passed. -/
theorem mainLoop_inBounds {start w : World} (started : Started start) (inputs : List Input)
    (reached : (mainLoop inputs start).state = w) :
    .undefined ∉ w.log ∧
    (∀ later f n past, w.log = later ++ .access f n :: past → (n.setWidth 8).toNat = n.toNat ∧
      ∃ c, acceptedCommand past = some c ∧ CallFits c f n past) ∧
    (∀ later mid f n past, w.log = later ++ (mid ++ .access f n :: past) →
      (∀ e ∈ mid, e.called = none) → (∀ rest last, later = rest ++ [last] → last.called ≠ none) →
      (cyclesOf mid).length = rounds n.toNat f.step) ∧
    (∀ v : Vars,
      stream ((readStream storeBuffer).within 64) (chunkLength v).toNat =
        stream (readStream storeBuffer) (chunkLength v).toNat ∧
      stream ((writeStream loadBuffer).within 64) (chunkLength v).toNat =
        stream (writeStream loadBuffer) (chunkLength v).toNat ∧
      stream ((readStream storeCommand).within 32) 32 = stream (readStream storeCommand) 32) ∧
    (mainLoop inputs start = .value () w → w.vars.bulkReset = 0#32 → w.vars.curVueState ≠ .idle →
      ∃ c, acceptedCommand w.log = some c ∧
        w.vars.curCommand.length.toNat + passed (sinceAccept w.log) = c.length.toNat) := by
  have well : CallsWell w := by
    have ends := (mainLoop_keepsTally inputs).exit (fun _ held => held.counted.well)
      started.tallied
    rwa [reached] at ends
  refine ⟨fun member => ?_, fun later f n past log => ?_,
    fun later mid f n past log none_ ends => ?_,
    fun v => ⟨stream_within (chunkLength_le v), stream_within (chunkLength_le v),
      stream_within (le_refl 32)⟩, fun returned clear busy => ?_⟩
  · obtain ⟨later, past, log⟩ := List.append_of_mem member
    exact (well.history.split log).defined rfl
  · obtain ⟨-, c, accepted, fits⟩ := (well.history.split log).call f n rfl
    refine ⟨?_, c, accepted, fits⟩
    have chunk := fits.chunk
    rw [BitVec.toNat_setWidth, Nat.mod_eq_of_lt (by omega)]
  · rcases List.eq_nil_or_concat later with rfl | ⟨rest, last, rfl⟩
    · rw [List.nil_append] at log
      exact Balanced.between (log ▸ well.balanced) none_
    · have call := ends rest last (by rw [List.concat_eq_append])
      rw [List.concat_eq_append, List.append_assoc] at log
      cases last with
      | access g m => exact ((well.history.split log).call g m rfl).1.between none_
      | _ => exact absurd rfl call
  · have held := (mainLoop_keepsTally inputs start started.tallied).of_value returned
    obtain ⟨c, accepted, going⟩ := held.machine.tracked.progress busy
    refine ⟨c, accepted, ?_⟩
    rw [held.counted.passed clear busy c accepted, VueCommand.moved]
    have bounded := going.bounded
    omega

/-- A log around one of its calls. -/
theorem log_split_call {log : List Event} {i : Nat} {f : AccessFunc} {n : BitVec 32}
    (found : log[i]?.bind Event.called = some (f, n)) :
    log = log.take i ++ .access f n :: log.drop (i + 1) := by
  obtain ⟨e, entry, called⟩ := Option.bind_eq_some_iff.mp found
  cases e with
  | access f n =>
      cases called
      exact log_split entry
  | _ => cases called

/-- The call that stores the word. -/
theorem wordEnd_call : (wordEnd none).log = (wordEnd none).log.take 37 ++
    .access .vueWriteData16bit 2#32 :: (wordEnd none).log.drop 38 :=
  log_split_call (by decide +kernel)

/-- The world in which the command to write the word has been accepted. -/
def wordAsked : World := (mainLoop ((wordInputs none).take 2) wordStart).state

/-- A word is written: before its data come, all of it is left; then one routine is called, which
takes one cycle for both bytes. -/
theorem mainLoop_inBounds_word :
    (∃ c, acceptedCommand ((wordEnd none).log.drop 38) = some c ∧
      CallFits c .vueWriteData16bit 2#32 ((wordEnd none).log.drop 38)) ∧
    (cyclesOf ((wordEnd none).log.take 37)).length = 1 ∧ .undefined ∉ (wordEnd none).log ∧
    ∃ c, acceptedCommand wordAsked.log = some c ∧
      2 + passed (sinceAccept wordAsked.log) = c.length.toNat := by
  obtain ⟨defined, calls, counts, -, -⟩ :=
    mainLoop_inBounds wordStart_started (wordInputs none) (w := wordEnd none) rfl
  obtain ⟨-, fits⟩ := calls _ _ _ _ wordEnd_call
  have none_ : ∀ e ∈ (wordEnd none).log.take 37, e.called = none := by decide +kernel
  have last : (wordEnd none).log = [] ++ ((wordEnd none).log.take 37 ++
      .access .vueWriteData16bit 2#32 :: (wordEnd none).log.drop 38) := by
    rw [List.nil_append]
    exact wordEnd_call
  have count := counts [] _ _ _ _ last none_ fun rest e nil =>
    absurd nil.symm (List.concat_ne_nil _ _)
  obtain ⟨-, -, -, -, remains⟩ :=
    mainLoop_inBounds wordStart_started ((wordInputs none).take 2) (w := wordAsked) rfl
  have returned : mainLoop ((wordInputs none).take 2) wordStart = .value () wordAsked :=
    Exit.eq_value (by decide +kernel)
  have going : wordAsked.vars.bulkReset = 0#32 ∧ wordAsked.vars.curVueState ≠ .idle ∧
      wordAsked.vars.curCommand.length.toNat = 2 := by decide +kernel
  obtain ⟨c, accepted, length⟩ := remains returned going.1 going.2.1
  rw [going.2.2] at length
  exact ⟨fits, count.trans (by decide), defined, c, accepted, length⟩

end VueCartReader
