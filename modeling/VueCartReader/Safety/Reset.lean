import VueCartReader.Device.Parts
import VueCartReader.Safety.Bus

/-!
# Requests to reset

A request to reset sets `bulk_reset` wherever it is served (`Heeded`). From that moment until
the reset block has run, the tasks do no bulk work (`Event.bulkWork`); the flag is cleared only
by a reset block that began after it was set; and a round of the main loop that finds the flag
set after `USB_USBTask` is the reset block and nothing else, which leaves the firmware and the
endpoints in their default state (`reset_honoured`).
-/

set_option autoImplicit false

namespace VueCartReader

open Program

/-! ## What the log says about resets -/

/-- A reset is due: one was requested, or the power came on, and no reset block has
ended since. -/
def resetPending : List Event → Bool
  | [] => true
  | .resetRequest :: _ => true
  | .resetEnd :: _ => false
  | _ :: log => resetPending log

/-- What the tasks do to the cartridge, and that they accept a command. -/
def Event.bulkWork : Event → Bool
  | .port .task _ _ | .access _ _ | .accept _ => true
  | _ => false

/-- The events by which the reset block marks its way. -/
def Event.marksReset : Event → Bool
  | .resetBegin | .outReset | .resetEnd => true
  | _ => false

/-- No bulk work while a reset is due, and no request between the beginning of a
reset block and its end. -/
def Honoured (e : Event) (past : List Event) : Prop :=
  (e.bulkWork = true → resetPending past = false) ∧
    (e = .resetEnd → ∃ inner older, past = inner ++ .resetBegin :: older ∧ .resetRequest ∉ inner)

theorem resetPending_append {new : List Event} (open_ : ∀ e ∈ new, e ≠ .resetEnd)
    (log : List Event) : resetPending (new ++ log) = (resetRequested new || resetPending log) := by
  induction new with
  | nil => rfl
  | cons e new ih =>
      have rest := ih fun f member => open_ f (List.mem_cons_of_mem _ member)
      have here := open_ e (List.mem_cons_self ..)
      cases e with
      | resetRequest => rfl
      | resetEnd => exact absurd rfl here
      | _ => exact rest

structure ResetInvariant (w : World) : Prop where
  pending : w.vars.bulkReset ≠ 0#32 ↔ resetPending w.log = true
  log : History Honoured w.log

/-- The code keeps the rules for resets, returned or cut. -/
abbrev KeepsReset {α : Type} (m : Fw α) : Prop := Stays ResetInvariant ResetInvariant m

/-! ## Code outside the reset block -/

/-- Events that do not concern resets. -/
def Event.Quiet (e : Event) : Prop := e.bulkWork = false ∧ e ≠ .resetEnd

theorem Event.Quiet.honoured {e : Event} (quiet : e.Quiet) (past : List Event) :
    Honoured e past :=
  ⟨fun work => absurd (quiet.1.symm.trans work) nofun, fun ends => absurd ends quiet.2⟩

/-- `bulk_reset` follows the requests. -/
theorem ResetInvariant.of_quiet {s t : World} (held : ResetInvariant s) (new : List Event)
    (log : t.log = new ++ s.log) (quiet : ∀ e ∈ new, e.Quiet)
    (reset : t.vars.bulkReset = (if resetRequested new then 0xFFFFFFFF#32 else s.vars.bulkReset)) :
    ResetInvariant t where
  pending := by
    rw [log, resetPending_append (fun e member => (quiet e member).2), reset]
    cases resetRequested new
    · simpa using held.pending
    · simp
  log := by
    rw [log]
    exact held.log.append_of_forall fun e member => (quiet e member).honoured

theorem Event.quiet_of_stream {e : Event} (ok : e.ofStream = true) : e.Quiet := by
  cases e with
  | port actor before after =>
      cases actor with
      | control => exact ⟨rfl, nofun⟩
      | task => exact nomatch ok
      | main => exact nomatch ok
  | access _ _ => exact nomatch ok
  | accept _ => exact nomatch ok
  | resetEnd => exact nomatch ok
  | _ => exact ⟨rfl, nofun⟩

theorem resetInvariant_of_streamed {s t : World} (streamed : Streamed s t)
    (held : ResetInvariant s) : ResetInvariant t := by
  obtain ⟨new, log, all, reset⟩ := streamed.log
  exact held.of_quiet new log (fun e member => Event.quiet_of_stream (all e member)) reset

/-- One more event that does not concern resets. -/
theorem note_keepsReset {e : Event} (quiet : e.Quiet) (other : e ≠ .resetRequest) :
    KeepsReset (note e) :=
  Stays.modify fun _ held => held.of_quiet [e] rfl
    (fun _ member => by rwa [List.mem_singleton.mp member]) (by
      rw [resetRequested_eq_false fun f member => by rwa [List.mem_singleton.mp member]]
      rfl)

/-! ## Bulk work -/

/-- No reset is due while `bulk_reset` is clear. -/
theorem ResetInvariant.unset {w : World} (held : ResetInvariant w)
    (clear : w.vars.bulkReset = 0#32) : resetPending w.log = false := by
  cases due : resetPending w.log with
  | false => rfl
  | true => exact absurd clear (held.pending.mpr due)

/-- Bulk work is recorded while no reset is due. -/
theorem ResetInvariant.work {s t : World} (held : ResetInvariant s)
    (clear : s.vars.bulkReset = 0#32) {new : List Event} (log : t.log = new ++ s.log)
    (others : ∀ e ∈ new, e ≠ .resetRequest ∧ e ≠ .resetEnd)
    (reset : t.vars.bulkReset = s.vars.bulkReset) : ResetInvariant t := by
  have free := held.unset clear
  have still {part : List Event} (inside : ∀ e ∈ part, e ∈ new) :
      resetPending (part ++ s.log) = false := by
    rw [resetPending_append fun e member => (others e (inside e member)).2,
      resetRequested_eq_false fun e member => (others e (inside e member)).1, free]
    rfl
  refine ⟨?_, ?_⟩
  · rw [log, still fun _ => id, reset]
    exact ⟨fun set => absurd clear set, nofun⟩
  · rw [log]
    refine held.log.append fun later e earlier eq =>
      ⟨fun _ => still fun f member => ?_, fun ends => ?_⟩
    · rw [eq]
      exact List.mem_append_right _ (List.mem_cons_of_mem _ member)
    · exact absurd ends
        (others e (by rw [eq]; exact List.mem_append_right _ (List.mem_cons_self ..))).2

theorem portEvents_others (by_ : Actor) (start : Board) (trace : List Board) :
    ∀ e ∈ portEvents by_ start trace, e ≠ .resetRequest ∧ e ≠ .resetEnd := by
  intro e member
  obtain ⟨before, after, rfl⟩ := portEvents_kind by_ start trace e member
  exact ⟨nofun, nofun⟩

/-- The tasks work: no reset is due. -/
structure Working (w : World) : Prop where
  held : ResetInvariant w
  clear : w.vars.bulkReset = 0#32

/-- The code works on, and keeps the rules for resets when it is cut. -/
abbrev KeepsWorking {α : Type} (m : Fw α) : Prop := Stays Working ResetInvariant m

theorem modify_keepsWorking {f : World → World} (log : ∀ w, ∃ new, (f w).log = new ++ w.log ∧
      ∀ e ∈ new, e ≠ .resetRequest ∧ e ≠ .resetEnd)
    (reset : ∀ w, (f w).vars.bulkReset = w.vars.bulkReset) : KeepsWorking (modify f) :=
  Stays.modify fun w work => by
    obtain ⟨new, log, others⟩ := log w
    exact ⟨work.held.work work.clear log others (reset w), (reset w).trans work.clear⟩

theorem note_keepsWorking {e : Event} (other : e ≠ .resetRequest ∧ e ≠ .resetEnd) :
    KeepsWorking (note e) :=
  modify_keepsWorking (fun _ => ⟨[e], rfl, fun _ member => by rwa [List.mem_singleton.mp member]⟩)
    fun _ => rfl

theorem onVars_keepsWorking {f : Vars → Vars} (same : ∀ v, (f v).bulkReset = v.bulkReset) :
    KeepsWorking (onVars f) :=
  modify_keepsWorking (fun _ => ⟨[], rfl, List.forall_mem_nil _⟩) fun w => same w.vars

theorem onBus_keepsWorking (f : Rig → Rig) : KeepsWorking (onBus .task f) :=
  modify_keepsWorking (fun _ => ⟨_, rfl, portEvents_others _ _ _⟩) fun _ => rfl

theorem keepsWorking_of_framed {α : Type} {m : Fw α} (framed : Moves (Framed OfUsb) m) :
    KeepsWorking m := fun s work =>
  (framed s).mono
    (fun _ t moved => ⟨resetInvariant_of_streamed (.of_framed moved) work.held,
      by rw [moved.vars]; exact work.clear⟩)
    fun t moved => resetInvariant_of_streamed (.of_framed moved) work.held

theorem undefinedBehaviour_keepsWorking {α : Type} :
    KeepsWorking (undefinedBehaviour : Fw α) :=
  (note_keepsWorking (e := .undefined) ⟨nofun, nofun⟩).bind fun _ => .stop fun _ work => work.held

theorem bulkAccess_keepsWorking (length : BitVec 32) : KeepsWorking (bulkAccess length) := by
  refine .bind .state fun w => ?_
  cases w.vars.bulkAccessFunc with
  | none => exact undefinedBehaviour_keepsWorking
  | some func =>
      refine (note_keepsWorking (e := .access func length) ⟨nofun, nofun⟩).bind fun _ => ?_
      dsimp only
      split
      · exact undefinedBehaviour_keepsWorking
      · exact modify_keepsWorking (fun _ => ⟨_, rfl, portEvents_others _ _ _⟩) fun _ => rfl

theorem beginTransfer_keepsWorking (func : Byte → AccessFunc) :
    KeepsWorking (beginTransfer func) := by
  refine .bind .state fun w => ?_
  dsimp only
  split
  · exact undefinedBehaviour_keepsWorking
  · exact .bind (onVars_keepsWorking fun _ => rfl) fun _ => .bind (onBus_keepsWorking _) fun _ =>
      onVars_keepsWorking fun _ => rfl

theorem deselect_keepsWorking : KeepsWorking deselect :=
  (note_keepsWorking (e := .finish) ⟨nofun, nofun⟩).bind fun _ => .bind .state fun _ =>
    onBus_keepsWorking _

theorem enterIdle_keepsWorking : KeepsWorking enterIdle := onVars_keepsWorking fun _ => rfl

theorem finishWrite_keepsWorking : KeepsWorking finishWrite :=
  deselect_keepsWorking.bind fun _ => enterIdle_keepsWorking

theorem finishRead_keepsWorking : KeepsWorking finishRead :=
  deselect_keepsWorking.bind fun _ => (keepsWorking_of_framed taskClearIn_framed).bind fun _ =>
    enterIdle_keepsWorking

/-! ## The tasks -/

/-- After a retry loop the code works on, or the loop was abandoned. -/
theorem stream_keepsReset {m : Fw Bool} (streamed : Moves Streamed m)
    (reset : ∀ s, wp m
      (fun ok t => (ok = true → s.vars.bulkReset = 0#32 → t.vars.bulkReset = 0#32) ∧
        (ok = false → t.vars.bulkReset ≠ 0#32)) Anywhere s)
    {rest : Fw Unit} (works : KeepsWorking rest) (s : World) (work : Working s) :
    wp (m >>= fun ok => if ok = true then rest else pure ()) (fun _ t => ResetInvariant t)
      ResetInvariant s := by
  refine wp.bind (((streamed s).and (reset s)).mono (fun _ _ ends => ends) fun t cut =>
    resetInvariant_of_streamed cut.1 work.held) fun ok t ends => ?_
  have held := resetInvariant_of_streamed ends.1 work.held
  rw [wp_ite]
  refine ⟨fun done => ?_, fun _ => held⟩
  exact (works t ⟨held, ends.2.1 done work.clear⟩).mono (fun _ _ work => work.held) fun _ cut => cut

theorem vueBulkWriteTask_keepsReset (s : World) (work : Working s) :
    wp vueBulkWriteTask (fun _ t => ResetInvariant t) ResetInvariant s := by
  have worked {m : Fw Unit} (works : KeepsWorking m) :
      wp m (fun _ t => ResetInvariant t) ResetInvariant s :=
    (works s work).mono (fun _ _ work => work.held) fun _ cut => cut
  rw [vueBulkWriteTask, wp_bind, wp_state, wp_ite, wp_ite]
  refine ⟨fun _ => worked (beginTransfer_keepsWorking _), fun _ => ⟨fun _ => ?_, fun _ =>
    worked finishWrite_keepsWorking⟩⟩
  refine stream_keepsReset (readStream_streamed storeBuffer (fun _ _ _ => ⟨_, _, rfl⟩) _)
    (readStream_reset storeBuffer (fun _ _ _ => rfl) _) ?_ s work
  exact (bulkAccess_keepsWorking _).bind fun _ => .bind (onVars_keepsWorking fun _ => rfl) fun _ =>
    .bind .state fun _ => .whenever fun _ => finishWrite_keepsWorking

theorem vueBulkReadTask_keepsReset (s : World) (work : Working s) :
    wp vueBulkReadTask (fun _ t => ResetInvariant t) ResetInvariant s := by
  have worked {m : Fw Unit} (works : KeepsWorking m) :
      wp m (fun _ t => ResetInvariant t) ResetInvariant s :=
    (works s work).mono (fun _ _ work => work.held) fun _ cut => cut
  rw [vueBulkReadTask, wp_bind, wp_state, wp_ite, wp_ite]
  refine ⟨fun _ => worked (beginTransfer_keepsWorking _), fun _ => ⟨fun _ => ?_, fun _ =>
    worked finishRead_keepsWorking⟩⟩
  refine wp.bind (bulkAccess_keepsWorking _ s work) fun _ t work => ?_
  refine stream_keepsReset (writeStream_streamed loadBuffer _) (writeStream_reset loadBuffer _) ?_
    t work
  exact .bind (onVars_keepsWorking fun _ => rfl) fun _ => .bind .state fun _ =>
    .whenever fun _ => finishRead_keepsWorking

theorem judgeCommand_keepsWorking : KeepsWorking judgeCommand := by
  refine .bind (onVars_keepsWorking fun _ => rfl) fun _ s work => ?_
  rw [wp_bind, wp_state, wp_ite, wp_ite]
  refine ⟨fun defined => ⟨fun _ => ?_, fun _ => ?_⟩, fun _ => ?_⟩
  · exact note_keepsWorking (e := .ignore _) ⟨nofun, nofun⟩ s work
  · rw [wp_of_value (startCommand_eq defined)]
    have log : (s.begun s.vars.curCommand).log = (portEvents .task s.board
        (vueWriteAddressFull s.vars.curCommand.start ⟨s.board, []⟩).seen ++
          [.accept s.vars.curCommand]) ++ s.log := by
      rw [List.append_assoc]
      rfl
    refine ⟨work.held.work work.clear log (fun e member => ?_) rfl, work.clear⟩
    rcases List.mem_append.mp member with port | accept
    · exact portEvents_others _ _ _ e port
    · rw [List.mem_singleton.mp accept]
      exact ⟨nofun, nofun⟩
  · have rejected : KeepsWorking (note (.reject s.vars.curCommand)) :=
      note_keepsWorking ⟨nofun, nofun⟩
    exact (rejected.bind fun _ => keepsWorking_of_framed refuseOut_framed) s work

theorem vueCommandTask_keepsReset (s : World) (work : Working s) :
    wp vueCommandTask (fun _ t => ResetInvariant t) ResetInvariant s := by
  rw [vueCommandTask, wp_bind, wp_state]
  have noted : KeepsWorking (note (.command s.vars.curCommand)) :=
    note_keepsWorking (by constructor <;> intro same <;> cases same)
  refine wp.bind (noted s work) fun _ t work => ?_
  exact stream_keepsReset (readStream_streamed storeCommand (fun _ _ _ => ⟨_, _, rfl⟩) _)
    (readStream_reset storeCommand (fun _ _ _ => rfl) _) judgeCommand_keepsWorking t work

theorem Event.quiet_of_poll {e : Event} (ok : e.ofPoll = true) :
    e.Quiet ∧ e ≠ .resetRequest := by
  cases e with
  | outReceived _ => exact ⟨⟨rfl, nofun⟩, nofun⟩
  | inReady _ => exact ⟨⟨rfl, nofun⟩, nofun⟩
  | operate _ _ => exact ⟨⟨rfl, nofun⟩, nofun⟩
  | _ => exact nomatch ok

theorem vueTask_keepsReset : KeepsReset vueTask := by
  have framed (s t : World) (framed : Framed OfUsb s t) : ResetInvariant s → ResetInvariant t :=
    resetInvariant_of_streamed (.of_framed framed)
  have keep : EndpointsKeep ResetInvariant ResetInvariant :=
    .of_framed (fun _ ok => note_keepsReset (Event.quiet_of_poll ok).1 (Event.quiet_of_poll ok).2)
      framed fun _ => id
  exact vueTask_stays keep <| keep.tasks_of_framed framed (fun _ => id)
    (fun s held clear _ => vueCommandTask_keepsReset s ⟨held, clear⟩)
    (fun s held clear _ => vueBulkWriteTask_keepsReset s ⟨held, clear⟩)
    fun s held clear _ => vueBulkReadTask_keepsReset s ⟨held, clear⟩

/-! ## The reset block -/

/-- The events of the reset block between its first and its last. -/
def Event.ofReset : Event → Bool
  | .port .main _ _ | .outReset => true
  | e => e.ofUsb

/-- What the reset block does before it clears the flag. -/
structure InBlock (s t : World) : Prop where
  log : Logs (fun e => e.ofReset = true) s t
  reset : SameReset s t

instance : IsPreorder World InBlock where
  refl s := ⟨.refl s, rfl⟩
  trans _ _ _ one two := ⟨one.log.trans two.log, trans_of SameReset one.reset two.reset⟩

theorem inBlock_of_framed {α : Type} {m : Fw α} (framed : Moves (Framed OfUsb) m) :
    Moves InBlock m :=
  framed.mono fun _ _ framed => ⟨framed.log.mono fun e ok => by
    cases e <;> first | exact ok | (exact nomatch ok), sameReset_of_framed framed⟩

theorem restoreDefaultState_inBlock : Moves InBlock restoreDefaultState := by
  have written : Moves InBlock (onBus .main writeDefaultState) := Moves.modify fun _ =>
    ⟨⟨_, rfl, fun e member => by
      obtain ⟨_, _, rfl⟩ := portEvents_kind _ _ _ e member
      rfl⟩, rfl⟩
  have noted : Moves InBlock (note .outReset) := Moves.modify fun _ => ⟨.one rfl rfl, rfl⟩
  have reset (address : Nat) := inBlock_of_framed (endpointResetEndpoint_framed .main address)
  have clear (address : Nat) := inBlock_of_framed (clearEndpointStall_framed address)
  exact written.bind fun _ => .bind (Moves.modify fun _ => ⟨.none rfl, rfl⟩) fun _ =>
    (reset _).bind fun _ => noted.bind fun _ => (reset _).bind fun _ => (clear _).bind fun _ =>
      (clear _).bind fun _ => inBlock_of_framed endpointAbortPendingIn_framed

theorem Event.quiet_of_reset {e : Event} (ok : e.ofReset = true) :
    e.Quiet ∧ e ≠ .resetRequest := by
  cases e with
  | port actor _ _ =>
      cases actor with
      | main => exact ⟨⟨rfl, nofun⟩, nofun⟩
      | task => exact nomatch ok
      | control => exact nomatch ok
  | access _ _ => exact nomatch ok
  | accept _ => exact nomatch ok
  | resetRequest => exact nomatch ok
  | resetEnd => exact nomatch ok
  | _ => exact ⟨⟨rfl, nofun⟩, nofun⟩

/-- The reset block clears a flag that was set before it began. -/
theorem resetBlock_keepsReset : KeepsReset resetBlock := by
  intro s held
  have begun : KeepsReset (note .resetBegin) := note_keepsReset ⟨rfl, nofun⟩ nofun
  have open_ := begun s held
  rw [resetBlock, wp_bind]
  -- inside the block no request is served and nothing is cleared
  have inside {t : World} (moved : InBlock { s with log := .resetBegin :: s.log } t) :
      ResetInvariant t := by
    obtain ⟨inner, log, all⟩ := moved.log
    have quiet (e : Event) (member : e ∈ inner) := Event.quiet_of_reset (all e member)
    refine ResetInvariant.of_quiet (s := { s with log := .resetBegin :: s.log }) open_ inner log
      (fun e member => (quiet e member).1) ?_
    rw [resetRequested_eq_false fun e member => (quiet e member).2]
    exact moved.reset
  refine wp.bind ((restoreDefaultState_inBlock _).mono (fun _ _ moved => moved)
    fun t moved => inside moved) fun _ t moved => ?_
  have held := inside moved
  obtain ⟨inner, log, all⟩ := moved.log
  refine ⟨⟨fun set => absurd rfl set, nofun⟩,
    ⟨nofun, fun _ => ⟨inner, s.log, log, fun member => ?_⟩⟩,
    held.log⟩
  exact (Event.quiet_of_reset (all _ member)).2 rfl

theorem mainLoop_keepsReset (inputs : List Input) : KeepsReset (mainLoop inputs) :=
  mainLoop_stays inputs (fun _ _ _ held => ⟨held.pending, held.log⟩)
    (mainIteration_stays
      (.of_moves usbUsbTask_served
        (fun _ _ served => resetInvariant_of_streamed (.of_served served))
        fun _ => id)
      vueTask_keepsReset fun s held _ => resetBlock_keepsReset s held)

theorem Started.resetInvariant {w : World} (started : Started w) : ResetInvariant w := by
  obtain ⟨_, _, _, _, _, rfl⟩ := started
  have set : (0xFFFFFFFF#32 : BitVec 32) ≠ 0#32 := by decide
  exact ⟨⟨fun _ => rfl, fun _ => set⟩, trivial⟩

/-! ## Requests that set the flag -/

/-- A request to reset is processed. -/
def Event.asksReset : Event → Bool
  | .request header _ _ => header.resets
  | _ => false

/-- In a piece of log every request to reset has set `bulk_reset` at once. -/
def Heeded (log : List Event) : Prop :=
  ∀ later e earlier, log = later ++ e :: earlier → e.asksReset = true →
    ∃ rest, later = rest ++ [.resetRequest]

theorem Heeded.of_none {log : List Event} (none_ : ∀ e ∈ log, e.asksReset = false) :
    Heeded log := by
  intro later e earlier split asks
  rw [none_ e (by rw [split]; exact List.mem_append_right _ (List.mem_cons_self ..))] at asks
  cases asks

theorem Heeded.append {newer older : List Event} (late : Heeded newer) (early : Heeded older) :
    Heeded (newer ++ older) := by
  intro later e earlier split asks
  rcases List.append_eq_append_iff.mp split with ⟨mid, rfl, rest⟩ | ⟨mid, new, rest⟩
  · obtain ⟨before, rfl⟩ := early mid e earlier rest asks
    exact ⟨newer ++ before, (List.append_assoc ..).symm⟩
  · cases mid with
    | nil =>
        obtain ⟨before, none_⟩ := early [] e earlier rest.symm asks
        exact absurd none_.symm (List.concat_ne_nil _ _)
    | cons f mid =>
        obtain ⟨rfl, -⟩ := List.cons.inj rest
        exact late later e mid new asks

/-- A request and what it asks for. -/
theorem Heeded.pair (e : Event) : Heeded [.resetRequest, e] := by
  intro later f earlier split asks
  cases later with
  | nil =>
      obtain ⟨rfl, -⟩ := List.cons.inj split
      cases asks
  | cons first later =>
      obtain ⟨rfl, rest⟩ := List.cons.inj split
      cases later with
      | nil => exact ⟨[], rfl⟩
      | cons second later => simp at rest

/-- The log has grown, and the requests to reset among what is new have set `bulk_reset`. -/
def Heeds (s t : World) : Prop := ∃ new, t.log = new ++ s.log ∧ Heeded new

namespace Heeds

theorem of_logs {s t : World} (logs : Logs (fun e => e.asksReset = false) s t) : Heeds s t := by
  obtain ⟨new, log, none_⟩ := logs
  exact ⟨new, log, .of_none none_⟩

theorem trans {s t u : World} (one : Heeds s t) (two : Heeds t u) : Heeds s u := by
  obtain ⟨first, log, early⟩ := one
  obtain ⟨second, log', late⟩ := two
  exact ⟨second ++ first, by rw [log', log, List.append_assoc], late.append early⟩

instance : IsPreorder World Heeds where
  refl s := .of_logs (.refl s)
  trans _ _ _ := trans

theorem of_framed {s t : World} (framed : Framed OfUsb s t) : Heeds s t :=
  .of_logs (framed.log.mono fun e ok => by cases e <;> first | rfl | cases ok)

/-- Port accesses ask for nothing. -/
theorem of_ports {s t : World} {by_ : Actor} {start : Board} {trace : List Board}
    (log : t.log = portEvents by_ start trace ++ s.log) : Heeds s t :=
  .of_logs ⟨_, log, fun e member => by
    obtain ⟨_, _, rfl⟩ := portEvents_kind _ _ _ e member
    rfl⟩

end Heeds

/-- What a request to reset leaves behind: the flag is set, and the tasks find everything else as
it was. -/
structure Requested (s t : World) : Prop where
  board : t.board = s.board
  vars : t.vars = { s.vars with bulkReset := 0xFFFFFFFF#32 }
  heeds : Heeds s t

theorem Requested.framed {s t u : World} (requested : Requested s t) (framed : Framed OfUsb t u) :
    Requested s u :=
  ⟨framed.board.trans requested.board, framed.vars.trans requested.vars,
    requested.heeds.trans (.of_framed framed)⟩

/-- **A request to reset sets the flag**, whenever it is processed. -/
theorem usbDeviceProcessControlRequest_requested {s : World}
    (resets : s.usb.controlRequest.resets = true) :
    wp usbDeviceProcessControlRequest (fun _ t => Requested s t) (Requested s) s := by
  rw [usbDeviceProcessControlRequest, wp_bind, wp_state, note, wp_bind, wp_modify]
  have handled (mark : Event) : wp eventUsbDeviceControlRequest (fun _ t => Requested s t)
      (Requested s) { s with log := mark :: s.log } := by
    have asked : Requested s
        { s.acknowledged with
          vars := { s.vars with bulkReset := 0xFFFFFFFF#32 }
          log := .resetRequest :: mark :: s.log } :=
      ⟨rfl, rfl, [.resetRequest, mark], rfl, .pair mark⟩
    have run := eventUsbDeviceControlRequest_of_resets (s := { s with log := mark :: s.log }) resets
    exact (wp_congr run).mpr ((endpointClearStatusStage_framed _).mono
      (fun _ _ framed => asked.framed framed) fun _ framed => asked.framed framed)
  refine wp.bind (handled _) fun _ t requested => ?_
  exact (standardRequests_framed t).mono (fun _ _ framed => requested.framed framed)
    fun _ framed => requested.framed framed

theorem usbDeviceProcessControlRequest_heeds : Moves Heeds usbDeviceProcessControlRequest := by
  intro s
  by_cases resets : s.usb.controlRequest.resets = true
  · exact (usbDeviceProcessControlRequest_requested resets).mono
      (fun _ _ requested => requested.heeds) fun _ requested => requested.heeds
  · rw [usbDeviceProcessControlRequest, wp_bind, wp_state, note, wp_bind, wp_modify]
    have noted (state : FsmState) (address : BitVec 32) : Heeds s
        { s with log := .request s.usb.controlRequest state address :: s.log } :=
      .of_logs (.one rfl (Bool.eq_false_iff.mpr resets))
    have handler : Moves Heeds eventUsbDeviceControlRequest :=
      eventUsbDeviceControlRequest_moves (fun _ _ => Heeds.of_framed)
        (Moves.modify fun _ => .of_logs (.one rfl rfl)) (Moves.modify fun _ => .of_ports rfl)
    have rest := handler.bind fun _ => standardRequests_framed.mono fun _ _ => Heeds.of_framed
    exact (rest _).mono (fun _ _ heeds => (noted _ _).trans heeds)
      fun _ heeds => (noted _ _).trans heeds

/-- Nothing but the processing of a request records one. -/
theorem heeds_rounds : RoundPartsKeep Heeds := by
  have framed {α : Type} {m : Fw α} (framed : Moves (Framed OfUsb) m) : Moves Heeds m :=
    framed.mono fun _ _ => .of_framed
  have noted {e : Event} (ok : e.asksReset = false) : Moves Heeds (note e) :=
    Moves.modify fun _ => .of_logs (.one rfl ok)
  have mark (e : Event) (ok : e.ofFirmware = true) : Moves Heeds (note e) :=
    noted (by cases e <;> first | rfl | cases ok)
  have bus (by_ : Actor) (f : Rig → Rig) : Moves Heeds (onBus by_ f) :=
    Moves.modify fun _ => .of_ports rfl
  have silent (f : World → World) (same : ∀ w, (f w).log = w.log) : Moves Heeds (modify f) :=
    Moves.modify fun w => .of_logs (.none (same w))
  exact
    { usbTask := usbUsbTask_moves (fun _ _ => .of_framed) (fun _ _ => .of_logs (.none rfl))
        usbDeviceProcessControlRequest_heeds
      moment := framed moment_framed
      select := fun address => framed (endpointSelectEndpoint_framed address)
      stall := framed endpointStallTransaction_framed
      clearStall := framed endpointClearStall_framed
      offer := fun i => silent _ fun _ => rfl
      mark := mark
      vars := fun f => silent _ fun _ => rfl
      latch := fun address => bus _ _
      restore := bus _ _
      access := bulkAccess_moves mark fun _ _ _ _ _ => .of_ports rfl
      free := fun by_ => framed (freeOut_framed by_)
      resetIn := framed (onUsb_framed _)
      clearIn := framed endpointClearIn_framed
      abort := framed endpointAbortPendingIn_framed
      take := by
        refine .bind .state fun w => ?_
        split
        · rename_i x rest _
          exact (framed (onUsb_framed _)).bind fun _ => (noted rfl).bind fun _ => .pure x
        · exact .pure _
      give := fun x => (framed (onUsb_framed _)).bind fun _ => noted rfl }

/-- In every run the requests to reset have set `bulk_reset`. -/
theorem Started.heeded {start : World} (started : Started start) (inputs : List Input) :
    Heeded (mainLoop inputs start).state.log := by
  obtain ⟨new, log, heeded⟩ := wp.exit (heeds_rounds.mainLoop inputs start)
  obtain ⟨_, _, _, _, _, rfl⟩ := started
  rw [log, show (World.started _ _ _ _ _).log = [] from rfl, List.append_nil]
  exact heeded

/-! ## The default state -/

/-- The default state: no task, the bus at rest with all flags high, nothing for the
host to collect and no endpoint stalled. -/
structure World.InDefaultState (w : World) : Prop where
  idle : w.vars.curVueState = .idle
  resting : w.board.Resting
  flags : w.board.flagLatch = flagBits allFlags
  collected : w.usb.inBank = [] ∧ w.usb.inBusy = false
  halted : w.usb.outStalled = false ∧ w.usb.inStalled = false

/-- An endpoint is halted. -/
def Usb.halted (u : Usb) (endpoint : Nat) : Bool := { u with selected := endpoint }.isStalled

theorem setStalled_cases (u : Usb) : u.setStalled false = u ∨
    u.setStalled false = { u with outStalled := false } ∨
      u.setStalled false = { u with inStalled := false } := by
  unfold Usb.setStalled
  split
  · exact .inr (.inl rfl)
  · split
    · exact .inr (.inr rfl)
    · exact .inl rfl

/-- Clearing some stall halts no endpoint. -/
theorem Usb.unstalled_halted {u : Usb} {address : Nat} (clear : u.halted address = false) :
    (u.setStalled false).halted address = false := by
  unfold Usb.halted Usb.isStalled at *
  rcases setStalled_cases u with same | same | same <;> rw [same] <;> split at clear <;> simp_all

/-- After a bus reset no endpoint is halted. -/
theorem Usb.halted_reset (u : Usb) (address : Nat) :
    (u.interrupted .endOfReset).halted address = false := by
  unfold Usb.halted Usb.isStalled
  split
  · rfl
  · split <;> rfl

/-- After its endpoint has been selected, a stall is cleared, by the operation or by a
bus reset that comes before it. -/
theorem clearEndpointStall_halted (address : Nat) (s : World) :
    wp (clearEndpointStall address) (fun _ t => t.usb.halted address = false) Anywhere s := by
  have waited := moment_usb (P := fun u => u.selected = address ∨ u.halted address = false)
    (fun _ _ => id) (fun _ => id) fun u i held => by
      cases i with
      | endOfReset => exact .inr (Usb.halted_reset u address)
      | suspend => exact held
      | wakeUp => exact held
  rw [clearEndpointStall, endpointSelectEndpoint, onUsb, wp_bind, wp_modify]
  refine wp.bind (waited _ (.inl rfl)) fun _ t held => ?_
  show (t.usb.setStalled false).halted address = false
  rcases held with here | clear
  · unfold Usb.setStalled Usb.halted Usb.isStalled
    rw [here]
    split <;> simp_all
  · exact Usb.unstalled_halted clear

theorem endpointResetEndpoint_in (by_ : Actor) (s : World) :
    wp (endpointResetEndpoint by_ vueCartReaderInEpAddr)
      (fun _ t => t.usb.inBank = [] ∧ t.usb.inBusy = false) Anywhere s :=
  wp.bind (wp_trivial _) fun _ _ _ => ⟨rfl, rfl⟩

/-- What the end of the reset block leaves true of the controller. -/
structure LeftAlone (P : Usb → Prop) : Prop where
  out : ∀ u packet, P u → P { u with outBank := some packet }
  collect : ∀ u : Usb, P u → P { u with inBank := [], inBusy := false }
  interrupt : ∀ u i, P u → P (u.interrupted i)
  select : ∀ u x, P u → P { u with selected := x }
  unstall : ∀ u : Usb, P u → P (u.setStalled false)

namespace LeftAlone

variable {P : Usb → Prop} (alone : LeftAlone P)
include alone

theorem clearEndpointStall (address : Nat) :
    Stays (fun w => P w.usb) Anywhere (clearEndpointStall address) :=
  .bind (.modify fun w => alone.select w.usb address) fun _ =>
    (moment_usb alone.out alone.collect alone.interrupt).bind fun _ =>
      .modify fun w => alone.unstall w.usb

theorem endpointAbortPendingIn : Stays (fun w => P w.usb) Anywhere endpointAbortPendingIn :=
  (moment_usb alone.out alone.collect alone.interrupt).bind fun _ => .modify fun w held => by
    dsimp only
    split
    · exact alone.collect w.usb held
    · exact held

end LeftAlone

theorem collected_leftAlone : LeftAlone fun u => u.inBank = [] ∧ u.inBusy = false where
  out _ _ := id
  collect _ _ := ⟨rfl, rfl⟩
  interrupt u i held := by cases i <;> first | exact held | exact ⟨rfl, rfl⟩
  select _ _ := id
  unstall u held := by rcases setStalled_cases u with eq | eq | eq <;> rw [eq] <;> exact held

theorem unhalted_leftAlone (address : Nat) : LeftAlone fun u => u.halted address = false where
  out _ _ := id
  collect _ := id
  interrupt u i held := by
    cases i with
    | endOfReset => exact Usb.halted_reset u address
    | suspend => exact held
    | wakeUp => exact held
  select _ _ := id
  unstall _ := Usb.unstalled_halted

/-- The board after the default state has been written. -/
theorem restoreDefaultState_board {s : World} (ready : s.BusReady) :
    wp restoreDefaultState
      (fun _ t => t.vars.curVueState = .idle ∧
        t.board = s.board.addressed allFlags) Anywhere s := by
  obtain ⟨-, board⟩ := writeDefaultState_run ready.resting ready.selects
  rw [restoreDefaultState, onBus, wp_bind, wp_modify, enterIdle, onVars, wp_bind, wp_modify]
  let P (t : World) : Prop := t.vars.curVueState = .idle ∧ t.board = s.board.addressed allFlags
  have kept {α : Type} {m : Fw α} (framed : Moves (Framed OfUsb) m) : Stays P Anywhere m :=
    .of_moves framed (fun _ _ framed held => ⟨by rw [framed.vars]; exact held.1,
      framed.board.trans held.2⟩) fun _ _ => trivial
  have reset (address : Nat) := kept (endpointResetEndpoint_framed .main address)
  have clear (address : Nat) := kept (clearEndpointStall_framed address)
  have noted : Stays P Anywhere (note .outReset) := Stays.modify fun _ => id
  exact ((reset _).bind fun _ => noted.bind fun _ => (reset _).bind fun _ => (clear _).bind fun _ =>
    (clear _).bind fun _ => kept endpointAbortPendingIn_framed) _ ⟨rfl, board⟩

/-- **The default state is restored**, whatever the host does meanwhile. -/
theorem restoreDefaultState_spec {s : World} (ready : s.BusReady) :
    wp restoreDefaultState (fun _ t => t.InDefaultState) Anywhere s := by
  obtain ⟨run, board⟩ := writeDefaultState_run ready.resting ready.selects
  rw [restoreDefaultState, onBus, wp_bind, wp_modify, enterIdle, onVars, wp_bind, wp_modify]
  -- from here on only the endpoints are operated
  let P (t : World) : Prop := t.vars.curVueState = .idle ∧ t.board = s.board.addressed allFlags
  have kept {α : Type} {m : Fw α} (framed : Moves (Framed OfUsb) m) : Stays P Anywhere m :=
    .of_moves framed (fun _ _ framed held => ⟨by rw [framed.vars]; exact held.1,
      framed.board.trans held.2⟩) fun _ _ => trivial
  refine wp.bind (kept (endpointResetEndpoint_framed .main vueCartReaderOutEpAddr) _ ⟨rfl, board⟩)
    fun _ t held => ?_
  rw [note, wp_bind, wp_modify]
  have emptied := (kept (endpointResetEndpoint_framed .main vueCartReaderInEpAddr)
    { t with log := .outReset :: t.log } held).and (endpointResetEndpoint_in .main _)
  refine wp.bind (emptied.mono (fun _ _ ends => ends) fun _ _ => trivial) fun _ u ends => ?_
  have first := (clearEndpointStall_halted vueCartReaderOutEpAddr u).and
    ((kept (clearEndpointStall_framed vueCartReaderOutEpAddr)).and
      (collected_leftAlone.clearEndpointStall vueCartReaderOutEpAddr) u ends)
  refine wp.bind (first.mono (fun _ _ ends => ends) fun _ _ => trivial) fun _ v cleared => ?_
  obtain ⟨out, ends⟩ := cleared
  have second := (clearEndpointStall_halted vueCartReaderInEpAddr v).and
    (((kept (clearEndpointStall_framed vueCartReaderInEpAddr)).and
      (collected_leftAlone.clearEndpointStall vueCartReaderInEpAddr)).and
        ((unhalted_leftAlone vueCartReaderOutEpAddr).clearEndpointStall vueCartReaderInEpAddr)
          v ⟨ends, out⟩)
  refine wp.bind (second.mono (fun _ _ ends => ends) fun _ _ => trivial) fun _ x cleared => ?_
  obtain ⟨in_, ends, out⟩ := cleared
  have third := ((kept endpointAbortPendingIn_framed).and
    collected_leftAlone.endpointAbortPendingIn).and
      ((unhalted_leftAlone vueCartReaderOutEpAddr).endpointAbortPendingIn.and
        (unhalted_leftAlone vueCartReaderInEpAddr).endpointAbortPendingIn) x ⟨ends, out, in_⟩
  refine third.mono (fun _ y ends => ?_) fun _ _ => trivial
  obtain ⟨⟨⟨idle, board⟩, collected⟩, out, in_⟩ := ends
  exact ⟨idle, by rw [board]; exact ready.resting.addressed _, by rw [board]; rfl, collected,
    out, in_⟩

theorem resetBlock_spec {s : World} (ready : s.BusReady) :
    wp resetBlock (fun _ t => t.InDefaultState ∧ t.vars.bulkReset = 0#32) Anywhere s := by
  rw [resetBlock, note, wp_bind, wp_modify]
  exact wp.bind (restoreDefaultState_spec ⟨ready.resting, ready.selects, ready.header⟩)
    fun _ t held => ⟨⟨held.idle, held.resting, held.flags, held.collected, held.halted⟩, rfl⟩

/-! ## Runs -/

/-- A request to reset is never lost on the way through `USB_USBTask`. -/
theorem usbUsbTask_reset {s p : World} (run : usbUsbTask s = .value () p)
    (set : s.vars.bulkReset ≠ 0#32) : p.vars.bulkReset ≠ 0#32 := by
  obtain ⟨new, -, -, reset, -⟩ := ((usbUsbTask_served s).of_value run).log
  rw [reset]
  split
  · decide
  · exact set

/-- A round that finds `bulk_reset` set is the reset block. -/
theorem mainIteration_of_reset {s p : World} (run : usbUsbTask s = .value () p)
    (set : p.vars.bulkReset ≠ 0#32) : mainIteration s = resetBlock p := by
  rw [mainIteration, bind_of_value run, state_bind, bind_of_value (vueTask_of_reset set), whenever,
    if_pos set]

/-- While a reset is due there is no bulk work: from the request on, up to the end of a reset
block. -/
theorem ResetInvariant.idles {w : World} (held : ResetInvariant w) (heeded : Heeded w.log)
    {after before earlier : List Event} {e request : Event}
    (log : w.log = (after ++ e :: before) ++ request :: earlier) (asks : request.asksReset = true)
    (open_ : .resetEnd ∉ before) : e.bulkWork = false := by
  by_contra works
  rw [Bool.not_eq_false] at works
  obtain ⟨rest, late⟩ := heeded _ _ _ log asks
  have free := (held.log.split (by rw [log, List.append_assoc, List.cons_append])).1 works
  rcases List.eq_nil_or_concat before with rfl | ⟨front, last, rfl⟩
  · obtain ⟨-, same⟩ := List.append_inj' late rfl
    obtain rfl : e = .resetRequest := (List.cons.inj same).1
    cases works
  · rw [List.concat_eq_append] at late open_ free
    rw [show after ++ e :: (front ++ [last]) = (after ++ e :: front) ++ [last] by
      rw [List.append_assoc, List.cons_append]] at late
    obtain ⟨-, same⟩ := List.append_inj' late rfl
    obtain rfl : last = .resetRequest := (List.cons.inj same).1
    rw [List.append_assoc, resetPending_append fun f member ends => open_ <| by
      rw [← ends]
      exact List.mem_append_left _ member] at free
    exact absurd (show (resetRequested front || true) = false from free) (by simp)

/-- **A request to reset aborts bulk work at once and is never lost.** Serving one sets
`bulk_reset`, in whatever state. In every run, finished or cut, and whether it was served at
the top of a round or in the middle of a stream call: a request has set the flag at once, and
until a reset block has ended no task touches the cartridge or accepts a command; every reset
block that ends has begun after the last request; and `bulk_reset` is set exactly while a reset
is due. A flag that is set when a round begins is set after `USB_USBTask`; a round with the flag
set after `USB_USBTask` goes on as the reset block, and when that returns the default state is
restored. -/
theorem reset_honoured {start w : World} (started : Started start) (inputs : List Input)
    (reached : (mainLoop inputs start).state = w) :
    (∀ (transfer : ControlTransfer) (s : World), transfer.header.resets = true →
      wp (serveSetup (some transfer)) (fun _ t => t.vars.bulkReset ≠ 0#32)
        (fun t => t.vars.bulkReset ≠ 0#32) s) ∧
    (∀ later header state bulkAddress earlier,
      w.log = later ++ .request header state bulkAddress :: earlier → header.resets = true →
        (∃ rest, later = rest ++ [.resetRequest]) ∧
          ∀ after e before, later = after ++ e :: before → .resetEnd ∉ before →
            e.bulkWork = false) ∧
    (∀ later e earlier, w.log = later ++ e :: earlier → e.bulkWork = true →
      resetPending earlier = false) ∧
    (∀ later earlier, w.log = later ++ .resetEnd :: earlier →
      ∃ inner older, earlier = inner ++ .resetBegin :: older ∧ .resetRequest ∉ inner) ∧
    (w.vars.bulkReset ≠ 0#32 ↔ resetPending w.log = true) ∧
    ∀ i p, mainLoop inputs start = .value () w → usbUsbTask (w.offer i) = .value () p →
      (w.vars.bulkReset ≠ 0#32 → p.vars.bulkReset ≠ 0#32) ∧
      (p.vars.bulkReset ≠ 0#32 → mainIteration (w.offer i) = resetBlock p ∧
        ∀ t, resetBlock p = .value () t → t.InDefaultState ∧ t.vars.bulkReset = 0#32) := by
  subst reached
  have held := (mainLoop_keepsReset inputs).exit (fun _ => id) started.resetInvariant
  have heeded := started.heeded inputs
  have safe := (mainLoop_keepsBus inputs).exit (fun _ => id) started.busInvariant
  refine ⟨fun transfer s resets => ?_, fun later header state bulkAddress earlier log resets => ?_,
    fun _ _ _ eq => (held.log.split eq).1, fun _ _ eq => (held.log.split eq).2 rfl,
    held.pending, fun i p _ run => ⟨fun set =>
      usbUsbTask_reset (s := (mainLoop inputs start).state.offer i) run set, fun set =>
        ⟨mainIteration_of_reset run set, fun t ended => ?_⟩⟩⟩
  · have set {t : World} (vars : t.vars = { s.vars with bulkReset := 0xFFFFFFFF#32 }) :
        t.vars.bulkReset ≠ 0#32 := by
      rw [vars]
      show (0xFFFFFFFF#32 : BitVec 32) ≠ 0#32
      decide
    rw [serveSetup, onUsb, wp_bind, wp_modify]
    exact (usbDeviceProcessControlRequest_requested resets).mono
      (fun _ _ requested => set requested.vars) fun _ requested => set requested.vars
  · refine ⟨heeded _ _ _ log resets, fun after e before split open_ => ?_⟩
    rw [split] at log
    exact held.idles heeded log resets open_
  · have offered : ((mainLoop inputs start).state.offer i).BusReady :=
      ⟨⟨safe.ready.resting.low, safe.ready.resting.idle⟩, safe.ready.selects, safe.ready.header⟩
    have ready := ((usbUsbTask_served _).of_value run).ready offered
    exact (resetBlock_spec ready).of_value ended

/-- A word is being written when a reset is requested, between its two bytes. -/
def abortedWorld : World := wordEnd (some resetTransfer)

/-- The next round is the reset block. -/
def restoredWorld : World := (mainIteration (abortedWorld.offer (quietInput 8))).state

theorem abortedWorld_request : ∃ state bulkAddress, abortedWorld.log =
    abortedWorld.log.take 9 ++ .request resetTransfer.header state bulkAddress ::
      abortedWorld.log.drop 10 := by
  have found : (abortedWorld.log[9]?.bind Event.requested).map Prod.fst =
      some resetTransfer.header := by decide +kernel
  obtain ⟨r, requested, header⟩ := Option.map_eq_some_iff.mp found
  obtain ⟨e, entry, requested⟩ := Option.bind_eq_some_iff.mp requested
  cases e with
  | request header' state bulkAddress =>
      cases requested
      refine ⟨state, bulkAddress, ?_⟩
      rw [← header]
      exact log_split entry
  | _ => cases requested

/-- The write is left where it is, and the next round restores the default state. -/
theorem reset_honoured_write :
    (∃ rest, abortedWorld.log.take 9 = rest ++ [.resetRequest]) ∧
      (∀ e ∈ abortedWorld.log.take 9, e.bulkWork = false) ∧
      abortedWorld.vars.curVueState = .write ∧ restoredWorld.InDefaultState := by
  have reached : mainLoop (wordInputs (some resetTransfer)) wordStart = .value () abortedWorld :=
    Exit.eq_value (by decide +kernel)
  have polled : usbUsbTask (abortedWorld.offer (quietInput 8)) =
      .value () (usbUsbTask (abortedWorld.offer (quietInput 8))).state :=
    Exit.eq_value (by decide +kernel)
  have ended : mainIteration (abortedWorld.offer (quietInput 8)) = .value () restoredWorld :=
    Exit.eq_value (by decide +kernel)
  have writing : abortedWorld.vars.curVueState = .write ∧ abortedWorld.vars.bulkReset ≠ 0#32 := by
    decide +kernel
  obtain ⟨state, bulkAddress, log⟩ := abortedWorld_request
  obtain ⟨-, requested, -, -, -, rounds⟩ := reset_honoured wordStart_started
    (wordInputs (some resetTransfer)) (w := abortedWorld) rfl
  obtain ⟨set, idles⟩ := requested _ _ _ _ _ log (by decide)
  obtain ⟨still, restores⟩ := rounds _ _ reached polled
  obtain ⟨round, restores⟩ := restores (still writing.2)
  refine ⟨set, fun e member => ?_, writing.1, (restores _ (round.symm.trans ended)).1⟩
  obtain ⟨after, before, split⟩ := List.append_of_mem member
  have open_ : ∀ f ∈ abortedWorld.log.take 9, f.marksReset = false := by decide +kernel
  refine idles after e before split fun ends => ?_
  exact Bool.noConfusion (open_ .resetEnd (by
    rw [split]
    exact List.mem_append_right _ (List.mem_cons_of_mem _ ends)))

end VueCartReader
