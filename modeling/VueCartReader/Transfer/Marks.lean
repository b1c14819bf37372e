import VueCartReader.Transfer.Delivery

/-!
# The marks of the reset block

The reset block records when it begins, when it has emptied the OUT bank and when it ends.
No other code does: a round of the main loop that is not the reset block leaves no such mark
in the log (`vueTask_unmarked`, `usbUsbTask_unmarked`).
-/

set_option autoImplicit false

namespace VueCartReader

open Program

/-- The log has grown, but not by a mark of the reset block. -/
abbrev Unmarked (s t : World) : Prop := Logs (fun e => e.marksReset = false) s t

theorem marksReset_of_stream {e : Event} (ok : e.ofStream = true) : e.marksReset = false := by
  cases e <;> first | rfl | cases ok

/-- No stream call leaves such a mark. -/
theorem unmarked_of_streamed {s t : World} (streamed : Streamed s t) : Unmarked s t := by
  obtain ⟨new, log, all, -⟩ := streamed.log
  exact ⟨new, log, fun e member => marksReset_of_stream (all e member)⟩

theorem unmarked_of_framed {s t : World} (framed : Framed OfUsb s t) : Unmarked s t :=
  unmarked_of_streamed (.of_framed framed)

theorem note_unmarked {e : Event} (ok : e.marksReset = false) : Moves Unmarked (note e) :=
  Moves.modify fun _ => .one rfl ok

theorem onVars_unmarked (f : Vars → Vars) : Moves Unmarked (onVars f) :=
  Moves.modify fun _ => .none rfl

theorem works_unmarked {α : Type} {m : Fw α} (works : Moves Works m) : Moves Unmarked m :=
  works.mono fun _ _ works => works.log.mono fun e ok => by cases e <;> first | rfl | cases ok

/-! ## The tasks -/

theorem vueBulkWriteTask_unmarked : Moves Unmarked vueBulkWriteTask := by
  have received := readStream_streamed storeBuffer (fun _ _ _ => ⟨_, _, rfl⟩)
  refine .bind .state fun w => .ite (fun _ => works_unmarked (beginTransfer_works _)) fun _ =>
    .ite (fun _ => ?_) fun _ => works_unmarked finishWrite_works
  exact ((received _).mono fun _ _ => unmarked_of_streamed).bind fun _ =>
    .ite (fun _ => works_unmarked (storeChunk_works _)) fun _ => .pure _

theorem vueBulkReadTask_unmarked : Moves Unmarked vueBulkReadTask := by
  have finish : Moves Unmarked finishRead :=
    (works_unmarked deselect_works).bind fun _ =>
      (taskClearIn_framed.mono fun _ _ => unmarked_of_framed).bind fun _ => onVars_unmarked _
  refine .bind .state fun w => .ite (fun _ => works_unmarked (beginTransfer_works _)) fun _ =>
    .ite (fun _ => ?_) fun _ => finish
  refine (works_unmarked (bulkAccess_works _)).bind fun _ =>
    ((writeStream_streamed loadBuffer _).mono fun _ _ => unmarked_of_streamed).bind fun _ =>
      .ite (fun _ => ?_) fun _ => .pure _
  exact (onVars_unmarked _).bind fun _ => .bind .state fun _ => .whenever fun _ => finish

theorem vueCommandTask_unmarked : Moves Unmarked vueCommandTask := by
  have started (c : VueCommand) : Moves Unmarked (startCommand c) := by
    refine (note_unmarked rfl).bind fun _ => (onVars_unmarked _).bind fun _ =>
      .bind .state fun w => ?_
    split
    · exact vueBulkReadTask_unmarked
    · exact vueBulkWriteTask_unmarked
    · exact .pure _
  have judged : Moves Unmarked judgeCommand :=
    (onVars_unmarked _).bind fun _ => .bind .state fun _ =>
      .ite (fun _ => .ite (fun _ => note_unmarked rfl) fun _ => started _) fun _ =>
        (note_unmarked rfl).bind fun _ => refuseOut_framed.mono fun _ _ => unmarked_of_framed
  have received := readStream_streamed storeCommand (fun _ _ _ => ⟨_, _, rfl⟩)
  exact .bind .state fun _ => (note_unmarked rfl).bind fun _ =>
    ((received _).mono fun _ _ => unmarked_of_streamed).bind fun _ =>
      .ite (fun _ => judged) fun _ => .pure _

/-- No task leaves such a mark. -/
theorem vueTask_unmarked : Moves Unmarked vueTask := by
  refine Stays.moves fun s => ?_
  have framed (t u : World) (framed : Framed OfUsb t u) (held : Unmarked s t) : Unmarked s u :=
    held.trans (unmarked_of_framed framed)
  have keep : EndpointsKeep (Unmarked s) (Unmarked s) :=
    .of_framed
      (fun e ok => .of_transitive (note_unmarked (by cases e <;> first | rfl | cases ok)) s)
      framed fun _ => id
  exact vueTask_stays keep <| keep.tasks_of_framed framed (fun _ => id)
    (fun t held _ _ => Stays.of_transitive vueCommandTask_unmarked s t held)
    (fun t held _ _ => Stays.of_transitive vueBulkWriteTask_unmarked s t held)
    fun t held _ _ => Stays.of_transitive vueBulkReadTask_unmarked s t held

/-- Nor does any request, whatever the host asks for. -/
theorem usbUsbTask_unmarked : Moves Unmarked usbUsbTask :=
  usbUsbTask_served.mono fun _ _ served => unmarked_of_streamed (.of_served served)

/-! ## Runs -/

/-- A run only adds to the log. -/
theorem mainLoop_logs (inputs : List Input) : Moves (Logs fun _ => True) (mainLoop inputs) := by
  have unmarked {m : Fw Unit} (moves : Moves Unmarked m) : Moves (Logs fun _ => True) m :=
    moves.mono fun _ _ logs => logs.mono fun _ _ => trivial
  have note (e : Event) : Moves (Logs fun _ => True) (note e) :=
    Moves.modify fun _ => .one rfl trivial
  have reset : Moves (Logs fun _ => True) resetBlock :=
    (note _).bind fun _ => (restoreDefaultState_inBlock.mono fun _ _ moved =>
      moved.log.mono fun _ _ => trivial).bind fun _ =>
        .bind (Moves.modify fun _ => .none rfl) fun _ => note _
  exact Stays.moves fun s => mainLoop_stays inputs (fun _ _ _ held => held) <|
    mainIteration_stays (.of_transitive (unmarked usbUsbTask_unmarked) s)
      (.of_transitive (unmarked vueTask_unmarked) s) fun t held _ =>
        Stays.of_transitive reset s t held

/-- What a run has recorded stays recorded. -/
theorem mainLoop_extends (inputs : List Input) (w : World) :
    ∃ new, (mainLoop inputs w).state.log = new ++ w.log := by
  obtain ⟨new, log, -⟩ := wp.exit (mainLoop_logs inputs w)
  exact ⟨new, log⟩

end VueCartReader
