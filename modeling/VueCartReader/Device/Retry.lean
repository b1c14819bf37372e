import VueCartReader.Device.Service

/-!
# What a retry loop does

Whatever is preserved by the endpoint operations, by serving a control request and by
moving a byte is preserved by a stream call in its retry loop (`Moves.stream`). In
particular of the variables only the memory streamed into and those of the control
requests change (`Streamed`).

The loop ends with `bulk_reset` clear or because it is set (`stream_reset`): a request
to reset is only served right before an incomplete transfer is reported.
-/

set_option autoImplicit false

namespace VueCartReader

open Program

/-! ## Invariants through the loop -/

/-- The events that the loop itself records. -/
def Event.ofLoop : Event → Bool
  | .operate _ _ | .stream _ | .abandon _ => true
  | _ => false

section Through

variable {I C : World → Prop} {d : Direction}

theorem Stays.transferBytes (allowed : Stays I C endpointIsReadWriteAllowed)
    (transfer : ∀ i, Stays I C (d.transferByte i)) (clear : Stays I C d.clearEndpoint)
    (task : Stays I C usbUsbTask) (processed left bytesInTransfer : Nat) :
    Stays I C (transferBytes d processed left bytesInTransfer) := by
  induction left generalizing bytesInTransfer with
  | zero => exact .pure _
  | succ left ih =>
      exact allowed.bind fun _ => .ite (fun _ => (transfer _).bind fun _ => ih _) fun _ =>
        clear.bind fun _ => task.bind fun _ => .pure _

/-- What every part of a stream call keeps, its retry loop keeps. The call is recorded
together with the endpoint that is selected. -/
theorem Stays.stream_of_called (weaker : ∀ s, I s → C s)
    (called : ∀ s, I s → I { s with log := .operate d.operation s.usb.selected :: s.log })
    (result : ∀ r, Stays I C (note (.stream r))) (abandoned : ∀ s, Stays I C (note (.abandon s)))
    (ready : Stays I C endpointWaitUntilReady) (allowed : Stays I C endpointIsReadWriteAllowed)
    (transfer : ∀ i, Stays I C (d.transferByte i)) (clear : Stays I C d.clearEndpoint)
    (task : Stays I C usbUsbTask) (length : Nat) : Stays I C (stream d length) := by
  have call (processed : Nat) : Stays I C (endpointStream d length processed) := by
    intro s held
    rw [endpointStream, wp_bind, wp_state, wp_bind]
    refine (ready.bind fun result => ?_ : Stays I C (endpointWaitUntilReady >>= _)) _
      (called s held)
    split
    · exact Stays.transferBytes allowed transfer clear task _ _ _
    · exact .pure _
  have retry (calls : Nat) : ∀ processed, Stays I C (retryStream d length calls processed) := by
    induction calls with
    | zero => exact fun _ => .stop weaker
    | succ calls ih =>
        intro processed
        refine (call processed).bind fun r => (result _).bind fun _ =>
          .ite (fun _ => .bind .state fun _ => .ite (fun _ => ?_) fun _ => ih _) fun _ => .pure _
        exact (abandoned _).bind fun _ => .pure _
  exact .bind .state fun _ => retry _ _

/-- The same where it does not matter which endpoint is selected. -/
theorem Stays.stream (weaker : ∀ s, I s → C s) (noted : ∀ e, e.ofLoop = true → Stays I C (note e))
    (ready : Stays I C endpointWaitUntilReady) (allowed : Stays I C endpointIsReadWriteAllowed)
    (transfer : ∀ i, Stays I C (d.transferByte i)) (clear : Stays I C d.clearEndpoint)
    (task : Stays I C usbUsbTask) (length : Nat) : Stays I C (stream d length) :=
  Stays.stream_of_called weaker
    (fun s held => noted (.operate d.operation s.usb.selected) rfl s held)
    (fun _ => noted _ rfl) (fun _ => noted _ rfl) ready allowed transfer clear task length

/-- The same for a relation between the ends of the loop. -/
theorem Moves.stream {R : World → World → Prop} [IsPreorder World R]
    (noted : ∀ e, e.ofLoop = true → Moves R (note e))
    (framed : ∀ s t, Framed OfUsb s t → R s t) (task : Moves R usbUsbTask)
    (transfer : ∀ i, Moves R (d.transferByte i)) (clear : Moves (Framed OfUsb) d.clearEndpoint)
    (length : Nat) : Moves R (stream d length) :=
  Stays.moves fun s => Stays.stream (fun _ => id) (fun e ok => .of_transitive (noted e ok) s)
    (.of_transitive (endpointWaitUntilReady_framed.mono framed) s)
    (.of_transitive (endpointIsReadWriteAllowed_framed.mono framed) s)
    (fun i => .of_transitive (transfer i) s) (.of_transitive (clear.mono framed) s)
    (.of_transitive task s) length

end Through

/-! ## The frame of a loop -/

/-- The events of a stream call. -/
def Event.ofStream : Event → Bool
  | .take _ | .give _ | .stream _ | .abandon _ => true
  | e => e.ofControl

/-- What a stream call in its retry loop changes, as far as every such call goes. -/
structure Streamed (s t : World) : Prop where
  vars : ∃ buffer command reset address myBuffer, t.vars =
    { s.vars with bulkBuffer := buffer, curCommand := command, bulkReset := reset
                  address := address, myBuffer := myBuffer }
  log : ∃ new, t.log = new ++ s.log ∧ (∀ e ∈ new, e.ofStream = true) ∧
    t.vars.bulkReset = (if resetRequested new then 0xFFFFFFFF#32 else s.vars.bulkReset)
  ready : s.BusReady → t.BusReady
  board : s.BusReady → t.board = s.board ∨ t.board = s.board.addressed headerEnd

namespace Streamed

theorem refl (s : World) : Streamed s s where
  vars := ⟨_, _, _, _, _, rfl⟩
  log := ⟨[], rfl, List.forall_mem_nil _, rfl⟩
  ready := id
  board _ := .inl rfl

theorem trans {s t u : World} (one : Streamed s t) (two : Streamed t u) : Streamed s u := by
  obtain ⟨first, log, all, reset⟩ := one.log
  obtain ⟨second, log', all', reset'⟩ := two.log
  refine ⟨?_, ⟨second ++ first, by rw [log', log, List.append_assoc], fun e member => ?_, ?_⟩,
    two.ready ∘ one.ready, fun ready => ?_⟩
  · obtain ⟨_, _, _, _, _, vars⟩ := one.vars
    obtain ⟨buffer, command, reset, address, myBuffer, vars'⟩ := two.vars
    exact ⟨buffer, command, reset, address, myBuffer, by rw [vars', vars]⟩
  · rcases List.mem_append.mp member with late | early
    · exact all' e late
    · exact all e early
  · rw [reset', reset, resetRequested_append]
    cases resetRequested second <;> simp
  · rcases two.board (one.ready ready) with same | read
    · rw [same]
      exact one.board ready
    · refine .inr ?_
      rw [read]
      rcases one.board ready with same | read
      · rw [same]
      · rw [read]
        rfl

instance : IsPreorder World Streamed where
  refl := refl
  trans _ _ _ := trans

theorem of_served {s t : World} (served : Served s t) : Streamed s t := by
  obtain ⟨reset, address, myBuffer, vars⟩ := served.vars
  obtain ⟨new, log, all, set, -⟩ := served.log
  refine ⟨⟨_, _, reset, address, myBuffer, vars⟩, ⟨new, log, fun e member => ?_, set⟩,
    served.ready, served.board⟩
  have ok := all e member
  cases e <;> first | exact ok | rfl

theorem of_framed {s t : World} (framed : Framed OfUsb s t) : Streamed s t :=
  of_served (Served.of_framed framed)

/-- A variable streamed into changes, or an event of the stream is recorded. -/
theorem of_memory {s t : World} (new : List Event) (board : t.board = s.board)
    (vars : ∃ buffer command, t.vars =
      { s.vars with bulkBuffer := buffer, curCommand := command })
    (log : t.log = new ++ s.log) (all : ∀ e ∈ new, e.ofStream = true ∧ e ≠ .resetRequest) :
    Streamed s t := by
  obtain ⟨buffer, command, vars⟩ := vars
  refine ⟨⟨buffer, command, _, _, _, vars⟩, ⟨new, log, fun e member => (all e member).1, ?_⟩,
    fun ready => ?_, fun _ => .inl board⟩
  · rw [resetRequested_eq_false fun e member => (all e member).2, vars]
    rfl
  · exact ⟨by rw [board]; exact ready.resting, by rw [board]; exact ready.selects,
      by rw [vars]; exact ready.header⟩

end Streamed

theorem noteStream_streamed {e : Event} (ok : e.ofStream = true) (other : e ≠ .resetRequest) :
    Moves Streamed (note e) :=
  Moves.modify fun _ => .of_memory [e] rfl ⟨_, _, rfl⟩ rfl fun _ member => by
    rw [List.mem_singleton.mp member]
    exact ⟨ok, other⟩

theorem endpointRead8_streamed : Moves Streamed endpointRead8 := by
  refine .bind .state fun w => ?_
  split
  · exact ((onUsb_framed _).mono fun _ _ => Streamed.of_framed).bind fun _ =>
      (noteStream_streamed (e := .take _) rfl nofun).bind fun _ => .pure _
  · exact .pure _

theorem endpointWrite8_streamed (x : Byte) : Moves Streamed (endpointWrite8 x) :=
  ((onUsb_framed _).mono fun _ _ => Streamed.of_framed).bind fun _ =>
    noteStream_streamed (e := .give x) rfl nofun

theorem stream_streamed {d : Direction} (transfer : ∀ i, Moves Streamed (d.transferByte i))
    (clear : Moves (Framed OfUsb) d.clearEndpoint) (length : Nat) :
    Moves Streamed (stream d length) :=
  Moves.stream
    (fun e ok => noteStream_streamed (by cases e <;> first | rfl | exact nomatch ok)
      (by rintro rfl; exact nomatch ok))
    (fun _ _ => .of_framed) (usbUsbTask_served.mono fun _ _ => .of_served) transfer clear length

theorem readStream_streamed (store : Nat → Byte → Vars → Vars)
    (memory : ∀ i x v, ∃ buffer command, store i x v =
      { v with bulkBuffer := buffer, curCommand := command }) (length : Nat) :
    Moves Streamed (stream (readStream store) length) := by
  have stored (i : Nat) (x : Byte) : Moves Streamed (onVars (store i x)) :=
    Moves.modify fun s =>
      .of_memory [] rfl (memory i x s.vars) rfl (List.forall_mem_nil _)
  exact stream_streamed (fun i => endpointRead8_streamed.bind (stored i))
    (endpointClearOut_framed _) length

theorem writeStream_streamed (load : Nat → Vars → Byte) (length : Nat) :
    Moves Streamed (stream (writeStream load) length) :=
  stream_streamed (d := writeStream load)
    (fun i => Moves.state.bind fun w => endpointWrite8_streamed (load i w.vars))
    endpointClearIn_framed length

/-! ## `bulk_reset` at the end of a loop -/

/-- `bulk_reset` is as before. -/
def SameReset (s t : World) : Prop := t.vars.bulkReset = s.vars.bulkReset

instance : IsPreorder World SameReset where
  refl _ := rfl
  trans _ _ _ one two := two.trans one

theorem sameReset_of_framed {s t : World} (framed : Framed OfUsb s t) : SameReset s t := by
  rw [SameReset, framed.vars]

/-- A call that does not report an incomplete transfer has served no request. -/
theorem transferBytes_reset {d : Direction} (transfer : ∀ i, Moves SameReset (d.transferByte i))
    (clear : Moves (Framed OfUsb) d.clearEndpoint) (processed left : Nat) :
    ∀ (bytesInTransfer : Nat) (s : World),
    wp (transferBytes d processed left bytesInTransfer)
      (fun r t => r.1 ≠ .incompleteTransfer → SameReset s t) (fun _ => True) s := by
  induction left with
  | zero => exact fun _ _ _ => rfl
  | succ left ih =>
      intro bytesInTransfer s
      refine wp.bind ((endpointIsReadWriteAllowed_framed s).mono (fun _ _ => sameReset_of_framed)
        fun _ _ => trivial) fun allowed t same => ?_
      rw [wp_ite]
      refine ⟨fun _ => ?_, fun _ => ?_⟩
      · refine wp.bind ((transfer _ t).mono (fun _ _ moved => moved) fun _ _ => trivial)
          fun _ u moved => (ih _ u).mono (fun r v rest other => ?_) fun _ done => done
        exact (rest other).trans (Eq.trans moved same)
      · refine wp.bind ((clear t).mono (fun _ _ _ => trivial) fun _ _ => trivial) fun _ u _ =>
          wp.bind ((usbUsbTask_served u).mono (fun _ _ _ => trivial) fun _ _ => trivial)
            fun _ _ _ other => absurd rfl other

theorem endpointStream_reset {d : Direction} (transfer : ∀ i, Moves SameReset (d.transferByte i))
    (clear : Moves (Framed OfUsb) d.clearEndpoint) (length processed : Nat) (s : World) :
    wp (endpointStream d length processed)
      (fun r t => r.1 ≠ .incompleteTransfer → SameReset s t) (fun _ => True) s := by
  rw [endpointStream, wp_bind, wp_state]
  refine wp.bind ((note_framed (e := .operate _ _) rfl s).mono (fun _ _ => sameReset_of_framed)
    fun _ _ => trivial) fun _ t noted => ?_
  refine wp.bind ((endpointWaitUntilReady_framed t).mono (fun _ _ => sameReset_of_framed)
    fun _ _ => trivial) fun result u waited => ?_
  have same : SameReset s u := trans_of SameReset noted waited
  split
  · exact (transferBytes_reset transfer clear _ _ 0 u).mono
      (fun r v rest other => trans_of SameReset same (rest other)) fun _ done => done
  · exact fun _ => same

/-- **The end of a retry loop.** If it was abandoned, `bulk_reset` is set; if not, then
`bulk_reset` is clear, had it been clear before. -/
theorem stream_reset {d : Direction} (transfer : ∀ i, Moves SameReset (d.transferByte i))
    (clear : Moves (Framed OfUsb) d.clearEndpoint) (length : Nat) (s : World) :
    wp (stream d length)
      (fun ok t => (ok = true → s.vars.bulkReset = 0#32 → t.vars.bulkReset = 0#32) ∧
        (ok = false → t.vars.bulkReset ≠ 0#32)) (fun _ => True) s := by
  have retry (calls : Nat) : ∀ (processed : Nat) (s : World),
      wp (retryStream d length calls processed)
        (fun ok t => (ok = true → s.vars.bulkReset = 0#32 → t.vars.bulkReset = 0#32) ∧
          (ok = false → t.vars.bulkReset ≠ 0#32)) (fun _ => True) s := by
    induction calls with
    | zero => exact fun _ _ => trivial
    | succ calls ih =>
        intro processed s
        refine wp.bind (endpointStream_reset transfer clear length processed s)
          fun r t called => ?_
        simp only [note, wp_bind, wp_modify, wp_ite, wp_state, wp_pure]
        refine ⟨fun _ => ⟨fun set => ⟨fun no => absurd no Bool.false_ne_true, fun _ => set⟩,
          fun unset => ?_⟩, fun other =>
          ⟨fun _ clear => (called other).trans clear, fun no => absurd no.symm Bool.false_ne_true⟩⟩
        exact (ih r.2 _).mono
          (fun ok u ends =>
            ⟨fun done _ => ends.1 done (not_not.mp unset), ends.2⟩) fun _ done => done
  rw [stream, wp_bind, wp_state]
  exact retry _ _ s

theorem readStream_reset (store : Nat → Byte → Vars → Vars)
    (memory : ∀ i x v, (store i x v).bulkReset = v.bulkReset) (length : Nat) (s : World) :
    wp (stream (readStream store) length)
      (fun ok t => (ok = true → s.vars.bulkReset = 0#32 → t.vars.bulkReset = 0#32) ∧
        (ok = false → t.vars.bulkReset ≠ 0#32)) (fun _ => True) s := by
  refine stream_reset (fun i => ?_) (endpointClearOut_framed _) length s
  refine .bind (.bind .state fun w => ?_) fun x => Moves.modify fun w => memory i x w.vars
  split
  · exact (onUsb_framed _).mono (fun _ _ => sameReset_of_framed) |>.bind fun _ =>
      Moves.bind (Moves.modify fun _ => rfl) fun _ => .pure _
  · exact .pure _

theorem writeStream_reset (load : Nat → Vars → Byte) (length : Nat) (s : World) :
    wp (stream (writeStream load) length)
      (fun ok t => (ok = true → s.vars.bulkReset = 0#32 → t.vars.bulkReset = 0#32) ∧
        (ok = false → t.vars.bulkReset ≠ 0#32)) (fun _ => True) s :=
  stream_reset (d := writeStream load)
    (fun _ => .bind .state fun _ => Moves.bind (Moves.modify fun _ => rfl) fun _ =>
      Moves.modify fun _ => rfl) endpointClearIn_framed length s

/-! ## While no reset is due -/

section Clear

variable {K C : World → Prop} {d : Direction}

/-- What is kept together with `bulk_reset` being clear. -/
theorem stays_clear {α : Type} {m : Fw α} (keeps : Stays K C m) (same : Moves SameReset m) :
    Stays (fun s => K s ∧ s.vars.bulkReset = 0#32) C m := fun s held =>
  ((keeps s held.1).and (same s)).mono (fun _ _ ends => ⟨ends.1, ends.2.trans held.2⟩)
    fun _ cut => cut.1

/-- What every part of a stream call keeps, its retry loop keeps; and when a byte is moved, no
reset is due. -/
theorem stream_while_clear (weaker : ∀ s, K s → C s)
    (noted : ∀ e, e.ofLoop = true → Stays K C (note e)) (ready : Stays K C endpointWaitUntilReady)
    (allowed : Stays K C endpointIsReadWriteAllowed)
    (transfer : ∀ i, Stays (fun s => K s ∧ s.vars.bulkReset = 0#32) C (d.transferByte i))
    (clear : Stays K C d.clearEndpoint) (task : Stays K C usbUsbTask) (length : Nat) {s : World}
    (held : K s) (unset : s.vars.bulkReset = 0#32) : wp (stream d length) (fun _ t => K t) C s := by
  have ready :=
    stays_clear ready (endpointWaitUntilReady_framed.mono fun _ _ => sameReset_of_framed)
  have allowed :=
    stays_clear allowed (endpointIsReadWriteAllowed_framed.mono fun _ _ => sameReset_of_framed)
  have bytes (processed left : Nat) : ∀ (moved : Nat) (s : World),
      K s ∧ s.vars.bulkReset = 0#32 →
        wp (transferBytes d processed left moved) (fun _ t => K t) C s := by
    induction left with
    | zero => exact fun _ _ held => held.1
    | succ left ih =>
        intro moved s held
        refine wp.bind (allowed s held) fun _ t held => ?_
        rw [wp_ite]
        refine ⟨fun _ => wp.bind (transfer _ t held) fun _ u held => ih _ u held, fun _ => ?_⟩
        exact wp.bind (clear t held.1) fun _ u held => wp.bind (task u held) fun _ _ held => held
  have call (processed : Nat) (s : World) (held : K s ∧ s.vars.bulkReset = 0#32) :
      wp (endpointStream d length processed) (fun _ t => K t) C s := by
    rw [endpointStream, wp_bind, wp_state]
    refine wp.bind (noted (.operate d.operation s.usb.selected) rfl s held.1).returned
      fun _ t noted => ?_
    obtain ⟨run, called⟩ := noted
    cases run
    refine wp.bind (ready _ ⟨called, held.2⟩) fun result u held => ?_
    split
    · exact bytes _ _ 0 u held
    · exact held.1
  have retry (calls : Nat) : ∀ (processed : Nat) (s : World), K s ∧ s.vars.bulkReset = 0#32 →
      wp (retryStream d length calls processed) (fun _ t => K t) C s := by
    induction calls with
    | zero => exact fun _ s held => weaker s held.1
    | succ calls ih =>
        intro processed s held
        refine wp.bind (call processed s held) fun r t held => ?_
        refine wp.bind (noted (.stream r.1) rfl t held) fun _ u held => ?_
        rw [wp_ite]
        refine ⟨fun _ => ?_, fun _ => held⟩
        rw [wp_bind, wp_state, wp_ite]
        refine ⟨fun _ => ?_, fun unset => ih r.2 u ⟨held, not_not.mp unset⟩⟩
        exact wp.bind (noted (.abandon u.vars.curVueState) rfl u held) fun _ _ held => held
  rw [stream, wp_bind, wp_state]
  exact retry _ 0 s ⟨held, unset⟩

end Clear

end VueCartReader
