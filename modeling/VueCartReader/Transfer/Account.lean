import VueCartReader.Safety.Machine
import VueCartReader.Transfer.Command

/-!
# What the log says about a transfer

Everything recorded since a command was accepted belongs to its transfer
(`sinceAccept`): the bus cycles of the task, the bytes taken from the host and given to
it. `Account` says of an event what the events before it promise: a bus cycle is the
next one of the transfer, a byte given is the next one read, and a transfer ends when
it is complete.

A reading of the ROM header in the middle of a transfer loads the high latch. It does no
harm only if the next word loads it again (`Undisturbed`).
-/

set_option autoImplicit false

namespace VueCartReader

open Program

/-! ## Views of the log -/

/-- What has been recorded since the last command was accepted. -/
def sinceAccept (log : List Event) : List Event := log.takeWhile fun e => e.accepted.isNone

/-- What has been recorded since `VUE_Command_Task` was last entered. -/
def sinceCommand (log : List Event) : List Event :=
  log.takeWhile fun e => match e with
    | .command _ => false
    | _ => true

/-- The bus cycle of a task that is over with an event. -/
def Event.cycle : Event → Option BusCycle
  | .port .task before after => busCycle before after
  | _ => none

/-- What a received command was judged to be. -/
def Event.judged : Event → Option VueCommand
  | .accept c | .ignore c | .reject c => some c
  | _ => none

/-- Whenever the header was read, the next word was the first of a page. -/
def Undisturbed (log : List Event) : Prop :=
  ∀ header state address, .request header state address ∈ log → header.readsHeader = true →
    lowBits address = 0#15

theorem Undisturbed.append {newer older : List Event} :
    Undisturbed (newer ++ older) ↔ Undisturbed newer ∧ Undisturbed older := by
  refine ⟨fun h => ⟨fun _ _ _ member => h _ _ _ (List.mem_append_left _ member),
    fun _ _ _ member => h _ _ _ (List.mem_append_right _ member)⟩, fun h _ _ _ member => ?_⟩
  rcases List.mem_append.mp member with late | early
  · exact h.1 _ _ _ late
  · exact h.2 _ _ _ early

theorem sinceAccept_append {new : List Event} (none_ : ∀ e ∈ new, e.accepted = none)
    (log : List Event) : sinceAccept (new ++ log) = new ++ sinceAccept log := by
  rw [sinceAccept, List.takeWhile_append_of_pos fun e member => by rw [none_ e member]; rfl]
  rfl

theorem sinceAccept_cons {e : Event} (none_ : e.accepted = none) (log : List Event) :
    sinceAccept (e :: log) = e :: sinceAccept log :=
  sinceAccept_append (fun _ member => by rwa [List.mem_singleton.mp member]) log

theorem sinceAccept_accept {new : List Event} (none_ : ∀ e ∈ new, e.accepted = none)
    (c : VueCommand) (log : List Event) : sinceAccept (new ++ .accept c :: log) = new := by
  rw [sinceAccept_append none_]
  exact List.append_nil new

theorem sinceCommand_command {new : List Event} (none_ : ∀ e ∈ new, ∀ old, e ≠ .command old)
    (old : VueCommand) (log : List Event) : sinceCommand (new ++ .command old :: log) = new := by
  rw [sinceCommand, List.takeWhile_append_of_pos fun e member => by
    have other := none_ e member
    cases e with
    | command old => exact absurd rfl (other old)
    | _ => rfl]
  exact List.append_nil new

/-- An event of a kind stands in its place among the others. -/
theorem occurrences_getElem {α : Type} {kind : Event → Option α} {log later earlier : List Event}
    {e : Event} {x : α} (split : log = later ++ e :: earlier) (found : kind e = some x) :
    (occurrences kind log)[(occurrences kind earlier).length]? = some x := by
  rw [split, occurrences_append, occurrences_cons, found]
  simp

/-- Events that each stand in their place in a list are a beginning of it. -/
theorem occurrences_prefix {α : Type} {kind : Event → Option α} {expected : List α}
    {log : List Event}
    (each : ∀ later e earlier x, log = later ++ e :: earlier → kind e = some x →
      expected[(occurrences kind earlier).length]? = some x) :
    occurrences kind log <+: expected := by
  induction log with
  | nil => exact List.nil_prefix
  | cons e log ih =>
      have before := ih fun later f earlier x eq => each (e :: later) f earlier x (by rw [eq]; rfl)
      rw [occurrences_cons]
      cases found : kind e with
      | none => simpa using before
      | some x =>
          obtain ⟨rest, eq⟩ := before
          have here := each [] e log x rfl found
          rw [← eq, List.getElem?_append_right (le_refl _), Nat.sub_self] at here
          cases rest with
          | nil => exact nomatch here
          | cons y rest =>
              cases here
              exact ⟨rest, by rw [← eq]; simp⟩

/-! ## Cycles on the bus -/

theorem portEvents_cycles (start : Board) (trace : List Board) :
    occurrences Event.cycle (portEvents .task start trace) = busCycles start trace := by
  induction trace generalizing start with
  | nil => rfl
  | cons after rest ih =>
      rw [portEvents, occurrences_append, ih, occurrences_cons]
      rfl

/-- Writes between idle strobes end no cycle. -/
theorem Reaches.no_cycle {P : Board → Prop} {b c : Board} {r : Rig} (h : Reaches P ⟨b, []⟩ r c)
    (idle : b.Idle) (all : ∀ s, P s → s.Idle) :
    occurrences Event.cycle (portEvents .task b r.seen) = [] := by
  obtain ⟨trace, settled, -, each⟩ := h
  have seen : r.seen = trace := settled.seen
  rw [seen, portEvents_cycles]
  have silent : ∀ before after : Board, before.Idle → after.Idle → busCycle before after = none :=
    fun _ _ quiet _ => busCycle_of_idle quiet
  exact edges_eq_nil silent idle fun s member => all s (each s member)

theorem vueWriteAddressFull_cycles {b : Board} (rest : b.Resting) (address : BitVec 32) :
    occurrences Event.cycle
      (portEvents .task b (vueWriteAddressFull address ⟨b, []⟩).seen) = [] :=
  (vueWriteAddressFull_spec (r := ⟨b, []⟩) rest.low address).no_cycle rest.idle
    fun _ step => step.idle rest.idle

/-! ## Readings of the header -/

/-- The board is as before, or the ROM header was read on the way. -/
structure Touched (s t : World) : Prop where
  address : t.vars.bulkAddress = s.vars.bulkAddress
  board : ∃ new, t.log = new ++ s.log ∧ (t.board = s.board ∨
    ∃ header state, .request header state s.vars.bulkAddress ∈ new ∧ header.readsHeader = true)

namespace Touched

theorem refl (s : World) : Touched s s := ⟨rfl, [], rfl, .inl rfl⟩

theorem trans {s t u : World} (one : Touched s t) (two : Touched t u) : Touched s u := by
  obtain ⟨first, log, board⟩ := one.board
  obtain ⟨second, log', board'⟩ := two.board
  refine ⟨two.address.trans one.address, second ++ first, by rw [log', log, List.append_assoc], ?_⟩
  rcases board with same | ⟨header, state, member, reads⟩
  · rcases board' with same' | ⟨header, state, member, reads⟩
    · exact .inl (same'.trans same)
    · rw [one.address] at member
      exact .inr ⟨header, state, List.mem_append_left _ member, reads⟩
  · exact .inr ⟨header, state, List.mem_append_right _ member, reads⟩

instance : IsPreorder World Touched where
  refl := refl
  trans _ _ _ := trans

theorem of_board {s t : World} (board : t.board = s.board)
    (address : t.vars.bulkAddress = s.vars.bulkAddress) (new : List Event)
    (log : t.log = new ++ s.log) : Touched s t := ⟨address, new, log, .inl board⟩

theorem of_framed {s t : World} (framed : Framed OfUsb s t) : Touched s t := by
  obtain ⟨new, log, -⟩ := framed.log
  exact .of_board framed.board (by rw [framed.vars]) new log

end Touched

/-- The board is as before. -/
def SameBoard (s t : World) : Prop := t.board = s.board

instance : IsPreorder World SameBoard where
  refl _ := rfl
  trans _ _ _ one two := two.trans one

/-- Only the request to read the header reaches the board. -/
theorem eventUsbDeviceControlRequest_board (s : World)
    (other : s.usb.controlRequest.readsHeader = false) :
    wp eventUsbDeviceControlRequest (fun _ t => SameBoard s t) (SameBoard s) s := by
  have framed {α : Type} {m : Fw α} (framed : Moves (Framed OfUsb) m) : Moves SameBoard m :=
    framed.mono fun _ _ framed => framed.board
  have status := framed endpointClearStatusStage_framed
  have clear := framed controlClearSetup_framed
  have reset : Moves SameBoard requestReset := Moves.modify fun _ => rfl
  rw [eventUsbDeviceControlRequest, wp_bind, wp_state, wp_ite, wp_ite]
  refine ⟨fun _ => ?_, fun _ => ⟨fun toHost => ?_, fun _ => rfl⟩⟩
  · exact (clear.bind fun _ => Moves.ite (fun _ => status.bind fun _ => Moves.stop) fun _ =>
      (Moves.whenever fun _ => reset).bind fun _ => (Moves.whenever fun _ => reset).bind fun _ =>
        status) s
  · have unread : ¬ s.usb.controlRequest.bRequest = reqReadHeader := by
      simp only [UsbRequestHeader.readsHeader, toHost, beq_self_eq_true, Bool.true_and,
        beq_eq_false_iff_ne, ne_eq] at other
      exact other
    exact (clear.bind fun _ => (Moves.whenever fun asked => absurd asked unread).bind fun _ =>
      (Moves.whenever fun _ => framed (endpointWriteControlStream_framed _)).bind fun _ =>
        status) s

/-- The world in which the processing of a request has been recorded. -/
def World.requested (w : World) : World :=
  { w with
    log := .request w.usb.controlRequest w.vars.curVueState w.vars.bulkAddress :: w.log }

theorem usbDeviceProcessControlRequest_touched : Moves Touched usbDeviceProcessControlRequest := by
  have framed {α : Type} {m : Fw α} (framed : Moves (Framed OfUsb) m) : Moves Touched m :=
    framed.mono fun _ _ => Touched.of_framed
  have rest : Moves Touched (do
      whenever (← controlIsSetupReceived) usbDeviceStandardRequest
      whenever (← controlIsSetupReceived) do
        controlClearSetup
        controlStallTransaction) :=
    (framed controlIsSetupReceived_framed).bind fun _ =>
      (Moves.whenever fun _ => framed usbDeviceStandardRequest_framed).bind fun _ =>
        (framed controlIsSetupReceived_framed).bind fun _ => Moves.whenever fun _ =>
          framed (controlClearSetup_framed.bind fun _ => note_framed rfl)
  intro s
  rw [usbDeviceProcessControlRequest, wp_bind, wp_state, wp_bind, note, wp_modify]
  -- what is known of the board when the handler of the firmware is through
  have touched (t : World) (served : Served s.requested t)
      (board : s.usb.controlRequest.readsHeader = false → t.board = s.board) : Touched s t := by
    obtain ⟨new, log, -⟩ := served.log
    obtain ⟨_, _, _, vars⟩ := served.vars
    refine ⟨by rw [vars]; rfl, new ++ [.request s.usb.controlRequest s.vars.curVueState
      s.vars.bulkAddress], by rw [log, List.append_assoc]; rfl, ?_⟩
    cases reads : s.usb.controlRequest.readsHeader with
    | false => exact .inl (board reads)
    | true => exact .inr ⟨_, _, List.mem_append_right _ (List.mem_singleton_self _), reads⟩
  have handled : wp eventUsbDeviceControlRequest (fun _ t => Touched s t) (Touched s)
      s.requested := by
    have served := eventUsbDeviceControlRequest_served s.requested
    cases reads : s.usb.controlRequest.readsHeader with
    | true =>
        have never {t : World} (other : s.usb.controlRequest.readsHeader = false) :
            t.board = s.board := absurd (other.symm.trans reads) Bool.false_ne_true
        exact served.mono (fun _ t moved => touched t moved never) fun t moved =>
          touched t moved never
    | false =>
        exact (served.and (eventUsbDeviceControlRequest_board s.requested reads)).mono
          (fun _ t moved => touched t moved.1 fun _ => moved.2)
          fun t moved => touched t moved.1 fun _ => moved.2
  refine wp.bind handled fun _ t moved => ?_
  exact (rest t).mono (fun _ _ later => moved.trans later) fun _ later => moved.trans later

theorem usbUsbTask_touched : Moves Touched usbUsbTask := by
  have framed {α : Type} {m : Fw α} (framed : Moves (Framed OfUsb) m) : Moves Touched m :=
    framed.mono fun _ _ => Touched.of_framed
  have select (address : Nat) := framed (endpointSelectEndpoint_framed address)
  have setup : Moves Touched nextSetup := nextSetup_moves fun _ _ => .of_board rfl rfl [] rfl
  refine (framed moment_framed).bind fun _ => .bind .state fun _ => .ite (fun _ => .pure _)
    fun _ => (select _).bind fun _ => setup.bind fun setup => .bind ?_ fun _ => select _
  cases setup with
  | none => exact .pure _
  | some transfer =>
      exact (framed (onUsb_framed _)).bind fun _ => usbDeviceProcessControlRequest_touched

/-- A stream call touches the latches where the control requests do. -/
theorem stream_touched {d : Direction} (transfer : ∀ i, Moves Touched (d.transferByte i))
    (clear : Moves (Framed OfUsb) d.clearEndpoint) (length : Nat) :
    Moves Touched (stream d length) :=
  Moves.stream (fun e _ => Moves.modify fun _ => .of_board rfl rfl [e] rfl)
    (fun _ _ => .of_framed) usbUsbTask_touched transfer clear length

theorem receiveChunk_touched (length : Nat) :
    Moves Touched (stream (readStream storeBuffer) length) := by
  refine stream_touched (fun i => ?_) (endpointClearOut_framed _) length
  refine .bind (.bind .state fun w => ?_) fun x => Moves.modify fun _ => .of_board rfl rfl [] rfl
  split
  · exact .bind (Moves.modify fun _ => .of_board rfl rfl [] rfl) fun _ =>
      .bind (Moves.modify fun _ => .of_board rfl rfl [_] rfl) fun _ => .pure _
  · exact .pure _

theorem sendChunk_touched (length : Nat) :
    Moves Touched (stream (writeStream loadBuffer) length) :=
  stream_touched (d := writeStream loadBuffer)
    (fun _ => .bind .state fun _ => .bind (Moves.modify fun _ => .of_board rfl rfl [] rfl) fun _ =>
      Moves.modify fun _ => .of_board rfl rfl [_] rfl) endpointClearIn_framed length

/-! ## What streams record -/

/-- A receiving stream records what control requests record, what its loop records, and
the bytes it takes. -/
theorem readStream_logs {kind : Event → Prop} (loop : ∀ e : Event, e.ofLoop = true → kind e)
    (control : ∀ e : Event, e.ofControl = true → kind e) (take : ∀ x, kind (.take x))
    (store : Nat → Byte → Vars → Vars) (length : Nat) :
    Moves (Logs kind) (stream (readStream store) length) := by
  have framed (s t : World) (framed : Framed OfUsb s t) : Logs kind s t := by
    refine framed.log.mono fun e ok => control e ?_
    cases e <;> first | exact ok | exact nomatch ok
  refine Moves.stream (fun e ok => Moves.modify fun _ => .one rfl (loop e ok)) framed ?_
    (fun i => ?_) (endpointClearOut_framed _) length
  · refine usbUsbTask_served.mono fun s t served => ?_
    obtain ⟨new, log, all, -⟩ := served.log
    exact ⟨new, log, fun e member => control e (all e member)⟩
  · refine .bind (.bind .state fun w => ?_) fun x => Moves.modify fun _ => .none rfl
    split
    · exact .bind (Moves.modify fun _ => .none rfl) fun _ =>
        .bind (Moves.modify fun _ => .one rfl (take _)) fun _ => .pure _
    · exact .pure _

theorem readStream_plain (store : Nat → Byte → Vars → Vars) (length : Nat) :
    Moves (Logs fun e => e.given = none) (stream (readStream store) length) :=
  readStream_logs (fun e ok => by cases e <;> first | rfl | exact nomatch ok)
    (fun e ok => (Event.idle_of_control ok).2.1) (fun _ => rfl) store length

end VueCartReader
