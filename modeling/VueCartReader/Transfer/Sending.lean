import VueCartReader.Device.Requests
import VueCartReader.Transfer.Delivery

/-!
# What is in the IN bank

The bytes given to the host go into the IN bank, and a packet takes all of them out of it. So
in a calm session what has been given is what has been committed, and what is in the bank and
not committed yet (`Sending`). Outside a read the bank holds nothing that is not committed
(`Drained`): a read ends with a packet, and nothing else writes into the bank.

When the bus is reset the bank is emptied, and the control endpoint is selected until the
firmware selects another one.
-/

set_option autoImplicit false

namespace VueCartReader

open Program

/-! ## Packets to the host -/

/-- What has been written into the IN bank since the last packet. -/
def Usb.uncommitted (u : Usb) : List Byte := if u.inBusy then [] else u.inBank

def Event.committed : Event → Option (List Byte)
  | .commit data => some data
  | _ => none

/-- The packets for the host, oldest first. -/
abbrev commitsOf (log : List Event) : List (List Byte) := occurrences Event.committed log

/-- The bytes in packets for the host. -/
def deliveredOf (log : List Event) : List Byte := (commitsOf log).flatten

theorem deliveredOf_append (newer older : List Event) :
    deliveredOf (newer ++ older) = deliveredOf older ++ deliveredOf newer := by
  rw [deliveredOf, commitsOf, occurrences_append, List.flatten_append]
  rfl

theorem deliveredOf_of_none {log : List Event} (none_ : ∀ e ∈ log, e.committed = none) :
    deliveredOf log = [] := by
  rw [deliveredOf, commitsOf, occurrences_eq_nil _ none_]
  rfl

/-! ## Code that leaves the IN bank alone -/

/-- Neither a command nor a byte or a packet for the host. -/
structure Event.Unsent (e : Event) : Prop where
  accepted : e.accepted = none
  given : e.given = none
  committed : e.committed = none

/-- Nothing is sent, and what has been sent is not written again. -/
structure StaysEmpty (s t : World) : Prop where
  log : Logs Event.Unsent s t
  empty : s.usb.uncommitted = [] → t.usb.uncommitted = []

namespace StaysEmpty

theorem refl (s : World) : StaysEmpty s s := ⟨.refl s, id⟩

theorem trans {s t u : World} (one : StaysEmpty s t) (two : StaysEmpty t u) : StaysEmpty s u :=
  ⟨one.log.trans two.log, two.empty ∘ one.empty⟩

instance : IsPreorder World StaysEmpty where
  refl := refl
  trans _ _ _ := trans

theorem of_one {s t : World} {e : Event} (log : t.log = e :: s.log) (unsent : e.Unsent)
    (empty : s.usb.uncommitted = [] → t.usb.uncommitted = []) : StaysEmpty s t :=
  ⟨.one log unsent, empty⟩

theorem of_none {s t : World} (log : t.log = s.log)
    (empty : s.usb.uncommitted = [] → t.usb.uncommitted = []) : StaysEmpty s t :=
  ⟨.none log, empty⟩

end StaysEmpty

/-- Interrupts leave an empty bank empty. -/
theorem Usb.interrupted_empty (i : UsbInterrupt) (u : Usb) (empty : u.uncommitted = []) :
    (u.interrupted i).uncommitted = [] := by
  cases i with
  | endOfReset => rfl
  | _ => exact empty

theorem Usb.setStalled_uncommitted (x : Bool) (u : Usb) :
    (u.setStalled x).uncommitted = u.uncommitted := by
  unfold Usb.setStalled
  split
  · rfl
  · split <;> rfl

theorem act_staysEmpty (w : World) (a : HostAct) : StaysEmpty w (w.act a) := by
  cases a with
  | sendOut packet =>
      rw [World.act]
      split
      · exact .of_one rfl ⟨rfl, rfl, rfl⟩ id
      · exact .refl w
  | collectIn =>
      rw [World.act]
      split
      · exact .of_one rfl ⟨rfl, rfl, rfl⟩ fun _ => rfl
      · exact .refl w
  | interrupt i => exact .of_one rfl ⟨rfl, rfl, rfl⟩ (w.usb.interrupted_empty i)

theorem moment_staysEmpty : Moves StaysEmpty moment :=
  moment_moves (fun _ _ => .of_none rfl id) act_staysEmpty

theorem nextSetup_staysEmpty : Moves StaysEmpty nextSetup :=
  nextSetup_moves fun _ _ => .of_none rfl id

theorem controlPoll_staysEmpty : Moves StaysEmpty controlPoll :=
  controlPoll_moves (fun _ _ => .of_none rfl id) act_staysEmpty

theorem freeOut_staysEmpty (by_ : Actor) : Moves StaysEmpty (freeOut by_) :=
  Moves.modify fun w => by
    split
    · exact .of_one rfl ⟨rfl, rfl, rfl⟩ id
    · exact .refl w

theorem endpointResetEndpoint_staysEmpty (by_ : Actor) (address : Nat) :
    Moves StaysEmpty (endpointResetEndpoint by_ address) :=
  moment_staysEmpty.bind fun _ => .ite (fun _ => freeOut_staysEmpty _) fun _ =>
    .ite (fun _ => Moves.modify fun _ => .of_none rfl fun _ => rfl) fun _ => .pure _

theorem endpointClearStall_staysEmpty : Moves StaysEmpty endpointClearStall :=
  moment_staysEmpty.bind fun _ => Moves.modify fun w => .of_none rfl fun empty =>
    (Usb.setStalled_uncommitted false w.usb).trans empty

/-- No control request writes into the IN bank. -/
theorem requests_staysEmpty : RequestsKeep StaysEmpty where
  moment := moment_staysEmpty
  setup := nextSetup_staysEmpty
  select _ := Moves.modify fun _ => .of_none rfl id
  poll := controlPoll_staysEmpty
  apart f same := Moves.modify fun w => .of_none rfl fun empty => by
    have bulk := same w.usb
    rw [Usb.uncommitted] at empty ⊢
    rw [bulk.inBusy, bulk.inBank]
    exact empty
  note e ok := Moves.modify fun _ => .of_one rfl (by
    cases e <;> first | exact ⟨rfl, rfl, rfl⟩ | exact nomatch ok) id
  header := Moves.modify fun _ => by
    refine ⟨⟨_, rfl, fun e member => ?_⟩, id⟩
    obtain ⟨before, after, rfl⟩ := portEvents_kind _ _ _ e member
    exact ⟨rfl, rfl, rfl⟩
  reset := Moves.modify fun _ => .of_one rfl ⟨rfl, rfl, rfl⟩ id
  stall := moment_staysEmpty.bind fun _ => .bind .state fun _ =>
    .bind (Moves.modify fun _ => .of_one rfl ⟨rfl, rfl, rfl⟩ id) fun _ =>
      Moves.modify fun w => .of_none rfl fun empty =>
        (Usb.setStalled_uncommitted true w.usb).trans empty
  clearStall := endpointClearStall_staysEmpty
  resetEndpoint address := endpointResetEndpoint_staysEmpty .control address
  configure := moment_staysEmpty.bind fun _ => Moves.modify fun _ => .of_none rfl fun _ => rfl

/-- The IN bank is left alone, as long as the session is calm. -/
structure Spares (s t : World) : Prop where
  empty : StaysEmpty s t
  same : ∃ new, t.log = new ++ s.log ∧ (Calm new → t.usb.uncommitted = s.usb.uncommitted)

namespace Spares

theorem refl (s : World) : Spares s s := ⟨.refl s, [], rfl, fun _ => rfl⟩

theorem trans {s t u : World} (one : Spares s t) (two : Spares t u) : Spares s u := by
  obtain ⟨first, log, same⟩ := one.same
  obtain ⟨second, log', same'⟩ := two.same
  refine ⟨one.empty.trans two.empty, second ++ first, by rw [log', log, List.append_assoc],
    fun calm => ?_⟩
  rw [Calm.append] at calm
  exact (same' calm.1).trans (same calm.2)

instance : IsPreorder World Spares where
  refl := refl
  trans _ _ _ := trans

theorem of_log {s t : World} {new : List Event} (log : t.log = new ++ s.log)
    (unsent : ∀ e ∈ new, e.Unsent) (same : t.usb.uncommitted = s.usb.uncommitted) : Spares s t :=
  ⟨⟨⟨new, log, unsent⟩, fun empty => same.trans empty⟩, new, log, fun _ => same⟩

theorem of_one {s t : World} {e : Event} (log : t.log = e :: s.log) (unsent : e.Unsent)
    (same : t.usb.uncommitted = s.usb.uncommitted) : Spares s t :=
  .of_log (show t.log = [e] ++ s.log from log)
    (fun _ member => by rwa [List.mem_singleton.mp member]) same

theorem of_none {s t : World} (log : t.log = s.log)
    (same : t.usb.uncommitted = s.usb.uncommitted) : Spares s t :=
  .of_log (show t.log = [] ++ s.log from log) (List.forall_mem_nil _) same

theorem of_disturbed {s t : World} (empty : StaysEmpty s t) (disturbed : Disturbed s t) :
    Spares s t := by
  obtain ⟨new, log, uncalm⟩ := disturbed
  exact ⟨empty, new, log, fun calm => absurd calm uncalm⟩

end Spares

theorem act_spares (w : World) (a : HostAct) : Spares w (w.act a) := by
  cases a with
  | sendOut packet =>
      rw [World.act]
      split
      · exact .of_one rfl ⟨rfl, rfl, rfl⟩ rfl
      · exact .refl w
  | collectIn =>
      rw [World.act]
      split
      · rename_i busy
        refine .of_one rfl ⟨rfl, rfl, rfl⟩ ?_
        rw [Usb.uncommitted, Usb.uncommitted, if_pos busy]
        rfl
      · exact .refl w
  | interrupt i =>
      cases i with
      | endOfReset =>
          refine .of_disturbed (act_staysEmpty w _) ⟨[_], rfl, fun calm => ?_⟩
          cases calm _ (List.mem_singleton_self _)
      | _ => exact .of_one rfl ⟨rfl, rfl, rfl⟩ rfl

theorem moment_spares : Moves Spares moment :=
  moment_moves (fun _ _ => .of_none rfl rfl) act_spares

theorem note_spares {e : Event} (unsent : e.Unsent) : Moves Spares (note e) :=
  Moves.modify fun _ => .of_one rfl unsent rfl

theorem endpointSelectEndpoint_spares (address : Nat) :
    Moves Spares (endpointSelectEndpoint address) := Moves.modify fun _ => .of_none rfl rfl

theorem endpointIsOutReceived_spares : Moves Spares endpointIsOutReceived :=
  moment_spares.bind fun _ => .bind .state fun _ => .pure _

theorem endpointIsInReady_spares : Moves Spares endpointIsInReady :=
  moment_spares.bind fun _ => .bind .state fun _ => .pure _

theorem endpointIsReadWriteAllowed_spares : Moves Spares endpointIsReadWriteAllowed :=
  moment_spares.bind fun _ => .ite (fun _ => (note_spares ⟨rfl, rfl, rfl⟩).bind fun _ => .pure _)
    fun _ => .bind .state fun _ => .pure _

theorem endpointWaitUntilReady_spares : Moves Spares endpointWaitUntilReady :=
  moment_spares.bind fun _ => .bind .state fun _ => .ite (fun _ => .pure _) fun _ =>
    moment_spares.bind fun _ => .bind .state fun _ => .pure _

theorem freeOut_spares (by_ : Actor) : Moves Spares (freeOut by_) :=
  Moves.modify fun w => by
    split
    · exact .of_one rfl ⟨rfl, rfl, rfl⟩ rfl
    · exact .refl w

theorem endpointClearOut_spares (by_ : Actor) : Moves Spares (endpointClearOut by_) :=
  moment_spares.bind fun _ => .bind .state fun _ => .whenever fun _ => freeOut_spares by_

theorem refuseOut_spares : Moves Spares refuseOut := by
  refine .bind ?_ fun _ => .bind .state fun _ => (note_spares ⟨rfl, rfl, rfl⟩).bind fun _ => ?_
  · exact moment_spares.bind fun _ => .ite (fun _ => freeOut_spares _) fun _ =>
      .ite (fun isIn => nomatch isIn) fun _ => .pure _
  · exact moment_spares.bind fun _ => .bind .state fun _ =>
      (note_spares ⟨rfl, rfl, rfl⟩).bind fun _ => Moves.modify fun w => .of_none rfl
        (Usb.setStalled_uncommitted true w.usb)

theorem nextSetup_spares : Moves Spares nextSetup := nextSetup_moves fun _ _ => .of_none rfl rfl

/-- Serving a request commits nothing to the IN endpoint. -/
theorem usbUsbTask_spares : Moves Spares usbUsbTask := by
  refine moment_spares.bind fun _ => .bind .state fun w => .ite (fun _ => .pure _) fun _ =>
    (endpointSelectEndpoint_spares _).bind fun _ => nextSetup_spares.bind fun setup =>
      .bind ?_ fun _ => endpointSelectEndpoint_spares _
  cases setup with
  | none => exact .pure _
  | some transfer =>
      exact fun s => ((requests_staysEmpty.parts.serveSetup (some transfer) s).and
        (serveSetup_disturbed transfer s)).mono
        (fun _ _ ends => .of_disturbed ends.1 ends.2) fun _ cut => .of_disturbed cut.1 cut.2

theorem Works.spares {s t : World} (works : Works s t) : Spares s t := by
  obtain ⟨new, log, all⟩ := works.log
  refine .of_log log (fun e member => ?_) (by rw [works.usb])
  have ok := all e member
  cases e <;> first | exact ⟨rfl, rfl, rfl⟩ | exact nomatch ok

/-- A stream that receives leaves the IN bank alone. -/
theorem readStream_spares (store : Nat → Byte → Vars → Vars) (length : Nat) :
    Moves Spares (stream (readStream store) length) := by
  have take (i : Nat) : Moves Spares ((readStream store).transferByte i) := by
    refine .bind (.bind .state fun w => ?_) fun x => Moves.modify fun _ => .of_none rfl rfl
    split
    · exact .bind (Moves.modify fun _ => .of_none rfl rfl) fun _ =>
        (note_spares ⟨rfl, rfl, rfl⟩).bind fun _ => .pure _
    · exact .pure _
  refine Stays.moves fun s => Stays.stream (fun _ => id) (fun e ok => ?_)
    (.of_transitive endpointWaitUntilReady_spares s)
    (.of_transitive endpointIsReadWriteAllowed_spares s) (fun i => .of_transitive (take i) s)
    (.of_transitive (endpointClearOut_spares .task) s) (.of_transitive usbUsbTask_spares s) length
  have unsent : e.Unsent := by
    cases e <;> first | exact ⟨rfl, rfl, rfl⟩ | exact nomatch ok
  exact .of_transitive (note_spares unsent) s

/-! ## The bank in a session -/

/-- The session is calm, and the reset block has not run in it. -/
def Lasting (log : List Event) : Prop := Calm log ∧ .resetBegin ∉ log

theorem Lasting.append {newer older : List Event} :
    Lasting (newer ++ older) ↔ Lasting newer ∧ Lasting older := by
  rw [Lasting, Calm.append, List.mem_append, not_or]
  exact and_and_and_comm

theorem Lasting.past {e : Event} {log : List Event} (lasting : Lasting (e :: log)) : Lasting log :=
  (Lasting.append.mp (show Lasting ([e] ++ log) from lasting)).2

/-- A packet holds all that has been given and not been committed before. -/
def Prompt (e : Event) (past : List Event) : Prop :=
  ∀ data, e.committed = some data → (acceptedCommand past).isSome = true →
    Lasting (sinceAccept past) →
    deliveredOf (sinceAccept past) ++ data = givesOf (sinceAccept past)

/-- In a calm session what has been given has been committed or is in the bank. -/
structure Sending (w : World) : Prop where
  history : History Prompt w.log
  yielded : (acceptedCommand w.log).isSome = true → Lasting (sinceAccept w.log) →
    deliveredOf (sinceAccept w.log) ++ w.usb.uncommitted = givesOf (sinceAccept w.log)

theorem prompt_of_none {e : Event} (none_ : e.committed = none) (past : List Event) :
    Prompt e past := fun _ found => nomatch none_.symm.trans found

section Sending

variable {s t : World}

theorem Sending.spares (held : Sending s) (spares : Spares s t) : Sending t := by
  obtain ⟨new, log, unsent⟩ := spares.empty.log
  obtain ⟨same, log', kept⟩ := spares.same
  obtain rfl := List.append_cancel_right (log'.symm.trans log)
  have none_ : ∀ e ∈ same, e.accepted = none := fun e member => (unsent e member).accepted
  refine ⟨?_, fun accepted lasting => ?_⟩
  · rw [log]
    exact held.history.append_of_forall fun e member => prompt_of_none (unsent e member).committed
  · rw [log, acceptedCommand_append none_] at accepted
    rw [log, sinceAccept_append none_] at lasting ⊢
    obtain ⟨⟨calm, -⟩, before⟩ := Lasting.append.mp lasting
    rw [deliveredOf_append, deliveredOf_of_none fun e member => (unsent e member).committed,
      givesOf, occurrences_append, occurrences_eq_nil _ fun e member => (unsent e member).given,
      List.append_nil, List.append_nil, kept calm]
    exact held.yielded accepted before

theorem sending_stays {α : Type} {m : Fw α} (spares : Moves Spares m) :
    Stays Sending Sending m :=
  .of_moves spares (fun _ _ spares held => held.spares spares) fun _ => id

/-- A packet takes all there is in the bank. -/
theorem endpointClearIn_sending : Stays Sending Sending endpointClearIn := by
  refine (sending_stays moment_spares).bind fun _ => Stays.modify fun w held => ?_
  split
  · rename_i open_
    simp only [Bool.and_eq_true, Bool.not_eq_true'] at open_
    have bank : w.usb.uncommitted = w.usb.inBank := by rw [Usb.uncommitted, open_.2]; rfl
    have yielded := held.yielded
    rw [bank] at yielded
    refine ⟨⟨fun data found => ?_, held.history⟩, fun accepted lasting => ?_⟩
    · obtain rfl : w.usb.inBank = data := Option.some.inj found
      exact yielded
    · rw [acceptedCommand_cons rfl] at accepted
      rw [sinceAccept_cons rfl] at lasting ⊢
      have before := yielded accepted lasting.past
      rw [deliveredOf, commitsOf, occurrences_cons, List.flatten_append, givesOf, occurrences_cons]
      show (deliveredOf (sinceAccept w.log) ++ [w.usb.inBank].flatten) ++ [] =
        givesOf (sinceAccept w.log) ++ []
      rw [List.append_nil, List.append_nil, List.flatten_singleton]
      exact before
  · exact held

/-- A byte for the host goes into a free bank. -/
theorem endpointWrite8_sending (x : Byte) (held : Sending s) (free : s.usb.inBusy = false) :
    wp (endpointWrite8 x) (fun _ t => Sending t) Sending s := by
  simp only [endpointWrite8, onUsb, note, wp_bind, wp_modify]
  have bank : s.usb.uncommitted = s.usb.inBank := by rw [Usb.uncommitted, free]; rfl
  have grown : ({ s.usb with inBank := s.usb.inBank ++ [x] } : Usb).uncommitted =
      s.usb.inBank ++ [x] := by
    rw [Usb.uncommitted, free]
    rfl
  refine ⟨⟨prompt_of_none rfl _, held.history⟩, fun accepted lasting => ?_⟩
  rw [acceptedCommand_cons rfl] at accepted
  rw [sinceAccept_cons rfl] at lasting ⊢
  have before := held.yielded accepted lasting.past
  rw [bank] at before
  have same : deliveredOf (.give x :: sinceAccept s.log) = deliveredOf (sinceAccept s.log) := by
    rw [deliveredOf, commitsOf, occurrences_cons]
    exact congrArg List.flatten (List.append_nil _)
  rw [same, givesOf, occurrences_cons, grown, ← List.append_assoc, before]
  rfl

end Sending

/-! ## The endpoint while it is filled -/

/-- When the control endpoint is selected, the bus has been reset. -/
def Usb.EmptyAtControl (u : Usb) : Prop := u.selected = endpointControlEp → u.uncommitted = []

/-- The IN endpoint is selected, or the bus has been reset since it was. -/
def World.AtIn (w : World) : Prop :=
  w.usb.selected = vueCartReaderInEpAddr ∨
    (w.usb.selected = endpointControlEp ∧ w.usb.uncommitted = [])

theorem World.AtIn.control {w : World} (at_ : w.AtIn) : w.usb.EmptyAtControl := fun control => by
  rcases at_ with isIn | ⟨-, empty⟩
  · exact nomatch isIn.symm.trans control
  · exact empty

theorem moment_emptyAtControl : Stays (fun w => w.usb.EmptyAtControl) Anywhere moment :=
  moment_usb (fun _ _ => id) (fun _ _ _ => rfl) fun u i held => by
    cases i with
    | endOfReset => exact fun _ => rfl
    | _ => exact held

theorem moment_atIn : Stays World.AtIn Anywhere moment :=
  moment_usb
    (P := fun u => u.selected = vueCartReaderInEpAddr ∨
      (u.selected = endpointControlEp ∧ u.uncommitted = []))
    (fun _ _ => id)
    (fun _ held => held.imp id fun ⟨control, _⟩ => ⟨control, rfl⟩) fun u i held => by
      cases i with
      | endOfReset => exact .inr ⟨rfl, rfl⟩
      | _ => exact held

theorem note_atIn (e : Event) : Stays World.AtIn Anywhere (note e) := Stays.modify fun _ => id

theorem endpointIsReadWriteAllowed_atIn :
    Stays World.AtIn Anywhere endpointIsReadWriteAllowed :=
  moment_atIn.bind fun _ => .ite (fun _ => (note_atIn _).bind fun _ => .pure _) fun _ =>
    .bind .state fun _ => .pure _

theorem endpointWaitUntilReady_atIn : Stays World.AtIn Anywhere endpointWaitUntilReady :=
  moment_atIn.bind fun _ => .bind .state fun _ => .ite (fun _ => .pure _) fun _ =>
    moment_atIn.bind fun _ => .bind .state fun _ => .pure _

theorem endpointClearIn_atIn : Stays World.AtIn Anywhere endpointClearIn :=
  moment_atIn.bind fun _ => Stays.modify fun w held => by
    split
    · exact held.imp id fun ⟨control, _⟩ => ⟨control, rfl⟩
    · exact held

/-- While the library serves a request, nothing is written into an empty bank. -/
theorem usbUsbTask_selects (s : World) :
    wp usbUsbTask (fun _ t => ∃ u : World, StaysEmpty u t ∧ t.usb.selected = u.usb.selected ∧
      (s.usb.EmptyAtControl → u.usb.EmptyAtControl) ∧ (s.AtIn → u.AtIn)) Anywhere s := by
  have first : wp moment (fun _ u => (s.usb.EmptyAtControl → u.usb.EmptyAtControl) ∧
      (s.AtIn → u.AtIn)) Anywhere s := by
    unfold wp
    cases run : moment s with
    | cut u => trivial
    | value m u =>
        exact ⟨fun held => (moment_emptyAtControl s held).of_value run,
          fun held => (moment_atIn s held).of_value run⟩
  refine wp.bind first fun _ u ⟨control, at_⟩ => ?_
  rw [wp_bind, wp_state, wp_ite]
  refine ⟨fun _ => ⟨u, .refl u, rfl, control, at_⟩, fun _ => ?_⟩
  have served : Moves StaysEmpty (do
      endpointSelectEndpoint endpointControlEp
      serveSetup (← nextSetup)) :=
    (requests_staysEmpty.select _).bind fun _ => nextSetup_staysEmpty.bind fun setup =>
      requests_staysEmpty.parts.serveSetup setup
  have ends := served u
  rw [wp_bind] at ends ⊢
  refine ends.mono (fun _ v ends => ?_) fun _ _ => trivial
  rw [wp_bind] at ends ⊢
  refine ends.mono (fun setup x ends => ?_) fun _ _ => trivial
  refine wp.bind (ends.mono (fun _ _ moved => moved) fun _ _ => trivial) fun _ y moved => ?_
  exact ⟨u, moved.trans (.of_none rfl id), rfl, control, at_⟩

theorem usbUsbTask_atIn : Stays World.AtIn Anywhere usbUsbTask := fun s held =>
  (usbUsbTask_selects s).mono (fun _ _ ⟨_, stays, same, _, at_⟩ =>
    (at_ held).imp (same.trans ·) fun ⟨control, empty⟩ => ⟨same.trans control, stays.empty empty⟩)
    fun _ _ => trivial

theorem usbUsbTask_emptyAtControl :
    Stays (fun w => w.usb.EmptyAtControl) Anywhere usbUsbTask := fun s held =>
  (usbUsbTask_selects s).mono (fun _ _ ⟨_, stays, same, control, _⟩ selected =>
    stays.empty (control held (same.symm.trans selected))) fun _ _ => trivial

theorem endpointClearIn_emptyAtControl :
    Stays (fun w => w.usb.EmptyAtControl) Anywhere endpointClearIn :=
  moment_emptyAtControl.bind fun _ => Stays.modify fun w held => by
    split
    · exact fun _ => rfl
    · exact held

theorem freeOut_emptyAtControl (by_ : Actor) :
    Stays (fun w => w.usb.EmptyAtControl) Anywhere (freeOut by_) :=
  Stays.modify fun w held => by
    split <;> exact held

theorem endpointClearOut_emptyAtControl (by_ : Actor) :
    Stays (fun w => w.usb.EmptyAtControl) Anywhere (endpointClearOut by_) :=
  moment_emptyAtControl.bind fun _ => .bind .state fun _ => .whenever fun _ =>
    freeOut_emptyAtControl by_

theorem refuseOut_emptyAtControl :
    Stays (fun w => w.usb.EmptyAtControl) Anywhere refuseOut := by
  have cleared : Stays (fun w => w.usb.EmptyAtControl) Anywhere
      (endpointResetEndpoint .task vueCartReaderOutEpAddr) :=
    moment_emptyAtControl.bind fun _ => .ite (fun _ => freeOut_emptyAtControl _) fun _ =>
      .ite (fun isIn => nomatch isIn) fun _ => .pure _
  have stalled : Stays (fun w => w.usb.EmptyAtControl) Anywhere endpointStallTransaction := by
    refine moment_emptyAtControl.bind fun _ => .bind .state fun _ => .bind (.modify fun _ => id)
      fun _ => Stays.modify fun w held control => ?_
    rw [Usb.setStalled_uncommitted]
    refine held ?_
    rw [← control, Usb.setStalled]
    split
    · rfl
    · split <;> rfl
  exact cleared.bind fun _ => .bind .state fun _ => .bind (.modify fun _ => id) fun _ => stalled

theorem endpointClearIn_empty :
    Stays (fun w => w.usb.uncommitted = []) Anywhere endpointClearIn := fun s held =>
  wp.bind ((moment_staysEmpty s).mono (fun _ _ stays => stays.empty held) fun _ _ => trivial)
    fun _ t empty => by
      rw [wp_modify]
      split
      · rfl
      · exact empty

/-- A packet empties the bank. -/
theorem endpointClearIn_empties {s : World} (at_ : s.AtIn) :
    wp endpointClearIn (fun _ t => t.usb.uncommitted = []) Anywhere s := by
  refine wp.bind (moment_atIn s at_) fun _ u at_ => ?_
  rw [wp_modify]
  split
  · rfl
  · rename_i shut
    rcases at_ with selected | ⟨-, empty⟩
    · have busy : u.usb.inBusy = true := by simpa [selected] using shut
      rw [Usb.uncommitted, if_pos busy]
    · exact empty

/-! ## The tasks -/

/-- Outside a read nothing waits in the IN bank for its packet. -/
structure Delivering (w : World) : Prop where
  sending : Sending w
  drained : w.vars.curVueState ≠ .read → w.usb.uncommitted = []
  control : w.usb.EmptyAtControl

/-- Bytes are given to a bank that allows it, and packets take them out. -/
theorem sendChunk_keeps (load : Nat → Vars → Byte) (n : Nat) :
    StreamKeeps (writeStream load) n (fun _ t => Sending t ∧ t.AtIn) Sending := by
  have both {α : Type} {m : Fw α} (sending : Stays Sending Sending m)
      (at_ : Stays World.AtIn Anywhere m) : Stays (fun t => Sending t ∧ t.AtIn) Sending m :=
    (sending.and at_).mono fun _ cut => cut.1
  refine
    { weaker := fun _ _ _ held => held.1
      noted := fun p t e held ok => ?_
      ready := fun _ _ => both (sending_stays endpointWaitUntilReady_spares)
        endpointWaitUntilReady_atIn
      allowed := fun _ _ => both (sending_stays endpointIsReadWriteAllowed_spares)
        endpointIsReadWriteAllowed_atIn
      transfer := fun p less t held open_ => ?_
      clear := fun _ _ t held _ => both endpointClearIn_sending endpointClearIn_atIn t held
      task := fun _ _ => both (sending_stays usbUsbTask_spares) usbUsbTask_atIn }
  · have unsent : e.Unsent := by
      cases e <;> first | exact ⟨rfl, rfl, rfl⟩ | exact nomatch ok
    exact ⟨held.1.spares (.of_one rfl unsent rfl), held.2⟩
  · obtain ⟨sending, at_⟩ := held
    rcases at_ with selected | ⟨control, -⟩
    · have free : t.usb.inBusy = false := by
        by_contra busy
        simp [Usb.readWriteAllowed, selected, busy] at open_
      have written := endpointWrite8_sending (load p t.vars) sending free
      show wp (state >>= fun w : World => endpointWrite8 (load p w.vars)) _ _ t
      rw [wp_bind, wp_state]
      have same : wp (endpointWrite8 (load p t.vars))
          (fun _ u => u.usb.selected = vueCartReaderInEpAddr) Anywhere t := selected
      exact (written.and same).mono (fun _ _ ends => ⟨ends.1, .inl ends.2⟩) fun _ cut => cut.1
    · simp [Usb.readWriteAllowed, control] at open_

section Tasks

variable {s : World}

theorem finishRead_delivering (held : Sending s) (at_ : s.AtIn) :
    wp finishRead (fun _ t => Delivering t) Sending s := by
  have released : wp deselect (fun _ t => Sending t ∧ t.AtIn) Sending s :=
    (deselect_works s).mono (fun _ t works => ⟨held.spares works.spares, by
      rw [World.AtIn, works.usb]
      exact at_⟩) fun _ works => held.spares works.spares
  refine released.bind fun _ t ⟨held, at_⟩ => ?_
  rw [wp_bind, taskClearIn, wp_bind, wp_state, wp_bind, note, wp_modify]
  have noted : Sending { t with log := .operate .clearIn t.usb.selected :: t.log } :=
    held.spares (.of_one rfl ⟨rfl, rfl, rfl⟩ rfl)
  refine ((endpointClearIn_sending _ noted).and (endpointClearIn_empties (by exact at_))).mono
    (fun _ u ends => ?_) fun _ cut => cut.1
  exact ⟨ends.1.spares (.of_none rfl rfl), fun _ => ends.2, fun _ => ends.2⟩

/-- The state and the IN bank, when the transfer goes on. -/
theorem Delivering.of_read {t : World} (held : Sending t) (at_ : t.AtIn)
    (reading : t.vars.curVueState = .read) : Delivering t :=
  ⟨held, fun other => absurd reading other, at_.control⟩

/-- The end of a chunk of a read. -/
theorem endSend_delivering (length : BitVec 32) (held : Sending s) (at_ : s.AtIn)
    (reading : s.vars.curVueState = .read) :
    wp (do
      shortenCommand length
      whenever ((← state).vars.curCommand.length = 0#32) finishRead)
      (fun _ t => Delivering t) Sending s := by
  rw [wp_bind, shortenCommand, onVars, wp_modify, wp_bind, wp_state, wp_whenever]
  have shortened := held.spares (.of_none (t := s.shortened length) rfl rfl)
  exact ⟨fun _ => finishRead_delivering shortened at_, fun _ => .of_read shortened at_ reading⟩

/-- A chunk is committed, and the last one with the end of the read. -/
theorem vueBulkReadTask_delivering {c : VueCommand} (held : Delivering s) (bus : BusInvariant s)
    (going : InProgress c 0 s) (reading : s.vars.curVueState = .read)
    (selected : s.At vueCartReaderInEpAddr) :
    wp vueBulkReadTask (fun _ t => Delivering t) Sending s := by
  have at_ : s.AtIn := selected.imp id fun control => ⟨control, held.control control⟩
  rw [vueBulkReadTask, wp_bind, wp_state, if_neg (by rw [going.phase]; decide), if_pos going.phase]
  obtain ⟨a, -, run⟩ := bulkAccess_eq (chunkLength_inside s.vars) bus.ready.resting going.func
  have works := bulkAccess_works (chunkLength s.vars) s
  rw [wp_of_value run] at works
  obtain ⟨t, eq⟩ : ∃ t, t = s.accessed c.func (chunkLength s.vars) a := ⟨_, rfl⟩
  rw [wp_bind, wp_of_value run, ← eq]
  rw [← eq] at works
  have ready : Sending t ∧ t.AtIn := ⟨held.sending.spares works.spares, by
    rw [World.AtIn, works.usb]
    exact at_⟩
  replace reading : t.vars.curVueState = .read := by
    rw [eq]
    exact reading
  have streamed := writeStream_streamed loadBuffer (chunkLength s.vars).toNat t
  have ends := stream_rule (sendChunk_keeps loadBuffer _) (chunkLength_pos going) t ready
  refine wp.bind ((streamed.and ends).mono (fun _ _ ends => ends) fun _ cut => cut.2)
    fun ok u sent => ?_
  obtain ⟨streamed, done, abandoned⟩ := sent
  obtain ⟨_, _, _, _, _, vars⟩ := streamed.vars
  have still : u.vars.curVueState = .read := by
    rw [vars]
    exact reading
  have ready : Sending u ∧ u.AtIn := by
    cases ok with
    | false =>
        obtain ⟨p, -, ready⟩ := abandoned rfl
        exact ready
    | true =>
        rcases done rfl with ready | ⟨p, -, r, v, -, ready, rfl⟩
        · exact ready
        · exact ⟨ready.1.spares (.of_one rfl ⟨rfl, rfl, rfl⟩ rfl), ready.2⟩
  rw [wp_ite]
  exact ⟨fun _ => endSend_delivering _ ready.1 ready.2 still,
    fun _ => .of_read ready.1 ready.2 still⟩

/-- Where nothing is sent in an idle state, the bank stays empty. -/
theorem Delivering.spares {t : World} (held : Delivering s) (idle : s.vars.curVueState ≠ .read)
    (spares : Spares s t) : Sending t ∧ t.usb.uncommitted = [] :=
  ⟨held.sending.spares spares, spares.empty.empty (held.drained idle)⟩

theorem delivering_of_empty {t : World} (held : Sending t ∧ t.usb.uncommitted = []) :
    Delivering t := ⟨held.1, fun _ => held.2, fun _ => held.2⟩

/-- A command is accepted while the bank is empty. -/
theorem Sending.accepted {t : World} {c : VueCommand} {new : List Event}
    (held : Sending s) (empty : s.usb.uncommitted = []) (log : t.log = new ++ .accept c :: s.log)
    (unsent : ∀ e ∈ new, e.Unsent) (usb : t.usb = s.usb) : Sending t := by
  have accepted : Sending { s with log := .accept c :: s.log } := by
    refine ⟨⟨prompt_of_none rfl _, held.history⟩, fun _ _ => ?_⟩
    show deliveredOf [] ++ s.usb.uncommitted = givesOf []
    rw [empty]
    rfl
  exact accepted.spares (.of_log log unsent (by rw [usb]))

theorem judgeCommand_delivering (held : Sending s ∧ s.usb.uncommitted = []) :
    wp judgeCommand (fun _ t => Sending t ∧ t.usb.uncommitted = []) Sending s := by
  have sparing {u t : World} (same : Sending u ∧ u.usb.uncommitted = []) (spares : Spares u t) :
      Sending t ∧ t.usb.uncommitted = [] :=
    ⟨same.1.spares spares, spares.empty.empty same.2⟩
  rw [judgeCommand, wp_bind, onVars, wp_modify, wp_bind, wp_state, wp_ite, wp_ite]
  refine ⟨fun defined => ⟨fun _ => ?_, fun _ => ?_⟩, fun _ => ?_⟩
  · exact sparing held (.of_one rfl ⟨rfl, rfl, rfl⟩ rfl)
  · rw [wp_of_value (startCommand_eq defined)]
    refine ⟨held.1.accepted held.2 rfl (fun e member => ?_) rfl, held.2⟩
    obtain ⟨_, _, rfl⟩ := portEvents_kind _ _ _ e member
    exact ⟨rfl, rfl, rfl⟩
  · rw [wp_bind, note, wp_modify]
    have rejected := sparing held (t := { s with
      vars := { s.vars with curCommand := s.vars.curCommand.correct }
      log := .reject s.vars.curCommand.correct :: s.log }) (.of_one rfl ⟨rfl, rfl, rfl⟩ rfl)
    exact (refuseOut_spares _).mono (fun _ _ spares => sparing rejected spares)
      fun _ spares => (sparing rejected spares).1

theorem vueCommandTask_delivering (held : Delivering s) (idle : s.vars.curVueState = .idle) :
    wp vueCommandTask (fun _ t => Sending t ∧ t.usb.uncommitted = []) Sending s := by
  have other : s.vars.curVueState ≠ .read := by
    rw [idle]
    exact nofun
  have received : Moves Spares (do
      note (.command (← state).vars.curCommand)
      stream (readStream storeCommand) 32) :=
    .bind .state fun _ => (note_spares ⟨rfl, rfl, rfl⟩).bind fun _ => readStream_spares _ _
  have ends := received s
  rw [wp_bind] at ends
  rw [vueCommandTask, wp_bind]
  refine ends.mono (fun w u ends => ?_) fun _ spares => (held.spares other spares).1
  rw [wp_bind] at ends ⊢
  refine ends.mono (fun _ v ends => ?_) fun _ spares => (held.spares other spares).1
  refine wp.bind (ends.mono (fun _ _ spares => held.spares other spares)
    fun _ spares => (held.spares other spares).1) fun ok t same => ?_
  rw [wp_ite]
  exact ⟨fun _ => judgeCommand_delivering same, fun _ => same⟩

theorem vueBulkWriteTask_spares : Moves Spares vueBulkWriteTask := by
  have works {α : Type} {m : Fw α} (works : Moves Works m) : Moves Spares m :=
    works.mono fun _ _ => Works.spares
  exact .bind .state fun _ => .ite (fun _ => works (beginTransfer_works _)) fun _ =>
    .ite (fun _ => (readStream_spares _ _).bind fun _ => .ite (fun _ => works (storeChunk_works _))
      fun _ => .pure _) fun _ => works finishWrite_works

end Tasks

/-! ## Runs -/

/-- The ledger, and what is known of the IN bank. -/
def Stocked (plug : Option Plug) (w : World) : Prop := Ledger plug w ∧ Delivering w

/-- What is known of a run wherever it is cut. -/
def Dispatched (plug : Option Plug) (w : World) : Prop :=
  Accounted plug w ∧ History Prompt w.log

section Runs

variable {plug : Option Plug} {s t : World}

theorem Delivering.served (held : Delivering s) (spares : Spares s t)
    (state : t.vars.curVueState = s.vars.curVueState) (control : t.usb.EmptyAtControl) :
    Delivering t :=
  ⟨held.sending.spares spares, fun other =>
    spares.empty.empty (held.drained (by rwa [← state])), control⟩

/-- What looks at the endpoints and leaves the variables alone keeps both invariants. -/
theorem stocked_stays {α : Type} {m : Fw α} (spares : Moves Spares m)
    (framed : Moves (Framed OfUsb) m)
    (control : Stays (fun w => w.usb.EmptyAtControl) Anywhere m)
    (ledger : Stays (Ledger plug) (Accounted plug) m) :
    Stays (Stocked plug) (Dispatched plug) m := fun s held =>
  (((spares s).and (framed s)).and ((control s held.2.control).and (ledger s held.1))).mono
    (fun _ t ⟨⟨spares, framed⟩, control, ledger⟩ =>
      ⟨ledger, held.2.served spares (by rw [framed.vars]) control⟩)
    fun t ⟨⟨spares, _⟩, _, accounted⟩ => ⟨accounted, (held.2.sending.spares spares).history⟩

theorem stocked_endpoints (plug : Option Plug) :
    EndpointsKeep (Stocked plug) (Dispatched plug) := by
  have keep := ledger_endpoints plug
  have looked : Stays (fun w => w.usb.EmptyAtControl) Anywhere endpointIsReadWriteAllowed :=
    moment_emptyAtControl.bind fun _ => .ite (fun _ => .bind (.modify fun _ => id) fun _ => .pure _)
      fun _ => .bind .state fun _ => .pure _
  have waited : Stays (fun w => w.usb.EmptyAtControl) Anywhere endpointWaitUntilReady :=
    moment_emptyAtControl.bind fun _ => .bind .state fun _ => .ite (fun _ => .pure _) fun _ =>
      moment_emptyAtControl.bind fun _ => .bind .state fun _ => .pure _
  have seen : Stays (fun w => w.usb.EmptyAtControl) Anywhere endpointIsOutReceived :=
    moment_emptyAtControl.bind fun _ => .bind .state fun _ => .pure _
  have ready : Stays (fun w => w.usb.EmptyAtControl) Anywhere endpointIsInReady :=
    moment_emptyAtControl.bind fun _ => .bind .state fun _ => .pure _
  refine
    { note := fun e ok s held => ?_
      select := fun address other => stocked_stays (endpointSelectEndpoint_spares address)
        (endpointSelectEndpoint_framed address) (Stays.modify fun _ _ isControl =>
          absurd isControl other) (keep.select address other)
      outReceived := stocked_stays endpointIsOutReceived_spares endpointIsOutReceived_framed seen
        keep.outReceived
      inReady := stocked_stays endpointIsInReady_spares endpointIsInReady_framed ready keep.inReady
      allowed := stocked_stays endpointIsReadWriteAllowed_spares endpointIsReadWriteAllowed_framed
        looked keep.allowed
      ready := stocked_stays endpointWaitUntilReady_spares endpointWaitUntilReady_framed waited
        keep.ready
      clearIn := fun s held => ?_ }
  · have unsent : e.Unsent := by
      cases e <;> first | exact ⟨rfl, rfl, rfl⟩ | exact nomatch ok
    exact ⟨keep.noted ok held.1, held.2.served (.of_one rfl unsent rfl) rfl held.2.control⟩
  · have ends := ((endpointClearIn_sending s held.2.sending).and
      (endpointClearIn_emptyAtControl s held.2.control)).and
      ((keep.clearIn s held.1).and (endpointClearIn_framed s))
    have empty (idle : s.vars.curVueState ≠ .read) := endpointClearIn_empty s (held.2.drained idle)
    unfold wp at ends empty ⊢
    cases run : endpointClearIn s with
    | cut t =>
        rw [run] at ends
        exact ⟨ends.2.1, ends.1.1.history⟩
    | value _ t =>
        rw [run] at ends empty
        obtain ⟨⟨sending, control⟩, ledger, framed⟩ := ends
        refine ⟨ledger, sending, fun idle => empty ?_, control⟩
        rwa [framed.vars] at idle

theorem stocked_tasks (plug : Option Plug) :
    TasksKeep (Stocked plug) (Stocked plug) (Dispatched plug) := by
  have tasks := ledger_tasks plug
  have keep := stocked_endpoints plug
  refine
    { command := fun s held found idle => ?_, write := fun s held found writing => ?_
      refuse := fun s held found notIdle notWriting => ?_, free := fun s x held => ?_
      read := fun s held clear reading selected => ?_ }
  · exact ((tasks.command s held.1 found idle).and (vueCommandTask_delivering held.2 idle)).mono
      (fun _ _ ends => ⟨ends.1, delivering_of_empty ends.2⟩) fun _ cut => ⟨cut.1, cut.2.history⟩
  · have other : s.vars.curVueState ≠ .read := by
      rw [writing]
      exact nofun
    exact ((tasks.write s held.1 found writing).and (vueBulkWriteTask_spares s)).mono
      (fun _ _ ends => ⟨ends.1, delivering_of_empty (held.2.spares other ends.2)⟩)
      fun _ cut => ⟨cut.1, (held.2.spares other cut.2).1.history⟩
  · have ledger : Stays (Ledger plug) (Accounted plug) refuseOut :=
      .of_moves refuseOut_framed (ledger_of_framed plug) fun _ held => held.books.history
    exact stocked_stays refuseOut_spares refuseOut_framed refuseOut_emptyAtControl ledger s held
  · have ledger : Stays (Ledger plug) (Accounted plug) (endpointClearOut .task) :=
      .of_moves (endpointClearOut_framed _) (ledger_of_framed plug) fun _ held => held.books.history
    exact stocked_stays (endpointClearOut_spares _) (endpointClearOut_framed _)
      (endpointClearOut_emptyAtControl _) ledger _ (keep.noted rfl held)
  · obtain ⟨c, -, going⟩ := held.1.machine.tracked.progress (by rw [reading]; exact nofun)
    exact ((tasks.read s held.1 clear reading selected).and
      (vueBulkReadTask_delivering held.2 held.1.machine.bus going reading selected)).mono
      (fun _ _ ends => ⟨ends.1, ends.2⟩) fun _ cut => ⟨cut.1, cut.2.history⟩

theorem restoreDefaultState_staysEmpty : Moves StaysEmpty restoreDefaultState := by
  have written : Moves StaysEmpty (onBus .main writeDefaultState) := Moves.modify fun _ => by
    refine ⟨⟨_, rfl, fun e member => ?_⟩, id⟩
    obtain ⟨_, _, rfl⟩ := portEvents_kind _ _ _ e member
    exact ⟨rfl, rfl, rfl⟩
  have noted : Moves StaysEmpty (note .outReset) :=
    Moves.modify fun _ => .of_one rfl ⟨rfl, rfl, rfl⟩ id
  have clear (address : Nat) : Moves StaysEmpty (clearEndpointStall address) :=
    (requests_staysEmpty.select address).bind fun _ => endpointClearStall_staysEmpty
  refine written.bind fun _ => .bind (Moves.modify fun _ => .of_none rfl id) fun _ =>
    (endpointResetEndpoint_staysEmpty _ _).bind fun _ => noted.bind fun _ =>
      (endpointResetEndpoint_staysEmpty _ _).bind fun _ => (clear _).bind fun _ =>
        (clear _).bind fun _ => moment_staysEmpty.bind fun _ => Moves.modify fun w =>
          .of_none rfl fun empty => ?_
  dsimp only
  split
  · rfl
  · exact empty

/-- Of a session that a reset has ended nothing is said. -/
theorem Sending.ended (held : Sending s) (reset : .resetBegin ∈ sinceAccept s.log)
    (logs : Logs Event.Unsent s t) : Sending t := by
  obtain ⟨new, log, unsent⟩ := logs
  refine ⟨?_, fun _ lasting => absurd ?_ lasting.2⟩
  · rw [log]
    exact held.history.append_of_forall fun e member => prompt_of_none (unsent e member).committed
  · rw [log, sinceAccept_append fun e member => (unsent e member).accepted]
    exact List.mem_append_right _ reset

/-- The reset block ends the session, and empties the bank. -/
theorem resetBlock_delivering (held : Sending s) (ready : s.BusReady) :
    wp resetBlock (fun _ t => Delivering t) Sending s := by
  have rest : Moves StaysEmpty (do
      restoreDefaultState
      onVars fun v => { v with bulkReset := 0#32 }
      note .resetEnd) :=
    restoreDefaultState_staysEmpty.bind fun _ => .bind (Moves.modify fun _ => .of_none rfl id)
      fun _ => Moves.modify fun _ => .of_one rfl ⟨rfl, rfl, rfl⟩ id
  have spec := resetBlock_spec ready
  have begun : Sending { s with log := .resetBegin :: s.log } :=
    held.spares (.of_one rfl ⟨rfl, rfl, rfl⟩ rfl)
  have reset : .resetBegin ∈ sinceAccept (.resetBegin :: s.log) := by
    rw [sinceAccept_cons rfl]
    exact List.mem_cons_self ..
  rw [resetBlock, note, wp_bind, wp_modify] at spec ⊢
  refine ((rest _).and spec).mono (fun _ t ends => ?_) fun t cut => begun.ended reset cut.1.log
  obtain ⟨stays, final, -⟩ := ends
  have empty : t.usb.uncommitted = [] := by
    rw [Usb.uncommitted, final.collected.1, ite_self]
  exact ⟨begun.ended reset stays.log, fun _ => empty, fun _ => empty⟩

theorem usbUsbTask_stocked : Stays (Stocked plug) (Dispatched plug) usbUsbTask := fun s held => by
  refine (((usbUsbTask_spares s).and (usbUsbTask_served s)).and
    ((usbUsbTask_emptyAtControl s held.2.control).and
      (usbUsbTask_keepsLedger plug s held.1))).mono
    (fun _ t ⟨⟨spares, served⟩, control, ledger⟩ => ⟨ledger, held.2.served spares ?_ control⟩)
    fun t ⟨⟨spares, _⟩, _, accounted⟩ => ⟨accounted, (held.2.sending.spares spares).history⟩
  obtain ⟨_, _, _, vars⟩ := served.vars
  rw [vars]

theorem mainIteration_stocked : Stays (Stocked plug) (Dispatched plug) mainIteration :=
  mainIteration_stays usbUsbTask_stocked
    (vueTask_stays (stocked_endpoints plug) (stocked_tasks plug)) fun s held _ =>
      ((resetBlock_keepsLedger plug s held.1).and
        (resetBlock_delivering held.2.sending held.1.machine.bus.ready)).mono
        (fun _ _ ends => ⟨ends.1, ends.2⟩) fun _ cut => ⟨cut.1, cut.2.history⟩

/-- A run keeps what is to be delivered in order. -/
theorem mainLoop_stocked (inputs : List Input)
    (plugged : ∀ i ∈ inputs, ∀ p ∈ plug, i.cartridge = p.cartridge) :
    Stays (Stocked plug) (Dispatched plug) (mainLoop inputs) :=
  mainLoop_stays inputs (fun i member _ held => ⟨held.1.offer (plugged i member),
    ⟨held.2.sending.spares (.of_none rfl rfl), held.2.drained, held.2.control⟩⟩)
    mainIteration_stocked

theorem Started.stocked {w : World} (started : Started w) : Stocked none w := by
  have ledger := started.ledger
  obtain ⟨_, _, _, _, _, rfl⟩ := started
  exact ⟨ledger, ⟨trivial, nofun⟩, fun _ => rfl, fun _ => rfl⟩

end Runs

end VueCartReader
