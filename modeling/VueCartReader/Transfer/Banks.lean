import VueCartReader.Device.Parts
import VueCartReader.Transfer.Packets

/-!
# What the banks hold after a configuration

When the host configures the device, both banks are emptied. From then on whatever is taken
from the OUT bank has been sent since, and whatever the host collects has been given since
(`mainLoop_banked`). That is all that the configuration does: what the firmware has of a
transfer in its variables is left as it is.
-/

set_option autoImplicit false

namespace VueCartReader

open Program

/-! ## Flows -/

section Flow

variable {α : Type}

/-- Of what was held and what came, some went, in order, and of the rest some is left. -/
def Flow (held came went left : List α) : Prop := (went ++ left).Sublist (held ++ came)

namespace Flow

variable {held came went left : List α}

/-- Nothing comes and nothing goes, but something may be lost. -/
theorem shrink (less : left.Sublist held) : Flow held [] [] left := by
  rw [Flow, List.nil_append, List.append_nil]
  exact less

theorem trans {came' went' left' : List α} (one : Flow held came went left)
    (two : Flow left came' went' left') : Flow held (came ++ came') (went ++ went') left' := by
  have later : (went ++ (went' ++ left')).Sublist (went ++ (left ++ came')) :=
    (List.Sublist.refl went).append two
  have earlier : ((went ++ left) ++ came').Sublist ((held ++ came) ++ came') :=
    one.append (List.Sublist.refl came')
  rw [← List.append_assoc, ← List.append_assoc] at later
  rw [List.append_assoc held] at earlier
  exact later.trans earlier

/-- Some of what is left is lost. -/
theorem lose (flow : Flow held came went left) {left' : List α} (less : left'.Sublist left) :
    Flow held came went left' :=
  ((List.Sublist.refl went).append less).trans flow

/-- What has gone out of an empty bank has come in. -/
theorem gone (flow : Flow [] came went left) : went.Sublist came :=
  (List.sublist_append_left went left).trans flow

end Flow

end Flow

/-! ## The banks -/

/-- The packet that the host collects. -/
def Event.collected : Event → Option (List Byte)
  | .collect data => some data
  | _ => none

/-- The bytes the host has collected. -/
def collectedOf (log : List Event) : List Byte := (occurrences Event.collected log).flatten

theorem collectedOf_cons (e : Event) (log : List Event) :
    collectedOf (e :: log) = collectedOf log ++ e.collected.getD [] := by
  rw [collectedOf, occurrences_cons, List.flatten_append]
  cases e.collected <;> simp [collectedOf]

theorem sentOf_cons (e : Event) (log : List Event) :
    sentOf (e :: log) = sentOf log ++ e.sent.getD [] := by
  rw [sentOf, packetsOf, occurrences_cons, List.flatten_append]
  cases e.sent <;> simp [sentOf]

/-- What an event says about the banks is true of them before and after. -/
structure Flows (e : Event) (u v : Usb) : Prop where
  out : Flow (u.outBank.getD []) (e.sent.getD []) e.taken.toList (v.outBank.getD [])
  inn : Flow u.inBank e.given.toList (e.collected.getD []) v.inBank
  emptied : e = .configurationChanged → v.outBank = none ∧ v.inBank = []

/-- By such an event nothing enters or leaves a bank. -/
structure Event.Still (e : Event) : Prop where
  sent : e.sent = none
  taken : e.taken = none
  given : e.given = none
  collected : e.collected = none
  apart : e ≠ .configurationChanged

/-- The banks keep what they hold, or lose some of it. -/
structure Usb.Less (u v : Usb) : Prop where
  out : (v.outBank.getD []).Sublist (u.outBank.getD [])
  inn : v.inBank.Sublist u.inBank

theorem Usb.Less.same {u v : Usb} (out : v.outBank = u.outBank) (inn : v.inBank = u.inBank) :
    u.Less v := by
  refine ⟨?_, ?_⟩
  · rw [out]
  · rw [inn]

theorem Event.Still.flows {e : Event} (still : e.Still) {u v : Usb} (less : u.Less v) :
    Flows e u v := by
  refine ⟨?_, ?_, fun configured => absurd configured still.apart⟩
  · rw [still.sent, still.taken]
    exact .shrink less.out
  · rw [still.given, still.collected]
    exact .shrink less.inn

/-- What went through the banks since the endpoints were configured is what the banks let
through. -/
structure Since (since : List Event) (u : Usb) : Prop where
  out : Flow [] (sentOf since) (takesOf since) (u.outBank.getD [])
  inn : Flow [] (givesOf since) (collectedOf since) u.inBank

/-- Nothing comes out of the banks that was put into them before they were configured. -/
structure Own (since : List Event) : Prop where
  taken : (takesOf since).Sublist (sentOf since)
  collected : (collectedOf since).Sublist (givesOf since)

theorem Since.own {since : List Event} {u : Usb} (held : Since since u) : Own since :=
  ⟨held.out.gone, held.inn.gone⟩

theorem Since.step {since : List Event} {e : Event} {u v : Usb} (held : Since since u)
    (flows : Flows e u v) : Since (e :: since) v := by
  refine ⟨?_, ?_⟩
  · rw [sentOf_cons, takesOf, occurrences_cons]
    exact held.out.trans flows.out
  · rw [collectedOf_cons, givesOf, occurrences_cons]
    exact held.inn.trans flows.inn

/-- The banks, and what has gone through them since each configuration. -/
structure Banked (w : World) : Prop where
  since : ∀ since older, w.log = since ++ .configurationChanged :: older → Since since w.usb
  history : History (fun _ past =>
    ∀ since older, past = since ++ .configurationChanged :: older → Own since) w.log

namespace Banked

variable {s t : World}

theorem one (held : Banked s) {e : Event} (log : t.log = e :: s.log) (flows : Flows e s.usb t.usb) :
    Banked t := by
  refine ⟨fun since older split => ?_, ?_⟩
  · rw [log] at split
    cases since with
    | nil =>
        cases split
        obtain ⟨out, inn⟩ := flows.emptied rfl
        refine ⟨?_, ?_⟩
        · rw [out]
          exact .shrink (List.Sublist.refl _)
        · rw [inn]
          exact .shrink (List.Sublist.refl _)
    | cons f since =>
        obtain ⟨rfl, past⟩ := List.cons.inj split
        exact (held.since since older past).step flows
  · rw [log]
    exact ⟨fun since older split => (held.since since older split).own, held.history⟩

/-- Nothing is recorded. -/
theorem unrecorded (held : Banked s) (log : t.log = s.log) (less : s.usb.Less t.usb) :
    Banked t := by
  refine ⟨fun since older split => ?_, ?_⟩
  · have before := held.since since older (log ▸ split)
    exact ⟨before.out.lose less.out, before.inn.lose less.inn⟩
  · rw [log]
    exact held.history

/-- Events that do not concern the banks. -/
theorem still (held : Banked s) {new : List Event} (log : t.log = new ++ s.log)
    (all : ∀ e ∈ new, e.Still) (less : s.usb.Less t.usb) : Banked t := by
  have noted : Banked { s with log := new ++ s.log } := by
    clear log
    induction new with
    | nil => exact held
    | cons e new ih =>
        have before := ih fun f member => all f (List.mem_cons_of_mem _ member)
        exact before.one rfl ((all e (List.mem_cons_self ..)).flows (.same rfl rfl))
  exact noted.unrecorded log less

end Banked

/-! ## What the host does -/

theorem banked_act (w : World) (a : HostAct) (held : Banked w) : Banked (w.act a) := by
  cases a with
  | sendOut packet =>
      rw [World.act]
      split
      · rename_i open_
        simp only [Bool.and_eq_true, Option.isNone_iff_eq_none] at open_
        refine held.one rfl ⟨?_, .shrink (List.Sublist.refl _), Event.noConfusion⟩
        rw [open_.1.2]
        exact List.Sublist.refl _
      · exact held
  | collectIn =>
      rw [World.act]
      split
      · refine held.one rfl ⟨.shrink (List.Sublist.refl _), ?_, Event.noConfusion⟩
        exact List.Sublist.refl _
      · exact held
  | interrupt i =>
      have quiet : (Event.interrupt i).Still := ⟨rfl, rfl, rfl, rfl, Event.noConfusion⟩
      refine held.one rfl (quiet.flows ?_)
      cases i with
      | endOfReset => exact ⟨List.nil_sublist _, List.nil_sublist _⟩
      | _ => exact .same rfl rfl

/-! ## What the firmware does -/

theorem moment_banked : Moves (Carries Banked) moment :=
  moment_moves (fun _ _ held => held.unrecorded rfl (.same rfl rfl)) banked_act

theorem onUsb_banked {f : Usb → Usb} (less : ∀ u : Usb, u.Less (f u)) :
    Moves (Carries Banked) (onUsb f) :=
  Moves.modify fun w held => held.unrecorded rfl (less w.usb)

theorem note_banked {e : Event} (still : e.Still) : Moves (Carries Banked) (note e) :=
  Moves.modify fun _ held => held.one rfl (still.flows (.same rfl rfl))

theorem still_of_firmware {e : Event} (ok : e.ofFirmware = true ∨ e.ofPart = true) : e.Still := by
  cases e <;> first
    | exact ⟨rfl, rfl, rfl, rfl, Event.noConfusion⟩
    | rcases ok with ok | ok <;> cases ok

theorem portEvents_still (by_ : Actor) (start : Board) (trace : List Board) :
    ∀ e ∈ portEvents by_ start trace, e.Still := by
  intro e member
  obtain ⟨before, after, rfl⟩ := portEvents_kind by_ start trace e member
  exact ⟨rfl, rfl, rfl, rfl, Event.noConfusion⟩

theorem setStalled_less (x : Bool) (u : Usb) : u.Less (u.setStalled x) := by
  unfold Usb.setStalled
  split_ifs <;> exact .same rfl rfl

theorem freeOut_banked (by_ : Actor) : Moves (Carries Banked) (freeOut by_) :=
  Moves.modify fun w held => by
    split
    · have quiet (unread : List Byte) : (Event.free by_ unread).Still :=
        ⟨rfl, rfl, rfl, rfl, Event.noConfusion⟩
      exact held.one rfl ((quiet _).flows ⟨List.nil_sublist _, List.Sublist.refl _⟩)
    · exact held

theorem resetIn_banked :
    Moves (Carries Banked) (onUsb fun u => { u with inBank := [], inBusy := false }) :=
  onUsb_banked (by exact fun _ => ⟨List.Sublist.refl _, List.nil_sublist _⟩)

theorem endpointClearIn_banked : Moves (Carries Banked) endpointClearIn :=
  moment_banked.bind fun _ => Moves.modify fun w held => by
    split
    · have quiet : (Event.commit w.usb.inBank).Still := ⟨rfl, rfl, rfl, rfl, Event.noConfusion⟩
      exact held.one rfl (quiet.flows (.same rfl rfl))
    · exact held

/-- A byte is taken out of the bank in which it is. -/
theorem endpointRead8_banked : Moves (Carries Banked) endpointRead8 := by
  intro s
  rw [endpointRead8, wp_bind, wp_state]
  split
  · rename_i x rest bank
    intro held
    refine held.one rfl ⟨?_, .shrink (List.Sublist.refl _), Event.noConfusion⟩
    show ([x] ++ rest).Sublist (s.usb.outBank.getD [] ++ [])
    rw [bank, Option.getD_some, List.append_nil]
    exact List.Sublist.refl _
  · exact id

theorem endpointWrite8_banked (x : Byte) : Moves (Carries Banked) (endpointWrite8 x) := by
  intro s held
  refine held.one rfl ⟨.shrink (List.Sublist.refl _), ?_, Event.noConfusion⟩
  exact List.Sublist.refl _

/-- Both bulk endpoints are configured anew, which empties them. -/
theorem eventUsbDeviceConfigurationChanged_banked :
    Moves (Carries Banked) eventUsbDeviceConfigurationChanged := by
  intro s
  rw [eventUsbDeviceConfigurationChanged, configureBulkEndpoints, wp_bind, wp_bind]
  refine (moment_banked s).mono (fun _ t carried held => ?_) fun _ => id
  refine (carried held).one rfl ⟨?_, ?_, fun _ => ⟨rfl, rfl⟩⟩
  · exact .shrink (List.nil_sublist _)
  · exact .shrink (List.nil_sublist _)

theorem banked_firmware : FirmwareKeeps (Carries Banked) where
  moment := moment_banked
  setup := nextSetup_moves fun _ _ held => held.unrecorded rfl (.same rfl rfl)
  select _ := onUsb_banked (by exact fun _ => .same rfl rfl)
  poll := controlPoll_moves (fun _ _ held => held.unrecorded rfl (.same rfl rfl)) banked_act
  apart f same := onUsb_banked fun u => .same (same u).outBank (same u).inBank
  note _ ok := note_banked (still_of_firmware (.inr ok))
  header := Moves.modify fun _ held => held.still rfl (portEvents_still _ _ _) (.same rfl rfl)
  reset := Moves.modify fun _ held =>
    held.one rfl (Event.Still.flows ⟨rfl, rfl, rfl, rfl, Event.noConfusion⟩ (.same rfl rfl))
  stall := moment_banked.bind fun _ => .bind .state fun _ =>
    (note_banked (still_of_firmware (.inr rfl))).bind fun _ => onUsb_banked (setStalled_less true)
  clearStall := moment_banked.bind fun _ => onUsb_banked (setStalled_less false)
  resetEndpoint _ := moment_banked.bind fun _ => .ite (fun _ => freeOut_banked _) fun _ =>
    .ite (fun _ => resetIn_banked) fun _ => .pure _
  configured := eventUsbDeviceConfigurationChanged_banked
  offer _ := Moves.modify fun _ held => held.unrecorded rfl (.same rfl rfl)
  mark _ ok := note_banked (still_of_firmware (.inl ok))
  work f board := Moves.modify fun w held => by
    obtain ⟨_, _, by_, start, trace, eq⟩ := board w
    rw [eq]
    exact held.still rfl (portEvents_still by_ start trace) (.same rfl rfl)
  free := freeOut_banked
  resetIn := resetIn_banked
  clearIn := endpointClearIn_banked
  abort := moment_banked.bind fun _ => onUsb_banked fun u => by
    split
    · exact ⟨List.Sublist.refl _, List.nil_sublist _⟩
    · exact .same rfl rfl
  take := endpointRead8_banked
  give := endpointWrite8_banked

theorem Started.banked {w : World} (started : Started w) : Banked w := by
  obtain ⟨_, _, _, _, _, rfl⟩ := started
  refine ⟨fun since older split => ?_, trivial⟩
  have long : ([] : List Event).length = (since ++ Event.configurationChanged :: older).length :=
    congrArg List.length split
  rw [List.length_append, List.length_cons, List.length_nil] at long
  omega

/-- In every run, finished or cut, what comes out of the banks has gone into them since they
were configured. -/
theorem mainLoop_banked {start : World} (started : Started start) (inputs : List Input) :
    Banked (mainLoop inputs start).state :=
  (banked_firmware.mainLoop inputs).stays_of_carries.exit (fun _ => id) started.banked

end VueCartReader
