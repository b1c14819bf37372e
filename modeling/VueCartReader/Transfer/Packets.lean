import VueCartReader.Safety.Answer
import VueCartReader.Transfer.Latches

/-!
# What is in the OUT bank

The OUT endpoint has one bank, which holds what is unread of one packet. While the firmware
only looks at the endpoint, the bank stays as it is, or an empty one takes a packet in
(`Listens`). A stream that has received all its bytes leaves the bank it took the last one
from (`World.Holding`).

A session is calm as long as no control request is served and the bus is not reset.
-/

set_option autoImplicit false

namespace VueCartReader

open Program

/-! ## Packets in the log -/

/-- What a packet brings. -/
def Event.sent : Event → Option (List Byte)
  | .packet data => some data
  | _ => none

/-- The packets the OUT endpoint has accepted, oldest first. -/
abbrev packetsOf (log : List Event) : List (List Byte) := occurrences Event.sent log

/-- The bytes the host has sent. -/
def sentOf (log : List Event) : List Byte := (packetsOf log).flatten

theorem sentOf_append (newer older : List Event) :
    sentOf (newer ++ older) = sentOf older ++ sentOf newer := by
  rw [sentOf, packetsOf, occurrences_append, List.flatten_append]
  rfl

theorem sentOf_of_none {log : List Event} (none_ : ∀ e ∈ log, e.sent = none) : sentOf log = [] := by
  rw [sentOf, packetsOf, occurrences_eq_nil _ none_]
  rfl

/-- A control request and what it asks for, or a reset of the bus. -/
def Event.disturbs : Event → Bool
  | .request _ _ _ | .resetRequest | .interrupt .endOfReset => true
  | _ => false

/-- No control request is served and the bus is not reset. -/
def Calm (log : List Event) : Prop := ∀ e ∈ log, e.disturbs = false

instance (log : List Event) : Decidable (Calm log) :=
  inferInstanceAs (Decidable (∀ e ∈ log, e.disturbs = false))

theorem Calm.append {newer older : List Event} :
    Calm (newer ++ older) ↔ Calm newer ∧ Calm older := List.forall_mem_append

/-- What a task does to the endpoints is calm, unless the bus is reset. -/
theorem calm_of_usb {log : List Event} (all : ∀ e ∈ log, e.ofUsb = true)
    (none_ : .interrupt .endOfReset ∉ log) : Calm log := by
  intro e member
  have ok := all e member
  cases e with
  | interrupt i =>
      cases i with
      | endOfReset => exact absurd member none_
      | _ => rfl
  | request _ _ _ => exact nomatch ok
  | resetRequest => exact nomatch ok
  | _ => rfl

/-! ## Looking at the endpoint -/

/-- An OUT bank takes a packet in, if it was empty. -/
inductive Filled : Option (List Byte) → List (List Byte) → Option (List Byte) → Prop where
  | same (bank : Option (List Byte)) : Filled bank [] bank
  | packet (data : List Byte) : Filled none [data] (some data)

theorem Filled.trans {a b c : Option (List Byte)} {xs ys : List (List Byte)} (one : Filled a xs b)
    (two : Filled b ys c) : Filled a (xs ++ ys) c := by
  cases one with
  | same => exact two
  | packet data =>
      cases two with
      | same => exact .packet data

/-- A bank that holds a packet takes in no other. -/
theorem Filled.of_some {bank : Option (List Byte)} {xs : List (List Byte)} {data : List Byte}
    (filled : Filled (some data) xs bank) : xs = [] ∧ bank = some data := by
  cases filled
  exact ⟨rfl, rfl⟩

/-- In a calm session the bank stays as it is or takes a packet in; no byte is taken. -/
def Listens (s t : World) : Prop :=
  ∃ new, t.log = new ++ s.log ∧ (Calm new →
    Filled s.usb.outBank (packetsOf new) t.usb.outBank ∧ takesOf new = [] ∧
      t.usb.outStalled = s.usb.outStalled)

namespace Listens

theorem refl (s : World) : Listens s s := ⟨[], rfl, fun _ => ⟨.same _, rfl, rfl⟩⟩

theorem trans {s t u : World} (one : Listens s t) (two : Listens t u) : Listens s u := by
  obtain ⟨first, log, listened⟩ := one
  obtain ⟨second, log', listened'⟩ := two
  refine ⟨second ++ first, by rw [log', log, List.append_assoc], fun calm => ?_⟩
  rw [Calm.append] at calm
  obtain ⟨filled, silent, stalled⟩ := listened calm.2
  obtain ⟨filled', silent', stalled'⟩ := listened' calm.1
  refine ⟨?_, ?_, stalled'.trans stalled⟩
  · rw [packetsOf, occurrences_append]
    exact filled.trans filled'
  · rw [takesOf, occurrences_append, show occurrences _ _ = [] from silent,
      show occurrences _ _ = [] from silent']
    rfl

instance : IsPreorder World Listens where
  refl := refl
  trans _ _ _ := trans

/-- The bank is left alone, and what is recorded is no packet and no byte. -/
theorem of_log {s t : World} (new : List Event) (log : t.log = new ++ s.log)
    (silent : ∀ e ∈ new, e.sent = none ∧ e.taken = none)
    (bank : t.usb.outBank = s.usb.outBank) (stalled : t.usb.outStalled = s.usb.outStalled) :
    Listens s t := by
  refine ⟨new, log, fun _ =>
    ⟨?_, occurrences_eq_nil _ fun e member => (silent e member).2, stalled⟩⟩
  rw [packetsOf, occurrences_eq_nil _ fun e member => (silent e member).1, bank]
  exact .same _

theorem of_none {s t : World} (log : t.log = s.log) (bank : t.usb.outBank = s.usb.outBank)
    (stalled : t.usb.outStalled = s.usb.outStalled) : Listens s t :=
  .of_log [] log (List.forall_mem_nil _) bank stalled

theorem of_one {s t : World} {e : Event} (log : t.log = e :: s.log)
    (silent : e.sent = none ∧ e.taken = none) (bank : t.usb.outBank = s.usb.outBank)
    (stalled : t.usb.outStalled = s.usb.outStalled) : Listens s t :=
  .of_log [e] log (fun _ member => by rwa [List.mem_singleton.mp member]) bank stalled

end Listens

theorem act_listens (w : World) (a : HostAct) : Listens w (w.act a) := by
  cases a with
  | sendOut packet =>
      rw [World.act]
      split
      · rename_i open_
        simp only [Bool.and_eq_true, Option.isNone_iff_eq_none] at open_
        refine ⟨[_], rfl, fun _ => ⟨?_, rfl, rfl⟩⟩
        rw [open_.1.2]
        exact .packet _
      · exact .refl w
  | collectIn =>
      rw [World.act]
      split
      · exact .of_one rfl ⟨rfl, rfl⟩ rfl rfl
      · exact .refl w
  | interrupt i =>
      cases i with
      | endOfReset =>
          refine ⟨[_], rfl, fun calm => ?_⟩
          cases calm _ (List.mem_singleton_self _)
      | _ => exact .of_one rfl ⟨rfl, rfl⟩ rfl rfl

theorem moment_listens : Moves Listens moment :=
  moment_moves (fun _ _ => .of_none rfl rfl rfl) act_listens

theorem note_listens {e : Event} (silent : e.sent = none ∧ e.taken = none) :
    Moves Listens (note e) := Moves.modify fun _ => .of_one rfl silent rfl rfl

theorem endpointSelectEndpoint_listens (address : Nat) :
    Moves Listens (endpointSelectEndpoint address) :=
  Moves.modify fun _ => .of_none rfl rfl rfl

theorem endpointIsOutReceived_listens : Moves Listens endpointIsOutReceived :=
  moment_listens.bind fun _ => .bind .state fun _ => .pure _

theorem endpointIsInReady_listens : Moves Listens endpointIsInReady :=
  moment_listens.bind fun _ => .bind .state fun _ => .pure _

theorem endpointIsReadWriteAllowed_listens : Moves Listens endpointIsReadWriteAllowed :=
  moment_listens.bind fun _ => .ite (fun _ => (note_listens ⟨rfl, rfl⟩).bind fun _ => .pure _)
    fun _ => .bind .state fun _ => .pure _

theorem endpointWaitUntilReady_listens : Moves Listens endpointWaitUntilReady :=
  moment_listens.bind fun _ => .bind .state fun _ => .ite (fun _ => .pure _) fun _ =>
    moment_listens.bind fun _ => .bind .state fun _ => .pure _

theorem endpointClearIn_listens : Moves Listens endpointClearIn :=
  moment_listens.bind fun _ => Moves.modify fun w => by
    split
    · exact .of_one rfl ⟨rfl, rfl⟩ rfl rfl
    · exact .refl w

/-- A session in which something has been recorded that disturbs it. -/
def Disturbed (s t : World) : Prop := ∃ new, t.log = new ++ s.log ∧ ¬ Calm new

theorem Disturbed.framed {s t u : World} (held : Disturbed s t) (framed : Framed OfUsb t u) :
    Disturbed s u := by
  obtain ⟨new, log, disturbed⟩ := held
  obtain ⟨more, log', -⟩ := framed.log
  exact ⟨more ++ new, by rw [log', log, List.append_assoc], fun calm =>
    disturbed (Calm.append.mp calm).2⟩

/-- A request that is served is in the log. -/
theorem serveSetup_disturbed (transfer : ControlTransfer) (s : World) :
    wp (serveSetup (some transfer)) (fun _ t => Disturbed s t) (Disturbed s) s := by
  have handled {t : World} (served : Served (s.asked transfer) t) : Disturbed s t := by
    obtain ⟨new, log, -⟩ := served.log
    refine ⟨new ++ [.request transfer.header s.vars.curVueState s.vars.bulkAddress], ?_, fun calm =>
      nomatch calm _ (List.mem_append_right _ (List.mem_singleton_self _))⟩
    rw [log, List.append_assoc]
    rfl
  exact serveSetup_of_handler (P := Disturbed s) (fun _ _ framed held => held.framed framed)
    ((eventUsbDeviceControlRequest_served (s.asked transfer)).mono (fun _ _ => handled)
      fun _ => handled)

theorem Disturbed.listens {s t : World} (held : Disturbed s t) : Listens s t := by
  obtain ⟨new, log, disturbed⟩ := held
  exact ⟨new, log, fun calm => absurd calm disturbed⟩

theorem nextSetup_listens : Moves Listens nextSetup :=
  nextSetup_moves fun _ _ => .of_none rfl rfl rfl

theorem usbUsbTask_listens : Moves Listens usbUsbTask := by
  refine moment_listens.bind fun _ => .bind .state fun w => .ite (fun _ => .pure _) fun _ =>
    (endpointSelectEndpoint_listens _).bind fun _ => nextSetup_listens.bind fun setup =>
      .bind ?_ fun _ => endpointSelectEndpoint_listens _
  cases setup with
  | none => exact .pure _
  | some transfer =>
      exact fun s => (serveSetup_disturbed transfer s).mono (fun _ _ => Disturbed.listens)
        fun _ => Disturbed.listens

/-! ## The selected endpoint -/

/-- Unless the bus is reset, the same endpoint is selected. -/
def SameSelected (s t : World) : Prop :=
  ∃ new, t.log = new ++ s.log ∧
    (.interrupt .endOfReset ∉ new → t.usb.selected = s.usb.selected)

namespace SameSelected

theorem refl (s : World) : SameSelected s s := ⟨[], rfl, fun _ => rfl⟩

theorem trans {s t u : World} (one : SameSelected s t) (two : SameSelected t u) :
    SameSelected s u := by
  obtain ⟨first, log, same⟩ := one
  obtain ⟨second, log', same'⟩ := two
  refine ⟨second ++ first, by rw [log', log, List.append_assoc], fun none_ => ?_⟩
  rw [List.mem_append, not_or] at none_
  exact (same' none_.1).trans (same none_.2)

instance : IsPreorder World SameSelected where
  refl := refl
  trans _ _ _ := trans

/-- Something is recorded, and the selection left alone. -/
theorem of_log {s t : World} (new : List Event) (log : t.log = new ++ s.log)
    (same : t.usb.selected = s.usb.selected) : SameSelected s t := ⟨new, log, fun _ => same⟩

end SameSelected

section Selection

theorem act_sameSelected (w : World) (a : HostAct) : SameSelected w (w.act a) := by
  cases a with
  | sendOut packet =>
      rw [World.act]
      split
      · exact .of_log [_] rfl rfl
      · exact .refl w
  | collectIn =>
      rw [World.act]
      split
      · exact .of_log [_] rfl rfl
      · exact .refl w
  | interrupt i =>
      cases i with
      | endOfReset => exact ⟨[_], rfl, fun none_ => absurd (List.mem_singleton_self _) none_⟩
      | _ => exact .of_log [_] rfl rfl

theorem moment_sameSelected : Moves SameSelected moment :=
  moment_moves (fun _ _ => .of_log [] rfl rfl) act_sameSelected

theorem note_sameSelected (e : Event) : Moves SameSelected (note e) :=
  Moves.modify fun _ => .of_log [e] rfl rfl

theorem endpointIsReadWriteAllowed_sameSelected :
    Moves SameSelected endpointIsReadWriteAllowed :=
  moment_sameSelected.bind fun _ => .ite (fun _ => (note_sameSelected _).bind fun _ => .pure _)
    fun _ => .bind .state fun _ => .pure _

theorem endpointWaitUntilReady_sameSelected : Moves SameSelected endpointWaitUntilReady :=
  moment_sameSelected.bind fun _ => .bind .state fun _ => .ite (fun _ => .pure _) fun _ =>
    moment_sameSelected.bind fun _ => .bind .state fun _ => .pure _

/-- The library selects again what was selected when it looked for a SETUP packet. -/
theorem usbUsbTask_sameSelected (s : World) :
    wp usbUsbTask (fun _ t => SameSelected s t) Anywhere s := by
  refine wp.bind ((moment_sameSelected s).mono (fun _ _ moved => moved) fun _ _ => trivial)
    fun _ u held => ?_
  rw [wp_bind, wp_state, wp_ite]
  refine ⟨fun _ => held, fun _ => ?_⟩
  have select : Moves Served (endpointSelectEndpoint endpointControlEp) :=
    served_of_framed (endpointSelectEndpoint_framed _)
  have served : Moves Served (do
      endpointSelectEndpoint endpointControlEp
      serveSetup (← nextSetup)) :=
    select.bind fun _ => (nextSetup_moves setups_served).bind serveSetup_served
  have ends := served u
  rw [wp_bind] at ends ⊢
  refine ends.mono (fun _ v ends => ?_) fun _ _ => trivial
  rw [wp_bind] at ends ⊢
  refine ends.mono (fun setup x ends => ?_) fun _ _ => trivial
  refine wp.bind (ends.mono (fun _ _ moved => moved) fun _ _ => trivial) fun _ y moved => ?_
  obtain ⟨new, log, -⟩ := moved.log
  exact held.trans (.of_log new log rfl)

end Selection

/-! ## The end of a stream -/

/-- A packet is in the bank, and can be read. -/
structure World.Holding (w : World) : Prop where
  selected : w.usb.selected = vueCartReaderOutEpAddr
  unstalled : w.usb.outStalled = false
  bank : w.usb.outBank.isSome = true

theorem World.Holding.of_usb {s t : World} (held : s.Holding) (usb : t.usb = s.usb) : t.Holding :=
  ⟨usb ▸ held.selected, usb ▸ held.unstalled, usb ▸ held.bank⟩

/-- Two statements that a stream keeps. -/
theorem StreamKeeps.and {d : Direction} {n : Nat} {J J' : Nat → World → Prop}
    {C C' : World → Prop} (one : StreamKeeps d n J C) (two : StreamKeeps d n J' C') :
    StreamKeeps d n (fun p t => J p t ∧ J' p t) (fun t => C t ∧ C' t) where
  weaker p t less held := ⟨one.weaker p t less held.1, two.weaker p t less held.2⟩
  noted p t e held ok := ⟨one.noted p t e held.1 ok, two.noted p t e held.2 ok⟩
  ready p less := (one.ready p less).and (two.ready p less)
  allowed p less := (one.allowed p less).and (two.allowed p less)
  transfer p less t held open_ :=
    (one.transfer p less t held.1 open_).and (two.transfer p less t held.2 open_)
  clear p less t held shut := (one.clear p less t held.1 shut).and (two.clear p less t held.2 shut)
  task p less := (one.task p less).and (two.task p less)

/-- With the last byte of a stream the bank it came from is still there. -/
theorem lastByte_keeps (store : Nat → Byte → Vars → Vars) (n : Nat) :
    StreamKeeps (readStream store) n
      (fun p t => t.At vueCartReaderOutEpAddr ∧ (p = n → t.Holding)) Anywhere := by
  have before {α : Type} {m : Fw α} (at_ : Stays (World.At vueCartReaderOutEpAddr) Anywhere m)
      {p : Nat} (less : p < n) :
      Stays (fun t => t.At vueCartReaderOutEpAddr ∧ (p = n → t.Holding)) Anywhere m :=
    fun t held => (at_ t held.1).mono (fun _ _ at_ => ⟨at_, fun all => absurd all less.ne⟩)
      fun _ _ => trivial
  refine
    { weaker := fun _ _ _ _ => trivial
      noted := fun p t e held _ => ⟨held.1, fun all =>
        ⟨(held.2 all).selected, (held.2 all).unstalled, (held.2 all).bank⟩⟩
      ready := fun p less => before endpointWaitUntilReady_at less
      allowed := fun p less => before endpointIsReadWriteAllowed_at less
      transfer := fun p less t held open_ => ?_
      clear := fun p less t held _ => before (endpointClearOut_at .task) less t held
      task := fun p less => before usbUsbTask_at less }
  have selected : t.usb.selected = vueCartReaderOutEpAddr := by
    rcases held.1 with out | control
    · exact out
    · simp [Usb.readWriteAllowed, control] at open_
  simp only [Usb.readWriteAllowed, selected, if_true, Bool.and_eq_true, Bool.not_eq_true',
    bne_iff_ne, ne_eq] at open_
  obtain ⟨x, rest, bank⟩ : ∃ x rest, t.usb.outBank = some (x :: rest) := by
    cases bank : t.usb.outBank with
    | none => simp [bank] at open_
    | some data =>
        cases data with
        | nil => simp [bank] at open_
        | cons x rest => exact ⟨x, rest, rfl⟩
  show wp (endpointRead8 >>= fun x => onVars (store p x)) _ _ t
  rw [endpointRead8, wp_bind, wp_bind, wp_state, bank]
  simp only [onUsb, note, onVars, wp_bind, wp_modify, wp_pure]
  exact ⟨.inl selected, fun _ => ⟨selected, open_.1, rfl⟩⟩

/-- **A stream that has received all its bytes** has ended well, with the bank it took the
last one from still there. -/
theorem readStream_whole {store : Nat → Byte → Vars → Vars} {bytes : Vars → List Byte}
    (memory : Memory store bytes) {n : Nat} (some_ : 0 < n) {s : World}
    (at_ : s.At vueCartReaderOutEpAddr) (fits : n ≤ (bytes s.vars).length) :
    wp (stream (readStream store) n)
      (fun ok t => ∃ new, t.log = new ++ s.log ∧
        ((takesOf new).length = n → ok = true ∧ t.Holding)) Anywhere s := by
  have start : Taken bytes s 0 s := ⟨[], ⟨rfl, by simp⟩, rfl, List.forall_mem_nil _⟩
  have none_ : 0 = n → s.Holding := fun all => absurd all.symm some_.ne'
  have ends := stream_rule ((receiving_keeps memory s fits).and (lastByte_keeps store n)) some_ s
    ⟨⟨start, at_⟩, at_, none_⟩
  refine ends.mono (fun ok t ⟨done, abandoned⟩ => ?_) fun _ _ => trivial
  cases ok with
  | false =>
      obtain ⟨p, less, ⟨⟨new, received, count, -⟩, -⟩, -⟩ := abandoned rfl
      exact ⟨new, received.log, fun all => absurd (count.symm.trans all) less.ne⟩
  | true =>
      rcases done rfl with ⟨⟨⟨new, received, -⟩, -⟩, -, last⟩ |
        ⟨p, less, r, u, -, ⟨⟨held, -⟩, -⟩, rfl⟩
      · exact ⟨new, received.log, fun _ => ⟨rfl, last rfl⟩⟩
      · obtain ⟨new, received, count, -⟩ := held
        refine ⟨.stream r :: new, by rw [received.log]; rfl, fun all => ?_⟩
        rw [takesOf, occurrences_cons, show Event.taken (.stream r) = none from rfl] at all
        simp only [Option.toList_none, List.append_nil] at all
        exact absurd (count.symm.trans all) less.ne

end VueCartReader
