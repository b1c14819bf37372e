import VueCartReader.Device.Requests
import VueCartReader.Transfer.Packets

/-!
# What is taken of what was sent

A stream takes the bytes of the host in the order in which they were sent, whatever packets they
come in and whatever is asked for meanwhile: what was unread in the OUT bank, and what came in, is
what was taken, followed by what is unread (`readStream_conveys`). This needs that the endpoint
loses nothing. It does when it is reset or halted for a request, when it is configured anew, and
when the bank refuses access, for then the stream frees it with what is unread.
-/

set_option autoImplicit false

namespace VueCartReader

open Program

/-! ## Losing bytes -/

/-- The OUT endpoint may lose bytes. -/
def Event.loses : Event → Bool
  | .refuse | .interrupt .endOfReset | .configurationChanged | .free .control _ => true
  | .stall endpoint => endpoint == vueCartReaderOutEpAddr
  | _ => false

/-- Nothing is recorded by which bytes may be lost. -/
def Lossless (log : List Event) : Prop := ∀ e ∈ log, e.loses = false

theorem Lossless.append {newer older : List Event} :
    Lossless (newer ++ older) ↔ Lossless newer ∧ Lossless older := List.forall_mem_append

theorem Lossless.awake {log : List Event} (lossless : Lossless log) :
    .interrupt .endOfReset ∉ log := fun member => by cases lossless _ member

/-- What is unread in the OUT bank. -/
def Usb.unread (u : Usb) : List Byte := u.outBank.getD []

/-- The endpoint is not halted; and what was held, and what came in, is what was taken and what is
unread. -/
structure Conveyed (held : List Byte) (new : List Event) (u : Usb) : Prop where
  unstalled : u.outStalled = false
  bytes : held ++ sentOf new = takesOf new ++ u.unread

theorem Conveyed.trans {held : List Byte} {u v : Usb} {first second : List Event}
    (one : Conveyed held first u) (two : Conveyed u.unread second v) :
    Conveyed held (second ++ first) v := by
  refine ⟨two.unstalled, ?_⟩
  rw [sentOf_append, takesOf, occurrences_append, ← List.append_assoc, one.bytes, List.append_assoc,
    two.bytes, List.append_assoc]

theorem Conveyed.cons {held : List Byte} {u v : Usb} {e : Event} {new : List Event}
    (one : Conveyed held new u) (two : Conveyed u.unread [e] v) : Conveyed held (e :: new) v :=
  one.trans two

/-- What is taken comes first. -/
theorem Conveyed.taken {held : List Byte} {u : Usb} {new : List Event}
    (conveyed : Conveyed held new u) :
    takesOf new = (held ++ sentOf new).take (takesOf new).length := by
  rw [conveyed.bytes, List.take_left]

/-- Bytes pass through the OUT endpoint while it loses none. -/
def Conveys (s t : World) : Prop :=
  ∃ new, t.log = new ++ s.log ∧
    (Lossless new → s.usb.outStalled = false → Conveyed s.usb.unread new t.usb)

namespace Conveys

theorem refl (s : World) : Conveys s s :=
  ⟨[], rfl, fun _ unstalled => ⟨unstalled, List.append_nil _⟩⟩

theorem trans {s t u : World} (one : Conveys s t) (two : Conveys t u) : Conveys s u := by
  obtain ⟨first, log, conveyed⟩ := one
  obtain ⟨second, log', conveyed'⟩ := two
  refine ⟨second ++ first, by rw [log', log, List.append_assoc], fun lossless unstalled => ?_⟩
  obtain ⟨late, early⟩ := Lossless.append.mp lossless
  have conveyed := conveyed early unstalled
  exact conveyed.trans (conveyed' late conveyed.unstalled)

instance : IsPreorder World Conveys where
  refl := refl
  trans _ _ _ := trans

/-- What is recorded is no packet and no byte. -/
theorem of_log {s t : World} (new : List Event) (log : t.log = new ++ s.log)
    (silent : ∀ e ∈ new, e.sent = none ∧ e.taken = none)
    (bank : t.usb.outBank = s.usb.outBank)
    (stalled : s.usb.outStalled = false → t.usb.outStalled = false) : Conveys s t := by
  refine ⟨new, log, fun _ unstalled => ⟨stalled unstalled, ?_⟩⟩
  rw [sentOf_of_none fun e member => (silent e member).1, takesOf,
    occurrences_eq_nil _ fun e member => (silent e member).2, Usb.unread, Usb.unread, bank]
  exact List.append_nil _

theorem of_none {s t : World} (log : t.log = s.log) (bank : t.usb.outBank = s.usb.outBank)
    (stalled : s.usb.outStalled = false → t.usb.outStalled = false) : Conveys s t :=
  .of_log [] log (List.forall_mem_nil _) bank stalled

theorem of_one {s t : World} {e : Event} (log : t.log = e :: s.log)
    (silent : e.sent = none ∧ e.taken = none) (bank : t.usb.outBank = s.usb.outBank)
    (stalled : s.usb.outStalled = false → t.usb.outStalled = false) : Conveys s t :=
  .of_log [e] log (fun _ member => by rwa [List.mem_singleton.mp member]) bank stalled

/-- By such an event bytes may be lost. -/
theorem lost {s t : World} {e : Event} (log : t.log = e :: s.log) (loses : e.loses = true) :
    Conveys s t := by
  refine ⟨[e], log, fun lossless => ?_⟩
  have kept := lossless e (List.mem_singleton_self e)
  rw [loses] at kept
  cases kept

end Conveys

/-! ## What the host does -/

theorem act_conveys (w : World) (a : HostAct) : Conveys w (w.act a) := by
  cases a with
  | sendOut packet =>
      rw [World.act]
      split
      · rename_i open_
        simp only [Bool.and_eq_true, Option.isNone_iff_eq_none] at open_
        refine ⟨[_], rfl, fun _ unstalled => ⟨unstalled, ?_⟩⟩
        rw [Usb.unread, open_.1.2]
        exact List.append_nil _
      · exact .refl w
  | collectIn =>
      rw [World.act]
      split
      · exact .of_one rfl ⟨rfl, rfl⟩ rfl id
      · exact .refl w
  | interrupt i =>
      cases i with
      | endOfReset => exact .lost rfl rfl
      | _ => exact .of_one rfl ⟨rfl, rfl⟩ rfl id

theorem moment_conveys : Moves Conveys moment :=
  moment_moves (fun _ _ => .of_none rfl rfl id) act_conveys

/-! ## What a request does -/

theorem onUsb_conveys {f : Usb → Usb} (bank : ∀ u : Usb, (f u).outBank = u.outBank)
    (stalled : ∀ u : Usb, u.outStalled = false → (f u).outStalled = false) :
    Moves Conveys (onUsb f) := Moves.modify fun w => .of_none rfl (bank w.usb) (stalled w.usb)

theorem note_conveys {e : Event} (silent : e.sent = none ∧ e.taken = none) :
    Moves Conveys (note e) := Moves.modify fun _ => .of_one rfl silent rfl id

theorem setStalled_outBank (x : Bool) (u : Usb) : (u.setStalled x).outBank = u.outBank := by
  unfold Usb.setStalled
  split_ifs <;> rfl

/-- Halting the OUT endpoint is recorded; no other endpoint matters. -/
theorem endpointStallTransaction_conveys : Moves Conveys endpointStallTransaction := by
  refine moment_conveys.bind fun _ => ?_
  intro w
  rw [wp_bind, wp_state, wp_bind, note, wp_modify, onUsb, wp_modify]
  by_cases selected : w.usb.selected = vueCartReaderOutEpAddr
  · refine .lost rfl ?_
    rw [selected]
    rfl
  · refine .of_one rfl ⟨rfl, rfl⟩ (setStalled_outBank true w.usb) fun unstalled => ?_
    show (w.usb.setStalled true).outStalled = false
    rw [Usb.setStalled, if_neg selected]
    split_ifs <;> exact unstalled

theorem endpointClearStall_conveys : Moves Conveys endpointClearStall := by
  refine moment_conveys.bind fun _ => onUsb_conveys (setStalled_outBank false) fun u unstalled => ?_
  unfold Usb.setStalled
  split_ifs
  · rfl
  · exact unstalled
  · exact unstalled

theorem endpointResetEndpoint_conveys (address : Nat) :
    Moves Conveys (endpointResetEndpoint .control address) := by
  have freed : Moves Conveys (freeOut .control) := by
    refine Moves.modify fun w => ?_
    cases w.usb.outBank with
    | none => exact .refl w
    | some unread => exact .lost rfl rfl
  have inn : Moves Conveys (onUsb fun u => { u with inBank := [], inBusy := false }) := by
    refine onUsb_conveys (fun u => rfl) fun u unstalled => ?_
    exact unstalled
  exact moment_conveys.bind fun _ => .ite (fun _ => freed) fun _ =>
    .ite (fun _ => inn) fun _ => .pure _

theorem eventUsbDeviceConfigurationChanged_conveys :
    Moves Conveys eventUsbDeviceConfigurationChanged := by
  intro s
  rw [eventUsbDeviceConfigurationChanged, configureBulkEndpoints, wp_bind, wp_bind]
  refine (moment_conveys s).mono (fun _ t held => ?_) fun _ held => held
  exact held.trans (.lost rfl rfl)

theorem requests_convey : RequestPartsKeep Conveys where
  moment := moment_conveys
  setup := nextSetup_moves fun _ _ => .of_none rfl rfl id
  select _ := onUsb_conveys (fun _ => rfl) fun _ unstalled => unstalled
  poll := controlPoll_moves (fun _ _ => .of_none rfl rfl id) act_conveys
  apart f same := onUsb_conveys (fun u => (same u).outBank) fun u unstalled =>
    (same u).outStalled.trans unstalled
  note e ok := note_conveys (by cases e <;> first | exact ⟨rfl, rfl⟩ | cases ok)
  header := Moves.modify fun w => .of_log _ rfl (fun e member => by
    obtain ⟨before, after, rfl⟩ := portEvents_kind .control _ _ e member
    exact ⟨rfl, rfl⟩) rfl id
  reset := Moves.modify fun _ => .of_one rfl ⟨rfl, rfl⟩ rfl id
  stall := endpointStallTransaction_conveys
  clearStall := endpointClearStall_conveys
  resetEndpoint := endpointResetEndpoint_conveys
  configured := eventUsbDeviceConfigurationChanged_conveys

/-! ## What a stream does -/

/-- Since a world the OUT endpoint has conveyed its bytes, and is still selected. -/
def Intake (s : World) (new : List Event) (t : World) : Prop :=
  t.log = new ++ s.log ∧ (Lossless new →
    t.usb.selected = vueCartReaderOutEpAddr ∧ Conveyed s.usb.unread new t.usb)

/-- While the bank is open, a packet is in it. -/
def OpenIntake (s : World) (new : List Event) (t : World) : Prop :=
  Intake s new t ∧ (Lossless new → t.usb.outBank.isSome = true)

/-- To look at the endpoint loses nothing, and a packet stays where it is. -/
theorem Intake.looked {s t u : World} {new : List Event} (held : Intake s new t)
    (listens : Listens t u) (selected : SameSelected t u) (framed : Framed OfUsb t u) :
    ∃ more, Intake s (more ++ new) u ∧ (Lossless (more ++ new) →
      ∀ data, t.usb.outBank = some data → u.usb.outBank = some data) := by
  obtain ⟨more, log, listened⟩ := listens
  obtain ⟨same, log', kept⟩ := selected
  obtain rfl := List.append_cancel_right (log'.symm.trans log)
  obtain ⟨also, log'', usb⟩ := framed.log
  obtain rfl := List.append_cancel_right (log''.symm.trans log)
  have calmly (lossless : Lossless (also ++ new)) :=
    listened (calm_of_usb usb (Lossless.append.mp lossless).1.awake)
  refine ⟨also, ⟨by rw [log, held.1, List.append_assoc], fun lossless => ?_⟩,
    fun lossless data bank => ?_⟩
  · obtain ⟨late, early⟩ := Lossless.append.mp lossless
    obtain ⟨filled, silent, stalled⟩ := calmly lossless
    obtain ⟨here, conveyed⟩ := held.2 early
    refine ⟨(kept late.awake).trans here,
      conveyed.trans ⟨stalled.trans conveyed.unstalled, ?_⟩⟩
    rw [silent, sentOf, Usb.unread, Usb.unread]
    generalize packetsOf also = packets at filled ⊢
    generalize t.usb.outBank = before at filled ⊢
    generalize u.usb.outBank = after at filled ⊢
    cases filled with
    | same => exact List.append_nil _
    | packet data => exact List.append_nil _
  · have filled := (calmly lossless).1
    rw [bank] at filled
    exact filled.of_some.2

theorem endpointWaitUntilReady_found (s : World) :
    wp endpointWaitUntilReady (fun r t => r = .noError →
      t.usb.selected = vueCartReaderOutEpAddr → t.usb.outBank.isSome = true) Anywhere s := by
  rw [endpointWaitUntilReady]
  refine wp.bind (wp_trivial _) fun _ t _ => ?_
  rw [wp_bind, wp_state, wp_ite]
  refine ⟨fun ready _ selected => ?_, fun _ => ?_⟩
  · simp only [Usb.outReceived, Usb.inReady, selected, beq_self_eq_true, Bool.true_and,
      Bool.or_eq_true, Bool.and_eq_true, Bool.not_eq_true'] at ready
    rcases ready with there | ⟨other, -⟩
    · exact there
    · exact absurd other (by decide)
  · refine wp.bind (wp_trivial _) fun _ u _ => ?_
    rw [wp_bind, wp_state]
    intro error
    exfalso
    revert error
    show u.usb.waitError ≠ .noError
    unfold Usb.waitError
    split_ifs <;> decide

section Stream

variable {s : World} {new : List Event}

/-- What is recorded is no packet and no byte. -/
theorem Intake.noted {t : World} (held : Intake s new t) {e : Event}
    (silent : e.sent = none ∧ e.taken = none) :
    Intake s (e :: new) { t with log := e :: t.log } := by
  refine ⟨congrArg (e :: ·) held.1, fun lossless => ?_⟩
  obtain ⟨here, conveyed⟩ := held.2 fun f member => lossless f (List.mem_cons_of_mem e member)
  refine ⟨here, conveyed.cons ⟨conveyed.unstalled, ?_⟩⟩
  rw [sentOf_of_none fun f member => by rw [List.mem_singleton.mp member]; exact silent.1, takesOf,
    occurrences_eq_nil _ fun f member => by rw [List.mem_singleton.mp member]; exact silent.2]
  exact List.append_nil _

/-- A byte is taken from the bank. -/
theorem transferByte_intake (store : Nat → Byte → Vars → Vars) (p : Nat) {t : World}
    (held : OpenIntake s new t) (open_ : t.usb.readWriteAllowed = true) :
    wp ((readStream store).transferByte p) (fun _ u => ∃ more, OpenIntake s more u) Anywhere t := by
  show wp (endpointRead8 >>= fun x => onVars (store p x)) _ _ t
  rw [endpointRead8, wp_bind, wp_bind, wp_state]
  obtain ⟨⟨log, intake⟩, there⟩ := held
  split
  · rename_i x rest bank
    simp only [onUsb, note, onVars, wp_bind, wp_modify, wp_pure]
    refine ⟨.take x :: new, ⟨congrArg (Event.take x :: ·) log, fun lossless => ?_⟩, fun _ => rfl⟩
    obtain ⟨here, conveyed⟩ := intake fun e member => lossless e (List.mem_cons_of_mem _ member)
    refine ⟨here, conveyed.cons ⟨conveyed.unstalled, ?_⟩⟩
    show t.usb.unread ++ [] = [x] ++ rest
    rw [Usb.unread, bank]
    exact List.append_nil _
  · -- a bank that allows access holds a byte
    rename_i none_
    rw [wp_pure, onVars, wp_modify]
    refine ⟨new, ⟨log, fun lossless => ?_⟩, there⟩
    exfalso
    rw [Usb.readWriteAllowed, if_pos (intake lossless).1] at open_
    cases bank : t.usb.outBank with
    | none => simp [bank] at open_
    | some data =>
        cases data with
        | nil => simp [bank] at open_
        | cons x rest => exact none_ x rest bank

/-- A bank that allows no access any more is empty, and is freed. -/
theorem endpointClearOut_intake (fresh : ∀ past, s.log ≠ .refuse :: past) {t : World}
    (held : OpenIntake s new t)
    (shut : t.usb.readWriteAllowed = false ∨ ∃ past, t.log = .refuse :: past) :
    wp (endpointClearOut .task) (fun _ u => ∃ more, Intake s more u) Anywhere t := by
  obtain ⟨intake, there⟩ := held
  have empty (lossless : Lossless new) : t.usb.outBank = some [] := by
    obtain ⟨here, conveyed⟩ := intake.2 lossless
    obtain ⟨data, bank⟩ := Option.isSome_iff_exists.mp (there lossless)
    rcases shut with shut | ⟨past, refused⟩
    · simp only [Usb.readWriteAllowed, here, conveyed.unstalled, bank, if_true, Bool.not_false,
        Bool.true_and, bne_eq_false_iff_eq, Option.getD_some, List.length_eq_zero_iff] at shut
      rw [bank, shut]
    · cases new with
      | nil => exact absurd (intake.1.symm.trans refused) (fresh past)
      | cons e new =>
          obtain rfl : e = .refuse := (List.cons.inj (intake.1.symm.trans refused)).1
          cases lossless _ (List.mem_cons_self ..)
  rw [endpointClearOut]
  refine wp.bind (((moment_listens t).and (moment_sameSelected t)).and (moment_framed t) |>.mono
    (fun _ _ ends => ends) fun _ _ => trivial) fun _ u ends => ?_
  obtain ⟨⟨listens, selected⟩, framed⟩ := ends
  obtain ⟨more, ⟨log, later⟩, stays⟩ := intake.looked listens selected framed
  have still (lossless : Lossless (more ++ new)) : u.usb.outBank = some [] :=
    stays lossless [] (empty (Lossless.append.mp lossless).2)
  rw [wp_bind, wp_state, wp_whenever]
  refine ⟨fun _ => ?_, fun _ => ⟨more ++ new, log, later⟩⟩
  rw [freeOut, wp_modify]
  cases bank : u.usb.outBank with
  | none => exact ⟨more ++ new, log, later⟩
  | some unread =>
      refine ⟨.free .task unread :: (more ++ new), congrArg (Event.free .task unread :: ·) log,
        fun lossless => ?_⟩
      have lossless : Lossless (more ++ new) := fun e member =>
        lossless e (List.mem_cons_of_mem _ member)
      obtain ⟨here, conveyed⟩ := later lossless
      refine ⟨here, conveyed.cons ⟨conveyed.unstalled, ?_⟩⟩
      rw [Usb.unread, still lossless]
      rfl

/-- What each part of a stream does to the bytes that pass through the endpoint. -/
theorem intake_phases (store : Nat → Byte → Vars → Vars) (n : Nat)
    (fresh : ∀ past, s.log ≠ .refuse :: past) :
    StreamPhases (readStream store) n (fun _ t => ∃ new, Intake s new t)
      (fun _ t => ∃ new, OpenIntake s new t) Anywhere where
  weaker _ _ _ _ := trivial
  noted _ t e held ok := by
    obtain ⟨new, intake⟩ := held
    refine ⟨e :: new, intake.noted ?_⟩
    cases e <;> first | exact ⟨rfl, rfl⟩ | cases ok
  ended t held := by
    obtain ⟨new, intake, there⟩ := held
    exact ⟨_, intake.noted ⟨rfl, rfl⟩, fun lossless =>
      there fun e member => lossless e (List.mem_cons_of_mem _ member)⟩
  ready p _ t held := by
    obtain ⟨new, intake⟩ := held
    refine ((((endpointWaitUntilReady_listens t).and (endpointWaitUntilReady_sameSelected t)).and
      (endpointWaitUntilReady_framed t)).and (endpointWaitUntilReady_found t)).mono
        (fun result u ends => ?_) fun _ _ => trivial
    obtain ⟨⟨⟨listens, selected⟩, framed⟩, found⟩ := ends
    obtain ⟨more, later, -⟩ := intake.looked listens selected framed
    exact ⟨fun ready => ⟨_, later, fun lossless => found ready (later.2 lossless).1⟩,
      fun _ => ⟨_, later⟩⟩
  allowed p _ t held := by
    obtain ⟨new, intake, there⟩ := held
    refine (((endpointIsReadWriteAllowed_listens t).and
      (endpointIsReadWriteAllowed_sameSelected t)).and
        (endpointIsReadWriteAllowed_framed t)).mono (fun _ u ends => ?_) fun _ _ => trivial
    obtain ⟨more, later, stays⟩ := intake.looked ends.1.1 ends.1.2 ends.2
    refine ⟨more ++ new, later, fun lossless => ?_⟩
    obtain ⟨data, bank⟩ := Option.isSome_iff_exists.mp (there (Lossless.append.mp lossless).2)
    rw [stays lossless data bank]
    rfl
  transfer p _ t held open_ := by
    obtain ⟨new, held⟩ := held
    exact transferByte_intake store p held open_
  clear p _ t held shut := by
    obtain ⟨new, held⟩ := held
    exact endpointClearOut_intake fresh held shut
  task p _ t held := by
    obtain ⟨new, log, intake⟩ := held
    refine ((requests_convey.usbUsbTask t).and (usbUsbTask_sameSelected t)).mono
      (fun _ u ends => ?_) fun _ _ => trivial
    obtain ⟨⟨more, log', conveyed⟩, same, log'', selected⟩ := ends
    obtain rfl := List.append_cancel_right (log''.symm.trans log')
    refine ⟨same ++ new, by rw [log', log, List.append_assoc], fun lossless => ?_⟩
    obtain ⟨late, early⟩ := Lossless.append.mp lossless
    obtain ⟨here, before⟩ := intake early
    exact ⟨(selected late.awake).trans here, before.trans (conveyed late before.unstalled)⟩

/-- **What a stream takes.** It takes the bytes that were unread and those that come in, in this
order, while the endpoint loses none. -/
theorem readStream_conveys (store : Nat → Byte → Vars → Vars) {n : Nat} (some_ : 0 < n)
    (fresh : ∀ past, s.log ≠ .refuse :: past) (selected : s.usb.selected = vueCartReaderOutEpAddr)
    (unstalled : s.usb.outStalled = false) :
    wp (stream (readStream store) n) (fun _ t => ∃ new, t.log = new ++ s.log ∧
      (Lossless new → Conveyed s.usb.unread new t.usb)) Anywhere s := by
  have start : Intake s [] s := ⟨rfl, fun _ => ⟨selected, unstalled, List.append_nil _⟩⟩
  refine (stream_phases (intake_phases store n fresh) some_ s ⟨[], start⟩).mono
    (fun ok t ends => ?_) fun _ _ => trivial
  have conveyed {new : List Event} {u : World} (intake : Intake s new u) :
      ∃ new, u.log = new ++ s.log ∧ (Lossless new → Conveyed s.usb.unread new u.usb) :=
    ⟨new, intake.1, fun lossless => (intake.2 lossless).2⟩
  cases ok with
  | false =>
      obtain ⟨_, -, _, intake⟩ := ends.2 rfl
      exact conveyed intake
  | true =>
      rcases ends.1 rfl with ⟨_, intake, -⟩ | ⟨_, -, r, u, -, ⟨new, intake⟩, rfl⟩
      · exact conveyed intake
      · exact conveyed (intake.noted (e := .stream r) ⟨rfl, rfl⟩)

end Stream

end VueCartReader
