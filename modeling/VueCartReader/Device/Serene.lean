import VueCartReader.Device.Loop

/-!
# A host that only sends and collects

Nothing but the bulk endpoints is used while the host makes no control request and does not
reset the bus, and when a bank allows access according to what it holds (`Input.Plain`). Then
the endpoint that a task has selected stays selected through its stream calls, the IN endpoint
is never halted (`Serene`), and a free IN bank stays as it is until the firmware commits it.
-/

set_option autoImplicit false

namespace VueCartReader

open Program

/-! ## What the host does -/

/-- The host resets the bus. -/
def HostAct.resets : HostAct → Bool
  | .interrupt .endOfReset => true
  | _ => false

/-- No reset of the bus, and no access refused. -/
def Moment.plain (m : Moment) : Bool := !m.refused && m.acts.all fun a => !a.resets

/-- A round in which the host sends packets and collects them, and nothing else. -/
structure Input.Plain (i : Input) : Prop where
  moments : ∀ m ∈ i.script, m.plain = true
  setups : ∀ setup ∈ i.setups, setup.isNone = true

/-- Such a round is under way, no reset is due, the IN endpoint is not halted, and an endpoint
is selected. -/
structure Serene (endpoint : Nat) (w : World) : Prop where
  moments : ∀ m ∈ w.script, m.plain = true
  setups : ∀ setup ∈ w.setups, setup.isNone = true
  clear : w.vars.bulkReset = 0#32
  unstalled : w.usb.inStalled = false
  selected : w.usb.selected = endpoint

/-- A free IN bank has been left alone. -/
def KeepsFree (s t : World) : Prop :=
  s.usb.inBusy = false → t.usb.inBusy = false ∧ t.usb.inBank = s.usb.inBank

instance : IsPreorder World KeepsFree where
  refl _ free := ⟨free, rfl⟩
  trans _ _ _ one two free := ⟨(two (one free).1).1, (two (one free).1).2.trans (one free).2⟩

section Serene

variable {endpoint : Nat} {s t w : World}

theorem Serene.congr (held : Serene endpoint s) (script : t.script = s.script)
    (setups : t.setups = s.setups) (reset : t.vars.bulkReset = s.vars.bulkReset)
    (stalled : t.usb.inStalled = s.usb.inStalled)
    (selected : t.usb.selected = s.usb.selected) : Serene endpoint t where
  moments := by
    rw [script]
    exact held.moments
  setups := by
    rw [setups]
    exact held.setups
  clear := reset.trans held.clear
  unstalled := stalled.trans held.unstalled
  selected := selected.trans held.selected

/-! ## Looks at the hardware -/

theorem act_serene (held : Serene endpoint w) {a : HostAct} (mild : a.resets = false) :
    Serene endpoint (w.act a) ∧ KeepsFree w (w.act a) := by
  cases a with
  | sendOut packet =>
      rw [World.act]
      split
      · exact ⟨held.congr rfl rfl rfl rfl rfl, fun free => ⟨free, rfl⟩⟩
      · exact ⟨held, fun free => ⟨free, rfl⟩⟩
  | collectIn =>
      rw [World.act]
      split
      · rename_i busy
        refine ⟨held.congr rfl rfl rfl rfl rfl, fun free => ?_⟩
        cases busy.symm.trans free
      · exact ⟨held, fun free => ⟨free, rfl⟩⟩
  | interrupt i =>
      cases i with
      | endOfReset => cases mild
      | suspend => exact ⟨held.congr rfl rfl rfl rfl rfl, fun free => ⟨free, rfl⟩⟩
      | wakeUp => exact ⟨held.congr rfl rfl rfl rfl rfl, fun free => ⟨free, rfl⟩⟩

theorem acts_serene {acts : List HostAct} (mild : ∀ a ∈ acts, a.resets = false) :
    ∀ w, Serene endpoint w →
      Serene endpoint (acts.foldl World.act w) ∧ KeepsFree w (acts.foldl World.act w) := by
  induction acts with
  | nil => exact fun w held => ⟨held, fun free => ⟨free, rfl⟩⟩
  | cons a rest ih =>
      intro w held
      obtain ⟨held, kept⟩ := act_serene held (mild a (List.mem_cons_self ..))
      obtain ⟨held, further⟩ := ih (fun b member => mild b (List.mem_cons_of_mem _ member)) _ held
      exact ⟨held, trans_of KeepsFree kept further⟩

/-- A moment refuses no access, and the host leaves a free IN bank alone. -/
theorem moment_looks (held : Serene endpoint s) :
    wp moment (fun m t => m.refused = false ∧ Serene endpoint t ∧ KeepsFree s t) Anywhere s := by
  unfold wp moment
  cases script : s.script with
  | nil => trivial
  | cons m rest =>
      have plain := held.moments m (by rw [script]; exact List.mem_cons_self ..)
      simp only [Moment.plain, Bool.and_eq_true, Bool.not_eq_true', List.all_eq_true] at plain
      have begun : Serene endpoint { s with script := rest } :=
        ⟨fun m member => held.moments m (by rw [script]; exact List.mem_cons_of_mem _ member),
          held.setups, held.clear, held.unstalled, held.selected⟩
      exact ⟨plain.1, acts_serene plain.2 _ begun⟩

theorem moment_serene : Stays (Serene endpoint) Anywhere moment := fun _ held =>
  (moment_looks held).mono (fun _ _ ends => ends.2.1) fun _ _ => trivial

theorem modify_serene {f : World → World} (script : ∀ w, (f w).script = w.script)
    (setups : ∀ w, (f w).setups = w.setups)
    (reset : ∀ w, (f w).vars.bulkReset = w.vars.bulkReset)
    (stalled : ∀ w, (f w).usb.inStalled = w.usb.inStalled)
    (selected : ∀ w, (f w).usb.selected = w.usb.selected) :
    Stays (Serene endpoint) Anywhere (modify f) :=
  Stays.modify fun w held => held.congr (script w) (setups w) (reset w) (stalled w) (selected w)

theorem note_serene (e : Event) : Stays (Serene endpoint) Anywhere (note e) :=
  modify_serene (fun _ => rfl) (fun _ => rfl) (fun _ => rfl) (fun _ => rfl) fun _ => rfl

theorem onVars_serene {f : Vars → Vars} (reset : ∀ v, (f v).bulkReset = v.bulkReset) :
    Stays (Serene endpoint) Anywhere (onVars f) :=
  modify_serene (fun _ => rfl) (fun _ => rfl) (fun w => reset w.vars) (fun _ => rfl) fun _ => rfl

theorem onBus_serene (by_ : Actor) (f : Rig → Rig) :
    Stays (Serene endpoint) Anywhere (onBus by_ f) :=
  modify_serene (fun _ => rfl) (fun _ => rfl) (fun _ => rfl) (fun _ => rfl) fun _ => rfl

/-- Another endpoint is selected. -/
theorem Serene.select (held : Serene endpoint s) (address : Nat) :
    wp (endpointSelectEndpoint address) (fun _ t => Serene address t) Anywhere s :=
  ⟨held.moments, held.setups, held.clear, held.unstalled, rfl⟩

/-- The IN bank allows access while it is free and not full. -/
theorem endpointIsReadWriteAllowed_looks (held : Serene vueCartReaderInEpAddr s) :
    wp endpointIsReadWriteAllowed
      (fun allowed t => Serene vueCartReaderInEpAddr t ∧ KeepsFree s t ∧
        allowed = (!t.usb.inBusy && decide (t.usb.inBank.length < vueCartReaderEpSize)))
      Anywhere s := by
  refine wp.bind (moment_looks held) fun m t ends => ?_
  obtain ⟨granted, held, kept⟩ := ends
  rw [granted]
  refine ⟨held, kept, ?_⟩
  rw [Usb.readWriteAllowed, held.selected, if_neg (by decide), if_pos rfl, held.unstalled]
  rfl

theorem endpointIsInReady_looks (held : Serene vueCartReaderInEpAddr s) :
    wp endpointIsInReady (fun ready t => Serene vueCartReaderInEpAddr t ∧ KeepsFree s t ∧
      ready = !t.usb.inBusy) Anywhere s := by
  refine wp.bind (moment_looks held) fun m t ends => ?_
  obtain ⟨-, held, kept⟩ := ends
  refine ⟨held, kept, ?_⟩
  rw [Usb.inReady, held.selected]
  rfl

/-- There is nothing to wait for while the IN bank is free. -/
theorem endpointWaitUntilReady_looks (held : Serene vueCartReaderInEpAddr s)
    (free : s.usb.inBusy = false) :
    wp endpointWaitUntilReady (fun result t => result = .noError ∧
      Serene vueCartReaderInEpAddr t ∧ t.usb.inBusy = false ∧ t.usb.inBank = s.usb.inBank)
      Anywhere s := by
  refine wp.bind (moment_looks held) fun m t ends => ?_
  obtain ⟨-, held, kept⟩ := ends
  obtain ⟨free, same⟩ := kept free
  have ready : t.usb.inReady = true := by
    rw [Usb.inReady, held.selected, free]
    rfl
  rw [wp_bind, wp_state, if_pos (by rw [ready, Bool.or_true])]
  exact ⟨rfl, held, free, same⟩

/-! ## The OUT endpoint -/

theorem endpointIsOutReceived_serene : Stays (Serene endpoint) Anywhere endpointIsOutReceived :=
  moment_serene.bind fun _ => .bind .state fun _ => .pure _

theorem endpointIsReadWriteAllowed_serene :
    Stays (Serene endpoint) Anywhere endpointIsReadWriteAllowed :=
  moment_serene.bind fun _ => .ite (fun _ => (note_serene _).bind fun _ => .pure _)
    fun _ => .bind .state fun _ => .pure _

theorem endpointWaitUntilReady_serene : Stays (Serene endpoint) Anywhere endpointWaitUntilReady :=
  moment_serene.bind fun _ => .bind .state fun _ => .ite (fun _ => .pure _) fun _ =>
    moment_serene.bind fun _ => .bind .state fun _ => .pure _

theorem freeOut_serene (by_ : Actor) : Stays (Serene endpoint) Anywhere (freeOut by_) :=
  Stays.modify fun w held => by
    split
    · exact held.congr rfl rfl rfl rfl rfl
    · exact held

theorem endpointClearOut_serene (by_ : Actor) :
    Stays (Serene endpoint) Anywhere (endpointClearOut by_) :=
  moment_serene.bind fun _ => .bind .state fun _ => .whenever fun _ => freeOut_serene by_

/-- The endpoint that halts is the OUT endpoint. -/
theorem refuseOut_serene : Stays (Serene vueCartReaderOutEpAddr) Anywhere refuseOut := by
  have reset : Stays (Serene vueCartReaderOutEpAddr) Anywhere
      (endpointResetEndpoint .task vueCartReaderOutEpAddr) :=
    moment_serene.bind fun _ => .ite (fun _ => freeOut_serene _) fun other => absurd rfl other
  refine reset.bind fun _ => .bind .state fun _ => (note_serene _).bind fun _ =>
    moment_serene.bind fun _ => .bind .state fun _ => (note_serene _).bind fun _ =>
      Stays.modify fun w held => ?_
  have halts : w.usb.setStalled true = { w.usb with outStalled := true } := if_pos held.selected
  rw [halts]
  exact held.congr rfl rfl rfl rfl rfl

theorem endpointRead8_serene : Stays (Serene endpoint) Anywhere endpointRead8 := by
  refine .bind .state fun w => ?_
  split
  · refine .bind ?_ fun _ => (note_serene _).bind fun _ => .pure _
    exact modify_serene (fun _ => rfl) (fun _ => rfl) (fun _ => rfl) (fun _ => rfl) fun _ => rfl
  · exact .pure _

/-! ## Control requests -/

/-- There is no request to serve, and what was selected is selected again. -/
theorem usbUsbTask_serene : Stays (Serene endpoint) Anywhere usbUsbTask := by
  refine moment_serene.bind fun _ s held => ?_
  rw [wp_bind, wp_state]
  refine (wp_ite _ _ _).mpr ⟨fun _ => held, fun _ => ?_⟩
  refine wp.bind (held.select endpointControlEp) fun _ t held' => ?_
  have next :
      wp nextSetup (fun setup u => setup = none ∧ Serene endpointControlEp u) Anywhere t := by
    unfold wp nextSetup
    cases setups : t.setups with
    | nil => trivial
    | cons setup rest =>
        have none_ := held'.setups setup (by rw [setups]; exact List.mem_cons_self ..)
        exact ⟨Option.isNone_iff_eq_none.mp none_, held'.moments,
          fun other member =>
            held'.setups other (by rw [setups]; exact List.mem_cons_of_mem _ member),
          held'.clear, held'.unstalled, held'.selected⟩
  refine next.bind fun setup u ends => ?_
  obtain ⟨rfl, held'⟩ := ends
  rw [serveSetup, wp_bind, wp_pure, held.selected]
  exact held'.select endpoint

/-! ## The tasks for the OUT endpoint -/

theorem readStream_serene (store : Nat → Byte → Vars → Vars)
    (reset : ∀ i x v, (store i x v).bulkReset = v.bulkReset) (length : Nat) :
    Stays (Serene endpoint) Anywhere (stream (readStream store) length) :=
  Stays.stream (fun _ _ => trivial) (fun _ _ => note_serene _) endpointWaitUntilReady_serene
    endpointIsReadWriteAllowed_serene
    (fun i => endpointRead8_serene.bind fun x => onVars_serene (reset i x))
    (endpointClearOut_serene .task)
    usbUsbTask_serene length

theorem undefinedBehaviour_serene {α : Type} :
    Stays (Serene endpoint) Anywhere (undefinedBehaviour : Fw α) :=
  (note_serene _).bind fun _ => .stop fun _ _ => trivial

theorem beginTransfer_serene (func : Byte → AccessFunc) :
    Stays (Serene endpoint) Anywhere (beginTransfer func) := by
  refine .bind .state fun w => ?_
  dsimp only
  split
  · exact undefinedBehaviour_serene
  · exact .bind (onVars_serene fun _ => rfl) fun _ => .bind (onBus_serene _ _) fun _ =>
      onVars_serene fun _ => rfl

theorem bulkAccess_serene (length : BitVec 32) :
    Stays (Serene endpoint) Anywhere (bulkAccess length) := by
  refine .bind .state fun w => ?_
  cases w.vars.bulkAccessFunc with
  | none => exact undefinedBehaviour_serene
  | some func =>
      refine (note_serene _).bind fun _ => ?_
      dsimp only
      split
      · exact undefinedBehaviour_serene
      · exact modify_serene (fun _ => rfl) (fun _ => rfl) (fun _ => rfl) (fun _ => rfl) fun _ => rfl

theorem deselect_serene : Stays (Serene endpoint) Anywhere deselect :=
  (note_serene _).bind fun _ => .bind .state fun _ => onBus_serene _ _

theorem vueBulkWriteTask_serene : Stays (Serene endpoint) Anywhere vueBulkWriteTask := by
  have finish : Stays (Serene endpoint) Anywhere finishWrite :=
    .bind deselect_serene fun _ => onVars_serene fun _ => rfl
  refine .bind .state fun _ => .ite (fun _ => beginTransfer_serene _) fun _ => .ite (fun _ => ?_)
    fun _ => finish
  refine .bind (readStream_serene storeBuffer (fun _ _ _ => rfl) _) fun _ =>
    .ite (fun _ => ?_) fun _ => .pure _
  exact .bind (bulkAccess_serene _) fun _ => .bind (onVars_serene fun _ => rfl) fun _ =>
    .bind .state fun _ => .whenever fun _ => finish

theorem judgeCommand_serene : Stays (Serene vueCartReaderOutEpAddr) Anywhere judgeCommand := by
  refine .bind (onVars_serene fun _ => rfl) fun _ s held => ?_
  rw [wp_bind, wp_state, wp_ite, wp_ite]
  refine ⟨fun defined => ⟨fun _ => note_serene _ s held, fun _ => ?_⟩, fun _ => ?_⟩
  · rw [wp_of_value (startCommand_eq defined)]
    exact held.congr rfl rfl rfl rfl rfl
  · exact ((note_serene _).bind fun _ => refuseOut_serene) s held

theorem outTask_serene (state : FsmState) :
    Stays (Serene vueCartReaderOutEpAddr) Anywhere (outTask state) := by
  cases state with
  | idle =>
      exact .bind .state fun _ => .bind (note_serene _) fun _ =>
        .bind (readStream_serene storeCommand (fun _ _ _ => rfl) _) fun _ =>
          .ite (fun _ => judgeCommand_serene) fun _ => .pure _
  | write => exact vueBulkWriteTask_serene
  | read => exact refuseOut_serene
  | other raw => exact refuseOut_serene

theorem serveOut_serene (held : Serene endpoint s) :
    wp serveOut (fun _ t => Serene vueCartReaderOutEpAddr t) Anywhere s := by
  refine wp.bind (held.select vueCartReaderOutEpAddr) fun _ t held => ?_
  have served : Stays (Serene vueCartReaderOutEpAddr) Anywhere (do
      if ← endpointIsOutReceived then
        let state := (← state).vars.curVueState
        note (.outReceived state)
        outTask state
        note (.operate .clearOut (← Program.state).usb.selected)
        endpointClearOut .task) :=
    endpointIsOutReceived_serene.bind fun _ => .ite (fun _ => .bind .state fun _ =>
      (note_serene _).bind fun _ => (outTask_serene _).bind fun _ => .bind .state fun _ =>
        (note_serene _).bind fun _ => endpointClearOut_serene _) fun _ => .pure _
  exact served t held

end Serene

end VueCartReader
