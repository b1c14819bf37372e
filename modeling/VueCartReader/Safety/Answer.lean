import VueCartReader.Safety.Machine

/-!
# Which control reads are answered

The handler of the firmware acknowledges every SETUP packet that asks a vendor request of
the device, before it looks at the request code, so the library no longer refuses one that
the handler does not know. Such a request is answered only by the code itself. A host that
waits for its data (`Waits`) is given some before the status stage for `REQ_READ_HEADER`
and `REQ_READ_DEBUG`, and for no other code (`serveSetup_answered_iff`).
-/

set_option autoImplicit false

namespace VueCartReader

open Program

/-! ## A host that waits -/

/-- Nothing comes from the host, and the device stays attached. -/
structure ControlPoll.Calm (p : ControlPoll) : Prop where
  attached : .suspend ∉ p.interrupts
  noSetup : p.setupReceived = false
  noStatus : p.outReceived = false

/-- The host waits for its data: each round of looks, for a SETUP packet, for the status
packet and for the bank, finds nothing from it, until a round finds the bank ready. -/
def Waits : List ControlPoll → Prop
  | p :: q :: r :: rest => (p.Calm ∧ q.Calm ∧ r.Calm) ∧ (r.inReady = true ∨ Waits rest)
  | _ => False

/-- The device has committed data or has refused the request. -/
def Event.answers : Event → Bool
  | .reply _ => true
  | .stall endpoint => endpoint == endpointControlEp
  | _ => false

/-- Among new events one answers, and the status stage has not begun before it. -/
def Answers (new : List Event) : Prop :=
  ∃ later e earlier, new = later ++ e :: earlier ∧ e.answers = true ∧ .statusStage ∉ earlier

theorem Answers.append {new : List Event} (answered : Answers new) (more : List Event) :
    Answers (more ++ new) := by
  obtain ⟨later, e, earlier, split, answers, before⟩ := answered
  exact ⟨more ++ later, e, earlier, by rw [split, List.append_assoc], answers, before⟩

/-- A request has been answered on the way from one world to another. -/
def Answered (s t : World) : Prop := ∃ new, t.log = new ++ s.log ∧ Answers new

theorem Answered.framed {s t u : World} (answered : Answered s t) (framed : Framed OfUsb t u) :
    Answered s u := by
  obtain ⟨new, log, answers⟩ := answered
  obtain ⟨more, log', -⟩ := framed.log
  exact ⟨more ++ new, by rw [log', log, List.append_assoc], answers.append more⟩

/-! ## The data stage -/

/-- The status stage has not begun. -/
abbrev Unstaged (s t : World) : Prop := Logs (fun e => e ≠ .statusStage) s t

theorem Answered.after {s t u : World} (answered : Answered t u) (before : Unstaged s t) :
    Answered s u := by
  obtain ⟨new, log, later, e, earlier, split, answers, unstaged⟩ := answered
  obtain ⟨older, log', all⟩ := before
  refine ⟨new ++ older, by rw [log, log', List.append_assoc], later, e, earlier ++ older,
    by rw [split, List.append_assoc]; rfl, answers, fun member => ?_⟩
  rcases List.mem_append.mp member with late | early
  · exact unstaged late
  · exact all _ early rfl

/-- A device that is attached and awake, and is not asked anything new. -/
structure Attending (t : World) : Prop where
  attached : t.usb.deviceState ≠ .unattached ∧ t.usb.deviceState ≠ .suspended
  asked : t.usb.setupReceived = false

theorem interrupted_attached {u : Usb} {i : UsbInterrupt} (other : i ≠ .suspend) :
    (u.interrupted i).deviceState ≠ .unattached ∧ (u.interrupted i).deviceState ≠ .suspended := by
  cases i with
  | suspend => exact absurd rfl other
  | wakeUp =>
      simp only [Usb.interrupted]
      split
      · exact ⟨nofun, nofun⟩
      · split <;> exact ⟨nofun, nofun⟩
  | endOfReset => exact ⟨nofun, nofun⟩

theorem interrupted_asked (u : Usb) (i : UsbInterrupt) :
    (u.interrupted i).setupReceived = u.setupReceived ∧ (u.interrupted i).polls = u.polls ∧
      (u.interrupted i).controlRequest = u.controlRequest := by
  cases i <;> exact ⟨rfl, rfl, rfl⟩

/-- Interrupts that leave the device attached leave it attending. -/
theorem foldl_interrupted {is : List UsbInterrupt} (none_ : .suspend ∉ is) :
    ∀ u : Usb, u.deviceState ≠ .unattached ∧ u.deviceState ≠ .suspended →
      let v := is.foldl (fun u i => u.interrupted i) u
      (v.deviceState ≠ .unattached ∧ v.deviceState ≠ .suspended) ∧
        v.setupReceived = u.setupReceived ∧ v.polls = u.polls ∧
          v.controlRequest = u.controlRequest := by
  induction is with
  | nil => exact fun u attached => ⟨attached, rfl, rfl, rfl⟩
  | cons i is ih =>
      intro u attached
      have other : i ≠ .suspend := fun same => none_ (same ▸ List.mem_cons_self ..)
      obtain ⟨setup, polls, request⟩ := interrupted_asked u i
      have rest := ih (fun member => none_ (List.mem_cons_of_mem _ member)) (u.interrupted i)
        (interrupted_attached other)
      rw [setup, polls, request] at rest
      exact rest

/-- A look at the control endpoint while the host waits. -/
theorem controlPoll_calm {C : World → Prop} {t : World} {p : ControlPoll} {rest : List ControlPoll}
    (polls : t.usb.polls = p :: rest) (calm : p.Calm) (attending : Attending t) :
    wp controlPoll (fun q u => q = p ∧ u.usb.polls = rest ∧ Attending u ∧ Unstaged t u)
      C t := by
  unfold wp controlPoll
  rw [polls]
  obtain ⟨attached, setup, left, -⟩ := foldl_interrupted calm.attached { t.usb with polls := rest }
    attending.attached
  refine ⟨rfl, left, ⟨attached, setup.trans attending.asked⟩,
    (p.interrupts.map Event.interrupt).reverse, rfl, fun e member => ?_⟩
  obtain ⟨i, -, rfl⟩ := List.mem_map.mp (List.mem_reverse.mp member)
  exact nofun

theorem controlIsSetupReceived_calm {C : World → Prop} {t : World} {p : ControlPoll}
    {rest : List ControlPoll}
    (polls : t.usb.polls = p :: rest) (calm : p.Calm) (attending : Attending t) :
    wp controlIsSetupReceived
      (fun q u => q = false ∧ u.usb.polls = rest ∧ Attending u ∧ Unstaged t u) C t := by
  rw [controlIsSetupReceived]
  refine wp.bind (controlPoll_calm polls calm attending)
    fun q u ⟨same, left, attending, framed⟩ => ?_
  subst same
  rw [onUsb, wp_bind, wp_modify, wp_bind, wp_state, wp_pure]
  have asked : (u.usb.setupReceived || (u.usb.selected == endpointControlEp && q.setupReceived)) =
      false := by rw [attending.asked, calm.noSetup, Bool.and_false, Bool.or_false]
  refine ⟨?_, left, ⟨attending.attached, asked⟩, framed.trans (.none rfl)⟩
  simp only [asked, Bool.and_false]

/-- **Data is sent to a host that waits.** -/
theorem writeControlPackets_answered (looks : Nat) :
    ∀ {t : World} {data : List Byte} (full : Bool), data ≠ [] → Waits t.usb.polls →
      t.usb.polls.length < looks → Attending t →
      wp (writeControlPackets looks data full) (fun _ u => Answered t u) (Answered t) t := by
  induction looks with
  | zero => exact fun _ _ _ short => absurd short (Nat.not_lt_zero _)
  | succ looks ih =>
      intro t data full some_ waits enough attending
      obtain ⟨p, q, r, rest, polls⟩ : ∃ p q r rest, t.usb.polls = p :: q :: r :: rest := by
        match polls : t.usb.polls with
        | p :: q :: r :: rest => exact ⟨p, q, r, rest, rfl⟩
        | [] | [_] | [_, _] => simp only [polls, Waits] at waits
      rw [polls] at waits enough
      obtain ⟨⟨setup, status, bank⟩, ready⟩ := waits
      have more : ¬ (data.isEmpty && !full) = true := by
        cases data with
        | nil => exact absurd rfl some_
        | cons x data => simp
      rw [writeControlPackets, if_neg more, wp_bind, wp_state, if_neg (by
        simpa only [Bool.or_eq_true, decide_eq_true_eq, not_or] using attending.attached)]
      refine wp.bind (controlIsSetupReceived_calm polls setup attending)
        fun b u ⟨none_, polls, attending, framed⟩ => ?_
      rw [none_, if_neg (by exact nofun)]
      refine wp.bind (controlPoll_calm polls status attending)
        fun s v ⟨same, polls, attending, framed'⟩ => ?_
      rw [same, if_neg (by rw [status.noStatus]; exact nofun)]
      refine wp.bind (controlPoll_calm polls bank attending)
        fun s w ⟨same, polls, attending, framed''⟩ => ?_
      have framed := (framed.trans framed').trans framed''
      rw [same, wp_ite]
      refine ⟨fun _ => ?_, fun busy => ?_⟩
      · -- the bank is filled and committed; what follows only adds to the log
        simp only [wp_bind, wp_state, controlWrite, controlClearIn, onUsb, note, wp_modify]
        obtain ⟨new, log, all⟩ := framed
        have answered (x : World) {d : List Byte} (added : x.log = .reply d :: w.log) :
            Answered t x := by
          exact ⟨.reply d :: new, by rw [added, log]; rfl, [], .reply d, new, rfl, rfl,
            fun member => all _ member rfl⟩
        exact ((writeControlPackets_framed _ _ _) _).mono
          (fun _ _ later => (answered _ rfl).framed later) fun _ later =>
            (answered _ rfl).framed later
      · have waits := ready.resolve_left busy
        rw [← polls] at waits
        have left := congrArg List.length polls
        simp only [List.length_cons] at enough left
        exact (ih full some_ waits (by omega) attending).mono
          (fun _ _ later => later.after framed) fun _ later => later.after framed

/-- A control stream with data for a host that waits for some. -/
theorem endpointWriteControlStream_answered {t : World} {data : List Byte} (some_ : data ≠ [])
    (asked : t.usb.controlRequest.wLength ≠ 0#16) (waits : Waits t.usb.polls)
    (attending : Attending t) :
    wp (endpointWriteControlStream data) (fun _ u => Answered t u) (Answered t) t := by
  have length : t.usb.controlRequest.wLength.toNat ≠ 0 := fun zero =>
    asked (BitVec.eq_of_toNat_eq zero)
  have part : data.take t.usb.controlRequest.wLength.toNat ≠ [] := by
    simp only [ne_eq, List.take_eq_nil_iff, not_or]
    exact ⟨length, some_⟩
  rw [endpointWriteControlStream, wp_bind, wp_state, wp_bind, wp_whenever]
  refine ⟨fun empty => ?_, fun _ =>
    writeControlPackets_answered _ false part waits (Nat.lt_succ_self _) attending⟩
  simp only [Bool.and_eq_true, List.isEmpty_iff] at empty
  exact absurd empty.2 some_

/-! ## The request -/

/-- The codes that are answered. -/
def UsbRequestHeader.answered (r : UsbRequestHeader) : Bool :=
  r.bRequest == reqReadHeader || r.bRequest == reqReadDebug

/-- Reading the header leaves the controller alone. -/
theorem serveReadHeader_unstaged (t : World) {C : World → Prop} :
    wp serveReadHeader (fun _ u => u.usb = t.usb ∧ Unstaged t u) C t := by
  refine ⟨rfl, _, rfl, fun e member => ?_⟩
  obtain ⟨_, _, rfl⟩ := portEvents_kind _ _ _ e member
  exact nofun

/-- The handler answers the two codes it sends data for. -/
theorem eventUsbDeviceControlRequest_answered {t : World}
    (read : t.usb.controlRequest.bmRequestType = vendorToHost)
    (asked : t.usb.controlRequest.wLength ≠ 0#16)
    (attached : t.usb.deviceState ≠ .unattached ∧ t.usb.deviceState ≠ .suspended)
    (waits : Waits t.usb.polls) (known : t.usb.controlRequest.answered = true) :
    wp eventUsbDeviceControlRequest (fun _ u => Answered t u) (Answered t) t := by
  have status (u : World) (answered : Answered t u) :
      wp endpointClearStatusStage (fun _ v => Answered t v) (Answered t) u :=
    (endpointClearStatusStage_framed u).mono (fun _ _ later => answered.framed later)
      fun _ later => answered.framed later
  rw [eventUsbDeviceControlRequest, wp_bind, wp_state, if_neg (by rw [read]; decide), if_pos read,
    controlClearSetup, onUsb, wp_bind, wp_modify]
  -- the SETUP packet has been acknowledged
  obtain ⟨u, eq⟩ : ∃ u : World, u = { t with usb := { t.usb with setupReceived := false } } :=
    ⟨_, rfl⟩
  have acknowledged : Unstaged t u := .none (by rw [eq])
  have request : u.usb.controlRequest = t.usb.controlRequest := by rw [eq]
  have polls : u.usb.polls = t.usb.polls := by rw [eq]
  have attending : Attending u := by
    rw [eq]
    exact ⟨attached, rfl⟩
  rw [← eq]
  have answer {v : World} (usb : v.usb = u.usb) (before : Unstaged t v) {data : List Byte}
      (some_ : data ≠ []) :
      wp (endpointWriteControlStream data) (fun _ x => Answered t x) (Answered t) v := by
    refine (endpointWriteControlStream_answered some_ ?_ ?_ ?_).mono
      (fun _ _ answered => answered.after before) fun _ answered => answered.after before
    · rwa [usb, request]
    · rwa [usb, polls]
    · exact ⟨by rw [usb]; exact attending.attached, by rw [usb]; exact attending.asked⟩
  rw [wp_bind, wp_whenever]
  refine ⟨fun header => ?_, fun other => ?_⟩
  · refine wp.bind (serveReadHeader_unstaged u) fun _ v served => ?_
    obtain ⟨usb, read⟩ := served
    rw [wp_bind, wp_state]
    have bytes : v.vars.myBuffer.toList ≠ [] := by
      intro none_
      have size : v.vars.myBuffer.toList.length = 32 := Vector.length_toList
      rw [none_] at size
      exact absurd size (by decide)
    refine (answer usb (acknowledged.trans read) bytes).mono (fun _ x answered => ?_) fun _ => id
    -- the code is no other
    rw [wp_bind, wp_whenever]
    exact ⟨fun debug => absurd (header.symm.trans debug) (by decide), fun _ => status x answered⟩
  · have debug : t.usb.controlRequest.bRequest = reqReadDebug := by
      simp only [UsbRequestHeader.answered, Bool.or_eq_true, beq_iff_eq] at known
      exact known.resolve_left other
    rw [wp_bind, wp_whenever]
    exact ⟨fun _ =>
      (answer rfl acknowledged (List.cons_ne_nil _ _)).mono (fun _ => status) fun _ => id,
      fun not_ => absurd debug not_⟩

/-- With any other code the handler goes straight on to the status stage. -/
theorem eventUsbDeviceControlRequest_unknown {t : World}
    (read : t.usb.controlRequest.bmRequestType = vendorToHost)
    (noHeader : t.usb.controlRequest.bRequest ≠ reqReadHeader)
    (noDebug : t.usb.controlRequest.bRequest ≠ reqReadDebug) :
    wp eventUsbDeviceControlRequest (fun _ u => ∃ more, u.log = more ++ .statusStage :: t.log)
      (fun u => ∃ more, u.log = more ++ .statusStage :: t.log) t := by
  have staged {v u : World} (log : v.log = .statusStage :: t.log) (framed : Framed OfUsb v u) :
      ∃ more, u.log = more ++ .statusStage :: t.log := by
    obtain ⟨more, log', -⟩ := framed.log
    exact ⟨more, by rw [log', log]⟩
  rw [eventUsbDeviceControlRequest, wp_bind, wp_state, if_neg (by rw [read]; decide), if_pos read,
    controlClearSetup, onUsb, wp_bind, wp_modify, wp_bind, wp_whenever]
  refine ⟨fun header => absurd header noHeader, fun _ => ?_⟩
  rw [wp_bind, wp_whenever]
  refine ⟨fun debug => absurd debug noDebug, fun _ => ?_⟩
  rw [endpointClearStatusStage, note, wp_bind, wp_modify, wp_bind, wp_state]
  exact (awaitStatusStage_framed _ _ _).mono (fun _ _ => staged rfl) fun _ => staged rfl

/-- The world in which a SETUP packet is being processed. -/
def World.asked (w : World) (transfer : ControlTransfer) : World :=
  { w with
    usb :=
      { w.usb with
        controlRequest := transfer.header, polls := transfer.polls, setupReceived := true }
    log := .request transfer.header w.vars.curVueState w.vars.bulkAddress :: w.log }

/-- What becomes of a SETUP packet after the handler of the firmware. -/
theorem serveSetup_of_handler {s : World} {transfer : ControlTransfer} {P : World → Prop}
    (grows : ∀ t u, Framed OfUsb t u → P t → P u)
    (handled : wp eventUsbDeviceControlRequest (fun _ u => P u) P (s.asked transfer)) :
    wp (serveSetup (some transfer)) (fun _ u => P u) P s := by
  have library : Moves (Framed OfUsb) (do
      whenever (← controlIsSetupReceived) usbDeviceStandardRequest
      whenever (← controlIsSetupReceived) do
        controlClearSetup
        controlStallTransaction) :=
    controlIsSetupReceived_framed.bind fun _ =>
      (Moves.whenever fun _ => usbDeviceStandardRequest_framed).bind fun _ =>
        controlIsSetupReceived_framed.bind fun _ => Moves.whenever fun _ =>
          controlClearSetup_framed.bind fun _ => note_framed rfl
  rw [serveSetup, onUsb, wp_bind, wp_modify, usbDeviceProcessControlRequest, wp_bind, wp_state,
    wp_bind, note, wp_modify]
  exact wp.bind handled fun _ u held => (library u).mono (fun _ v later => grows u v later held)
    fun v later => grows u v later held

/-- The log in which the status stage has begun before anything else. -/
def StagedFirst (s : World) (transfer : ControlTransfer) (t : World) : Prop :=
  ∃ more, t.log = more ++ .statusStage :: (s.asked transfer).log

theorem StagedFirst.not_answered {s t : World} {transfer : ControlTransfer}
    (staged : StagedFirst s transfer t) : ¬ Answered s t := by
  rintro ⟨new, log, later, e, earlier, split, answers, before⟩
  obtain ⟨more, log'⟩ := staged
  have both : later ++ e :: earlier = more ++ [.statusStage,
      .request transfer.header s.vars.curVueState s.vars.bulkAddress] := by
    have whole : (later ++ e :: earlier) ++ s.log = (more ++ [.statusStage,
        .request transfer.header s.vars.curVueState s.vars.bulkAddress]) ++ s.log := by
      rw [← split, ← log, log', List.append_assoc]
      rfl
    exact List.append_cancel_right whole
  -- the answer would come before the request, or be the request or the status stage itself
  rcases List.append_eq_append_iff.mp both with ⟨middle, -, rest⟩ | ⟨middle, -, rest⟩
  · cases middle with
    | nil =>
        cases rest
        exact nomatch answers
    | cons _ middle =>
        rw [List.cons_append, List.cons.injEq] at rest
        exact before (by rw [rest.2]; simp)
  · cases middle with
    | nil =>
        cases rest
        exact nomatch answers
    | cons _ middle =>
        cases middle with
        | nil =>
            cases rest
            exact nomatch answers
        | cons _ middle =>
            have size := congrArg List.length rest
            simp only [List.length_append, List.length_cons, List.length_nil] at size
            omega

/-- With an unknown code the status stage begins before anything has been sent. -/
theorem serveSetup_stagedFirst {s : World} {transfer : ControlTransfer}
    (read : transfer.header.bmRequestType = vendorToHost)
    (noHeader : transfer.header.bRequest ≠ reqReadHeader)
    (noDebug : transfer.header.bRequest ≠ reqReadDebug) :
    StagedFirst s transfer (serveSetup (some transfer) s).state := by
  refine (serveSetup_of_handler (P := StagedFirst s transfer) (fun t u framed staged => ?_)
    (eventUsbDeviceControlRequest_unknown (t := s.asked transfer) read noHeader noDebug)).exit
  obtain ⟨more, log⟩ := staged
  obtain ⟨later, log', -⟩ := framed.log
  exact ⟨later ++ more, by rw [log', log, List.append_assoc]⟩

/-- **When a vendor read is answered.** In whatever world a SETUP packet asks a vendor
request of the device for some bytes, and the host waits for them, the device commits data
or refuses before it begins the status stage if and only if the code is `REQ_READ_HEADER`
or `REQ_READ_DEBUG`. -/
theorem serveSetup_answered_iff {s : World} {transfer : ControlTransfer}
    (read : transfer.header.bmRequestType = vendorToHost) (asked : transfer.header.wLength ≠ 0#16)
    (attached : s.usb.deviceState ≠ .unattached ∧ s.usb.deviceState ≠ .suspended)
    (waits : Waits transfer.polls) :
    Answered s (serveSetup (some transfer) s).state ↔
      transfer.header.bRequest = reqReadHeader ∨ transfer.header.bRequest = reqReadDebug := by
  constructor
  · intro answered
    by_contra unknown
    rw [not_or] at unknown
    exact (serveSetup_stagedFirst read unknown.1 unknown.2).not_answered answered
  · intro known
    refine (serveSetup_of_handler (P := Answered s) (fun t u framed answered =>
      answered.framed framed) ?_).exit
    have before : Unstaged s (s.asked transfer) := .one rfl nofun
    have code : (s.asked transfer).usb.controlRequest.answered = true := by
      simp only [UsbRequestHeader.answered, Bool.or_eq_true, beq_iff_eq]
      exact known
    exact (eventUsbDeviceControlRequest_answered (t := s.asked transfer) read asked attached waits
      code).mono
      (fun _ _ answered => answered.after before) fun _ answered => answered.after before

/-- The host asks for some bytes and waits for them, its bank always ready. -/
def askedFor (code : Byte) : ControlTransfer where
  header := ⟨vendorToHost, code, 0#16, 0#16, 32#16⟩
  polls := List.replicate 3 ⟨[], false, true, false⟩

theorem askedFor_waits (code : Byte) : Waits (askedFor code).polls :=
  have calm : (⟨[], false, true, false⟩ : ControlPoll).Calm := ⟨List.not_mem_nil, rfl, rfl⟩
  ⟨⟨calm, calm, calm⟩, .inl rfl⟩

theorem serveSetup_answered_iff_debug :
    Answered configuredWorld (serveSetup (some (askedFor reqReadDebug)) configuredWorld).state ↔
      (askedFor reqReadDebug).header.bRequest = reqReadHeader ∨
        (askedFor reqReadDebug).header.bRequest = reqReadDebug :=
  serveSetup_answered_iff rfl (by decide) (by decide +kernel) (askedFor_waits reqReadDebug)

/-- `REQ_GET_STATUS`, which the host software is told of, is never answered: the status
stage begins with nothing sent. -/
theorem serveSetup_unanswered :
    ¬ ∀ (w : World) (transfer : ControlTransfer), Reachable w → w.usb.deviceState = .configured →
      transfer.header.bmRequestType = vendorToHost → transfer.header.wLength ≠ 0#16 →
      Waits transfer.polls → Answered w (serveSetup (some transfer) w).state := by
  intro claim
  have configured : configuredWorld.usb.deviceState = .configured := by decide +kernel
  have answered := claim configuredWorld (askedFor reqGetStatus) configuredWorld_reachable
    configured rfl (by decide) (askedFor_waits reqGetStatus)
  have staged : StagedFirst configuredWorld (askedFor reqGetStatus) _ :=
    serveSetup_stagedFirst rfl (by decide) (by decide)
  exact staged.not_answered answered

end VueCartReader
