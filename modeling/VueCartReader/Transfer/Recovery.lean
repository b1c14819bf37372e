import VueCartReader.Transfer.Completion
import VueCartReader.Transfer.Flush

/-!
# A reset leads back to a firmware that waits for a command

Whatever a reset interrupts, and wherever the request has been served, the round that finds
`bulk_reset` set returns when the host only collects meanwhile: the reset block takes five moments.
The firmware is then idle with both endpoints empty and unhalted, so that the host can send a
command (`reset_recovers`).
-/

set_option autoImplicit false

namespace VueCartReader

open Program

/-! ## A host that only collects -/

/-- What is left of a round for looks at the hardware. -/
def World.moments (w : World) : Nat := w.script.length

/-- What is left of a round is that the host collects, on a device that is configured. -/
structure Collecting (w : World) : Prop where
  moments : ∀ m ∈ w.script, ∀ a ∈ m.acts, a = .collectIn
  configured : w.usb.deviceState = .configured
  enabled : w.usb.enabled = true

/-- And there is no packet of the host. -/
structure Vacated (w : World) : Prop extends Collecting w where
  free : w.usb.outBank = none

theorem acts_outBank {acts : List HostAct} (collects : ∀ a ∈ acts, a = .collectIn) :
    ∀ w : World, (acts.foldl World.act w).usb.outBank = w.usb.outBank := by
  induction acts with
  | nil => exact fun _ => rfl
  | cons a rest ih =>
      intro w
      have here : (w.act a).usb.outBank = w.usb.outBank := by
        rw [collects a (List.mem_cons_self ..), World.act]
        split <;> rfl
      exact (ih (fun b member => collects b (List.mem_cons_of_mem _ member)) _).trans here

section Collecting

variable {s t : World}

theorem Collecting.step (held : Collecting s) (script : t.script = s.script)
    (device : t.usb.deviceState = s.usb.deviceState) (enabled : t.usb.enabled = s.usb.enabled) :
    Collecting t where
  moments := by
    rw [script]
    exact held.moments
  configured := device.trans held.configured
  enabled := enabled.trans held.enabled

theorem moment_collecting (held : Collecting s) :
    Returns World.moments 1 moment (fun _ t => Collecting t ∧ t.usb.outBank = s.usb.outBank) s := by
  intro some_
  unfold wp moment
  cases script : s.script with
  | nil =>
      rw [World.moments, script] at some_
      cases some_
  | cons m rest =>
      have collects := held.moments m (by rw [script]; exact List.mem_cons_self ..)
      have bulk : ∀ a ∈ m.acts, a.bulk = true := by
        intro a member
        rw [collects a member]
        rfl
      have passed := acts_carried bulk { s with script := rest }
      have left := acts_script m.acts { s with script := rest }
      have later : ∀ n ∈ (m.acts.foldl World.act { s with script := rest }).script,
          ∀ a ∈ n.acts, a = .collectIn := by
        rw [left]
        intro n member
        exact held.moments n (by rw [script]; exact List.mem_cons_of_mem _ member)
      refine ⟨⟨⟨later, passed.device.trans held.configured, passed.enabled.trans held.enabled⟩,
        acts_outBank collects _⟩, ?_⟩
      rw [World.moments, World.moments, World.pass, left, script]
      exact Nat.le_refl _

theorem moment_vacated (held : Vacated s) :
    Returns World.moments 1 moment (fun _ t => Vacated t) s :=
  (moment_collecting held.toCollecting).mono fun _ _ ends => ⟨ends.1, ends.2.trans held.free⟩

/-! ## The reset block -/

/-- A program that waits a moment and then changes neither the device nor the OUT bank. -/
theorem momentThen_vacated (held : Vacated s) {f : Usb → Usb}
    (device : ∀ u, (f u).deviceState = u.deviceState) (enabled : ∀ u, (f u).enabled = u.enabled)
    (out : ∀ u, (f u).outBank = u.outBank) :
    Returns World.moments 1 (moment >>= fun _ => onUsb f) (fun _ t => Vacated t) s := by
  refine (moment_vacated held).bind (k := 0) fun m t held => ?_
  exact .modify ⟨held.step rfl (device t.usb) (enabled t.usb), (out t.usb).trans held.free⟩ rfl

theorem resetOut_vacates (held : Collecting s) :
    Returns World.moments 1 (endpointResetEndpoint .main vueCartReaderOutEpAddr)
      (fun _ t => Vacated t) s := by
  refine (moment_collecting held).bind (k := 0) fun m t seen => ?_
  rw [if_pos rfl]
  refine .modify ?_ ?_
  · cases bank : t.usb.outBank with
    | none => exact ⟨seen.1, bank⟩
    | some unread => exact ⟨seen.1.step rfl rfl rfl, rfl⟩
  · rw [World.moments, World.moments]
    split <;> rfl

theorem resetIn_vacated (held : Vacated s) :
    Returns World.moments 1 (endpointResetEndpoint .main vueCartReaderInEpAddr)
      (fun _ t => Vacated t) s := by
  refine (moment_vacated held).bind (k := 0) fun m t held => ?_
  rw [if_neg (by decide), if_pos rfl]
  exact .modify ⟨held.step rfl rfl rfl, held.free⟩ rfl

theorem clearEndpointStall_vacated (held : Vacated s) (address : Nat) :
    Returns World.moments 1 (clearEndpointStall address) (fun _ t => Vacated t) s := by
  have chosen : Vacated { s with usb := { s.usb with selected := address } } :=
    ⟨held.step rfl rfl rfl, held.free⟩
  refine .modify_bind rfl (momentThen_vacated chosen ?_ ?_ ?_)
  all_goals
    intro u
    rcases setStalled_cases u with eq | eq | eq <;> rw [eq]

theorem endpointAbortPendingIn_vacated (held : Vacated s) :
    Returns World.moments 1 endpointAbortPendingIn (fun _ t => Vacated t) s := by
  refine momentThen_vacated held ?_ ?_ ?_
  all_goals
    intro u
    split <;> rfl

/-- The reset block returns after five moments. -/
theorem resetBlock_returns (held : Collecting s) :
    Returns World.moments 5 resetBlock (fun _ t => Vacated t) s := by
  have restored : Returns World.moments 5 restoreDefaultState (fun _ t => Vacated t)
      { s with log := .resetBegin :: s.log } := by
    refine .modify_bind rfl (.modify_bind rfl ?_)
    refine Returns.bind (n := 1) (k := 4)
      (resetOut_vacates (held.step rfl rfl rfl)) fun _ t held => ?_
    refine .modify_bind rfl ?_
    have noted : Vacated { t with log := .outReset :: t.log } := ⟨held.step rfl rfl rfl, held.free⟩
    refine (resetIn_vacated noted).bind (k := 3) fun _ u held => ?_
    refine (clearEndpointStall_vacated held _).bind (k := 2) fun _ v held => ?_
    refine (clearEndpointStall_vacated held _).bind (k := 1) fun _ x held => ?_
    exact endpointAbortPendingIn_vacated held
  refine .modify_bind rfl (restored.bind (k := 0) fun _ t held => ?_)
  exact .modify_bind rfl (.modify ⟨held.step rfl rfl rfl, held.free⟩ rfl)

end Collecting

/-! ## Recovery -/

/-- **A reset recovers.** A round that finds `bulk_reset` set after `USB_USBTask` returns when the
host only collects from then on, and leaves a firmware that can be sent a command, with no chip
selected. -/
theorem reset_recovers {w p : World} (reachable : Reachable w) {i : Input}
    (polled : usbUsbTask (w.offer i) = .value () p) (due : p.vars.bulkReset ≠ 0#32)
    (collecting : Collecting p) (long : 5 ≤ p.script.length) :
    ∃ t, mainLoop [i] w = .value () t ∧ t.Awaiting ∧ noSelect t.board.flagLatch = true := by
  have safe := reachable.machine.bus
  have offered : (w.offer i).BusReady :=
    ⟨⟨safe.ready.resting.low, safe.ready.resting.idle⟩, safe.ready.selects, safe.ready.header⟩
  have ready := ((usbUsbTask_served _).of_value polled).ready offered
  obtain ⟨_, t, run, vacated, restored, clear⟩ :=
    ((resetBlock_returns collecting).and (resetBlock_spec ready)).returned long
  have round : mainIteration (w.offer i) = .value () t :=
    (mainIteration_of_reset polled due).trans run
  refine ⟨t, bind_of_value round, ?_, ?_⟩
  · exact ⟨restored.idle, clear, vacated.configured, vacated.enabled, restored.halted.1,
      restored.halted.2, vacated.free⟩
  · rw [restored.flags]
    decide

/-- The host gives up a write of 66 bytes. -/
def givingUpInput : Input := ⟨plainCartridge, quietMoments 6, [some resetTransfer]⟩

def givenUp : World := (usbUsbTask (writingWorld.offer givingUpInput)).state

theorem reset_recovers_write :
    ∃ t, mainLoop [givingUpInput] writingWorld = .value () t ∧ t.Awaiting ∧
      noSelect t.board.flagLatch = true := by
  have polled : usbUsbTask (writingWorld.offer givingUpInput) = .value () givenUp := by
    rw [givenUp]
    exact Exit.eq_value (by decide +kernel)
  have state : givenUp.vars.bulkReset ≠ 0#32 ∧ givenUp.usb.deviceState = .configured ∧
      givenUp.usb.enabled = true ∧ 5 ≤ givenUp.script.length ∧
      givenUp.script.all (fun m => m.acts.isEmpty) = true := by decide +kernel
  obtain ⟨due, configured, enabled, long, quiet⟩ := state
  have collects : ∀ m ∈ givenUp.script, ∀ a ∈ m.acts, a = .collectIn := by
    intro m member a inside
    have none_ := List.all_eq_true.mp quiet m member
    rw [List.isEmpty_iff.mp none_] at inside
    cases inside
  exact reset_recovers writingWorld_reachable polled due ⟨collects, configured, enabled⟩ long

end VueCartReader
