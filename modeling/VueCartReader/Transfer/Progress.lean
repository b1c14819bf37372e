import VueCartReader.Program.Budget
import VueCartReader.Transfer.Emission

/-!
# A transfer comes to its end

While the host does its part in a transfer, which is to collect the packets of a read and to send
packets for a write (`Moment.Serves`), no stream call fails, and every round of the main loop moves
a chunk. So a transfer of which `n` bytes are left is over after `n / 64` rounds, rounded up, and
not before (`transfer_completes`). That the script of a round suffices is shown by counting the
moments that a round takes (`roundBudget`).
-/

set_option autoImplicit false

namespace VueCartReader

open Program

/-! ## A host that does its part -/

/-- The host collects, or sends a packet that is not empty. -/
def HostAct.bulk : HostAct → Bool
  | .sendOut packet => !packet.val.isEmpty
  | .collectIn => true
  | .interrupt _ => false

/-- What a task needs of the host. -/
def HostAct.serves : FsmState → HostAct → Bool
  | .read, .collectIn => true
  | .write, .sendOut _ => true
  | _, _ => false

structure Moment.Serves (task : FsmState) (m : Moment) : Prop where
  granted : m.refused = false
  bulk : ∀ a ∈ m.acts, a.bulk = true
  part : ∃ a ∈ m.acts, a.serves task = true

/-- So many moments, and as many looks for a SETUP packet, are enough for a chunk. -/
abbrev chunkBudget : Nat := 6 * 64 + 6

/-- So many are enough for a round. -/
abbrev roundBudget : Nat := chunkBudget + 12

/-- A round in which the host does its part in a task and asks for nothing else. -/
structure Input.Serves (task : FsmState) (i : Input) : Prop where
  moments : ∀ m ∈ i.script, m.Serves task
  setups : ∀ setup ∈ i.setups, setup.isNone = true
  long : roundBudget ≤ i.script.length
  looks : roundBudget ≤ i.setups.length

/-- What is left of a round for the firmware. -/
def World.left (w : World) : Nat := min w.script.length w.setups.length

/-- Neither a failure, nor a control request, nor a new command, nor an access that is refused. -/
structure Event.Smooth (e : Event) : Prop where
  sound : e.failed = false
  calm : e.disturbs = false
  same : e.accepted = none
  granted : e ≠ .refuse

/-- Nor a byte taken, nor a call of `VUE_Command_Task`. -/
structure Event.Aside (e : Event) : Prop extends e.Smooth where
  silent : e.taken = none
  other : ∀ old, e ≠ .command old

/-- The endpoint of a task can be used. -/
structure Usb.Able (task : FsmState) (u : Usb) : Prop where
  sends : task = .read → u.inStalled = false
  receives : task = .write → u.enabled = true ∧ u.outStalled = false

/-- The device is configured, no reset is due, and the endpoint of a task can be used. Since the log
`base` nothing has gone wrong. -/
structure Steadied (task : FsmState) (base : List Event) (w : World) : Prop where
  clear : w.vars.bulkReset = 0#32
  configured : w.usb.deviceState = .configured
  able : w.usb.Able task
  log : ∃ new, w.log = new ++ base ∧ ∀ e ∈ new, e.Smooth

/-- What is left of a round is that the host does its part. -/
structure Assisted (task : FsmState) (base : List Event) (w : World) : Prop
    extends Steadied task base w where
  moments : ∀ m ∈ w.script, m.Serves task
  setups : ∀ setup ∈ w.setups, setup.isNone = true

/-! ## What the host leaves alone -/

/-- What the host leaves alone while it only collects and sends. -/
structure Carried (s t : World) : Prop where
  board : t.board = s.board
  vars : t.vars = s.vars
  setups : t.setups = s.setups
  device : t.usb.deviceState = s.usb.deviceState
  selected : t.usb.selected = s.usb.selected
  enabled : t.usb.enabled = s.usb.enabled
  inStalled : t.usb.inStalled = s.usb.inStalled
  outStalled : t.usb.outStalled = s.usb.outStalled
  log : Logs Event.Aside s t
  out : ∀ unread, s.usb.outBank = some unread → t.usb.outBank = some unread
  unread : s.usb.outBank ≠ some [] → t.usb.outBank ≠ some []
  free : KeepsFree s t
  empty : s.usb.uncommitted = [] → t.usb.uncommitted = []

namespace Carried

theorem refl (s : World) : Carried s s :=
  ⟨rfl, rfl, rfl, rfl, rfl, rfl, rfl, rfl, .refl s, fun _ => id, id, Std.Refl.refl s, id⟩

theorem trans {s t u : World} (one : Carried s t) (two : Carried t u) : Carried s u where
  board := two.board.trans one.board
  vars := two.vars.trans one.vars
  setups := two.setups.trans one.setups
  device := two.device.trans one.device
  selected := two.selected.trans one.selected
  enabled := two.enabled.trans one.enabled
  inStalled := two.inStalled.trans one.inStalled
  outStalled := two.outStalled.trans one.outStalled
  log := one.log.trans two.log
  out unread found := two.out unread (one.out unread found)
  unread some_ := two.unread (one.unread some_)
  free := trans_of KeepsFree one.free two.free
  empty none_ := two.empty (one.empty none_)

end Carried

theorem act_carried (w : World) {a : HostAct} (bulk : a.bulk = true) : Carried w (w.act a) := by
  cases a with
  | interrupt i => cases bulk
  | sendOut packet =>
      rw [World.act]
      split
      · rename_i accepted
        simp only [Bool.and_eq_true, Option.isNone_iff_eq_none] at accepted
        have some_ : packet.val ≠ [] := by
          simpa [HostAct.bulk] using bulk
        refine ⟨rfl, rfl, rfl, rfl, rfl, rfl, rfl, rfl, .one rfl
          ⟨⟨rfl, rfl, rfl, Event.noConfusion⟩, rfl,
          fun _ => Event.noConfusion⟩, ?_, ?_, ?_, id⟩
        · intro unread found
          rw [accepted.1.2] at found
          cases found
        · intro _ none_
          exact some_ (Option.some.inj none_)
        · intro free
          exact ⟨free, rfl⟩
      · exact .refl w
  | collectIn =>
      rw [World.act]
      split
      · rename_i busy
        refine ⟨rfl, rfl, rfl, rfl, rfl, rfl, rfl, rfl, .one rfl
          ⟨⟨rfl, rfl, rfl, Event.noConfusion⟩, rfl,
          fun _ => Event.noConfusion⟩, fun _ => id, id, ?_, fun _ => rfl⟩
        intro free
        cases busy.symm.trans free
      · exact .refl w

theorem acts_carried {acts : List HostAct} (bulk : ∀ a ∈ acts, a.bulk = true) :
    ∀ w, Carried w (acts.foldl World.act w) := by
  induction acts with
  | nil => exact .refl
  | cons a rest ih =>
      intro w
      have here := act_carried w (bulk a (List.mem_cons_self ..))
      exact here.trans (ih (fun b member => bulk b (List.mem_cons_of_mem _ member)) _)

theorem acts_script (acts : List HostAct) : ∀ w, (acts.foldl World.act w).script = w.script := by
  have act (w : World) (a : HostAct) : (w.act a).script = w.script := by
    cases a with
    | interrupt i => rfl
    | sendOut packet =>
        rw [World.act]
        split <;> rfl
    | collectIn =>
        rw [World.act]
        split <;> rfl
  induction acts with
  | nil => exact fun _ => rfl
  | cons a rest ih =>
      intro w
      exact (ih (w.act a)).trans (act w a)

/-- A collected bank is free. -/
theorem collectIn_frees (w : World) : (w.act .collectIn).usb.inBusy = false := by
  rw [World.act]
  split
  · rfl
  · rename_i idle
    simpa using idle

/-- After the host has sent there is a packet in the bank. -/
theorem sendOut_fills {w : World} (enabled : w.usb.enabled = true)
    (unstalled : w.usb.outStalled = false) (packet : Packet) :
    (w.act (.sendOut packet)).usb.outBank.isSome = true := by
  rw [World.act]
  split
  · rfl
  · rename_i refused
    simpa [enabled, unstalled, Option.isSome_iff_ne_none] using refused

/-- The host has done its part in a task. -/
structure Usb.Served (task : FsmState) (u : Usb) : Prop where
  collected : task = .read → u.inBusy = false
  sent : task = .write → u.outBank.isSome = true

theorem Usb.Able.carried {task : FsmState} {s t : World} (able : s.usb.Able task)
    (carried : Carried s t) : t.usb.Able task where
  sends read := carried.inStalled.trans (able.sends read)
  receives write :=
    ⟨carried.enabled.trans (able.receives write).1,
      carried.outStalled.trans (able.receives write).2⟩

theorem Usb.Served.carried {task : FsmState} {s t : World} (served : s.usb.Served task)
    (carried : Carried s t) : t.usb.Served task where
  collected read := (carried.free (served.collected read)).1
  sent write := by
    obtain ⟨unread, found⟩ := Option.isSome_iff_exists.mp (served.sent write)
    rw [carried.out unread found]
    rfl

/-- Among the doings of the host is the one that the task needs. -/
theorem acts_served {task : FsmState} {acts : List HostAct} (bulk : ∀ a ∈ acts, a.bulk = true)
    (part : ∃ a ∈ acts, a.serves task = true) {w : World} (able : w.usb.Able task) :
    (acts.foldl World.act w).usb.Served task := by
  obtain ⟨a, member, serves⟩ := part
  obtain ⟨first, rest, rfl⟩ := List.append_of_mem member
  have before := acts_carried (fun b early => bulk b (List.mem_append_left _ early)) w
  have after : ∀ b ∈ rest, b.bulk = true := fun b late =>
    bulk b (List.mem_append_right _ (List.mem_cons_of_mem _ late))
  rw [List.foldl_append, List.foldl_cons]
  have able := able.carried before
  refine Usb.Served.carried ⟨?_, ?_⟩ (acts_carried after _)
  · rintro rfl
    cases a with
    | collectIn => exact collectIn_frees _
    | sendOut packet => cases serves
    | interrupt i => cases serves
  · rintro rfl
    cases a with
    | sendOut packet => exact sendOut_fills (able.receives rfl).1 (able.receives rfl).2 packet
    | collectIn => cases serves
    | interrupt i => cases serves

/-! ## A moment -/

section Assisted

variable {task : FsmState} {base : List Event} {s t : World} {α : Type}

/-- What a step leaves alone that neither looks at the hardware nor fails. -/
theorem Assisted.step (held : Assisted task base s) (script : t.script = s.script)
    (setups : t.setups = s.setups) (reset : t.vars.bulkReset = s.vars.bulkReset)
    (device : t.usb.deviceState = s.usb.deviceState) (able : t.usb.Able task)
    (log : Logs Event.Smooth s t) : Assisted task base t where
  moments := by
    rw [script]
    exact held.moments
  setups := by
    rw [setups]
    exact held.setups
  clear := reset.trans held.clear
  configured := device.trans held.configured
  able := able
  log := by
    obtain ⟨new, eq, all⟩ := held.log
    obtain ⟨more, eq', all'⟩ := log
    refine ⟨more ++ new, by rw [eq', eq, List.append_assoc], ?_⟩
    intro e member
    rcases List.mem_append.mp member with late | early
    · exact all' e late
    · exact all e early

/-- From here on nothing has gone wrong. -/
theorem Assisted.restart (held : Assisted task base s) : Assisted task s.log s :=
  ⟨⟨held.clear, held.configured, held.able, [], rfl, List.forall_mem_nil _⟩,
    held.moments, held.setups⟩

/-- A step that changes neither the hardware nor what the host is to do. -/
theorem Assisted.noted (held : Assisted task base s) {e : Event} (smooth : e.Smooth) :
    Assisted task base { s with log := e :: s.log } :=
  held.step rfl rfl rfl rfl held.able (.one rfl smooth)

theorem moment_assisted (held : Assisted task base s) :
    Returns World.left 1 moment (fun m t => m.refused = false ∧ Assisted task base t ∧
      Carried s t ∧ t.usb.Served task) s := by
  intro some_
  unfold wp moment
  cases script : s.script with
  | nil =>
      rw [World.left, script] at some_
      simp at some_
  | cons m rest =>
      have serves := held.moments m (by rw [script]; exact List.mem_cons_self ..)
      have passed := acts_carried serves.bulk { s with script := rest }
      have carried : Carried s (m.acts.foldl World.act { s with script := rest }) := { passed with }
      have left := acts_script m.acts { s with script := rest }
      have served := acts_served serves.bulk serves.part (w := { s with script := rest }) held.able
      refine ⟨⟨serves.granted, ?_, carried, served⟩, ?_⟩
      · have begun : Assisted task base { s with script := rest } :=
          ⟨⟨held.clear, held.configured, held.able, held.log⟩, fun n member =>
            held.moments n (by rw [script]; exact List.mem_cons_of_mem _ member), held.setups⟩
        exact begun.step left passed.setups (congrArg Vars.bulkReset passed.vars) passed.device
          (held.able.carried carried) (passed.log.mono fun _ aside => aside.toSmooth)
      · rw [World.left, World.left, World.pass, left, passed.setups, script]
        simp only [List.length_cons]
        omega

/-! ## Looks at the hardware -/

/-- What a look leaves: the host has done its part, and nothing else has happened. -/
structure Seen (task : FsmState) (base : List Event) (s t : World) : Prop where
  held : Assisted task base t
  carried : Carried s t
  served : t.usb.Served task

/-- A bank that allows access does so until it is used. -/
theorem Carried.allowed (carried : Carried s t) (allowed : s.usb.readWriteAllowed = true) :
    t.usb.readWriteAllowed = true := by
  rw [Usb.readWriteAllowed] at allowed ⊢
  rw [carried.selected]
  split at allowed
  · rename_i selected
    simp only [Bool.and_eq_true, Bool.not_eq_true', bne_iff_ne] at allowed
    rw [if_pos selected, carried.outStalled, allowed.1]
    cases found : s.usb.outBank with
    | none =>
        rw [found] at allowed
        exact absurd rfl allowed.2
    | some unread =>
        rw [found] at allowed
        rw [carried.out unread found]
        simpa using allowed.2
  · rename_i other
    rw [if_neg other]
    split at allowed
    · rename_i selected
      simp only [Bool.and_eq_true, Bool.not_eq_true', decide_eq_true_eq] at allowed
      obtain ⟨free, same⟩ := carried.free allowed.1.2
      rw [if_pos selected, carried.inStalled, allowed.1.1, free, same]
      simpa using allowed.2
    · cases allowed

theorem endpointIsReadWriteAllowed_assisted (held : Assisted task base s) :
    Returns World.left 1 endpointIsReadWriteAllowed
      (fun allowed t => Seen task base s t ∧ allowed = t.usb.readWriteAllowed) s := by
  refine (moment_assisted held).bind (k := 0) fun m t seen => ?_
  obtain ⟨granted, held, carried, served⟩ := seen
  rw [granted]
  exact .of_value rfl ⟨⟨held, carried, served⟩, rfl⟩ (Nat.le_refl _)

/-- A flag of the endpoint is read at the moment of the look. -/
theorem look_assisted (held : Assisted task base s) (flag : Usb → Bool) :
    Returns World.left 1 (do
        let _ ← moment
        return flag (← state).usb)
      (fun shown t => Seen task base s t ∧ shown = flag t.usb) s := by
  refine (moment_assisted held).bind (k := 0) fun m t seen => ?_
  obtain ⟨-, held, carried, served⟩ := seen
  exact .of_value rfl ⟨⟨held, carried, served⟩, rfl⟩ (Nat.le_refl _)

theorem endpointIsOutReceived_assisted (held : Assisted task base s) :
    Returns World.left 1 endpointIsOutReceived
      (fun found t => Seen task base s t ∧ found = t.usb.outReceived) s :=
  look_assisted held Usb.outReceived

theorem endpointIsInReady_assisted (held : Assisted task base s) :
    Returns World.left 1 endpointIsInReady
      (fun ready t => Seen task base s t ∧ ready = t.usb.inReady) s :=
  look_assisted held Usb.inReady

/-- The endpoint that a task uses. -/
def FsmState.endpoint : FsmState → Nat
  | .read => vueCartReaderInEpAddr
  | .idle | .write | .other _ => vueCartReaderOutEpAddr

/-- What the host has done its part for is ready. -/
theorem Usb.Served.ready (known : task = .read ∨ task = .write) {u : Usb} (served : u.Served task)
    (selected : u.selected = task.endpoint) : (u.outReceived || u.inReady) = true := by
  rw [Usb.outReceived, Usb.inReady, selected]
  rcases known with rfl | rfl
  · rw [served.collected rfl]
    rfl
  · rw [served.sent rfl]
    rfl

/-- There is nothing to wait for at the endpoint of the task. -/
theorem endpointWaitUntilReady_assisted (known : task = .read ∨ task = .write)
    (held : Assisted task base s) (selected : s.usb.selected = task.endpoint) :
    Returns World.left 1 endpointWaitUntilReady
      (fun result t => result = .noError ∧ Seen task base s t) s := by
  refine (moment_assisted held).bind (k := 0) fun m t seen => ?_
  obtain ⟨-, held, carried, served⟩ := seen
  have ready := served.ready known (carried.selected.trans selected)
  refine .state_bind ?_
  dsimp only
  rw [if_pos ready]
  exact .pure ⟨rfl, held, carried, served⟩

/-- Whatever is waited for, the wait is over after two moments. -/
theorem endpointWaitUntilReady_returns (held : Assisted task base s) :
    Returns World.left 2 endpointWaitUntilReady
      (fun _ t => Assisted task base t ∧ Carried s t) s := by
  refine (moment_assisted held).bind (k := 1) fun m t seen => ?_
  obtain ⟨-, held, carried, -⟩ := seen
  refine .state_bind
    (.ite (fun _ => (Returns.pure ⟨held, carried⟩).of_le (Nat.zero_le 1)) fun _ => ?_)
  refine (moment_assisted held).bind (k := 0) fun m u seen => ?_
  obtain ⟨-, held, further, -⟩ := seen
  exact .state_bind (.pure ⟨held, carried.trans further⟩)

/-! ## The banks -/

/-- The next look at the endpoint of a task finds room for a byte, or a byte. -/
structure Usb.Open (task : FsmState) (u : Usb) : Prop where
  empty : task = .read → u.uncommitted = []
  unread : task = .write → u.outBank ≠ some []

theorem Usb.Open.carried {task : FsmState} {s t : World} (opens : s.usb.Open task)
    (carried : Carried s t) : t.usb.Open task where
  empty read := carried.empty (opens.empty read)
  unread write := carried.unread (opens.unread write)

theorem Usb.Open.allowed (known : task = .read ∨ task = .write) {u : Usb} (opens : u.Open task)
    (able : u.Able task) (served : u.Served task) (selected : u.selected = task.endpoint) :
    u.readWriteAllowed = true := by
  rw [Usb.readWriteAllowed, selected]
  rcases known with rfl | rfl
  · have free := served.collected rfl
    have empty := opens.empty rfl
    rw [uncommitted_of_free free] at empty
    rw [if_neg (by decide), FsmState.endpoint, if_pos rfl, able.sends rfl, free, empty]
    rfl
  · obtain ⟨unread, found⟩ := Option.isSome_iff_exists.mp (served.sent rfl)
    have some_ := opens.unread rfl
    rw [FsmState.endpoint, if_pos rfl, (able.receives rfl).2, found]
    rw [found] at some_
    cases unread with
    | nil => exact absurd rfl some_
    | cons x rest => rfl

/-- The IN bank is committed at most once. -/
theorem endpointClearIn_assisted (held : Assisted task base s) :
    Returns World.left 1 endpointClearIn (fun _ t => Assisted task base t ∧
      t.usb.selected = s.usb.selected ∧
      (s.usb.selected = vueCartReaderInEpAddr → t.usb.uncommitted = [])) s := by
  refine (moment_assisted held).bind (k := 0) fun m t seen => ?_
  obtain ⟨-, held, carried, -⟩ := seen
  refine .modify ?_ ?_
  · -- a bank that the host has not collected stays as it is
    by_cases free : (decide (t.usb.selected = vueCartReaderInEpAddr) && !t.usb.inBusy) = true
    · rw [if_pos free]
      exact ⟨held.step rfl rfl rfl rfl ⟨held.able.sends, held.able.receives⟩
        (.one rfl ⟨rfl, rfl, rfl, Event.noConfusion⟩), carried.selected, fun _ => rfl⟩
    · rw [if_neg free]
      refine ⟨held, carried.selected, fun selected => ?_⟩
      have busy : t.usb.inBusy = true := by
        simpa [carried.selected.trans selected] using free
      rw [Usb.uncommitted, if_pos busy]
  · rw [World.left, World.left]
    split <;> rfl

theorem taskClearIn_assisted (held : Assisted task base s) :
    Returns World.left 1 taskClearIn (fun _ t => Assisted task base t ∧
      t.usb.selected = s.usb.selected ∧
      (s.usb.selected = vueCartReaderInEpAddr → t.usb.uncommitted = [])) s :=
  have noted := held.noted (e := .operate .clearIn s.usb.selected)
    ⟨rfl, rfl, rfl, Event.noConfusion⟩
  .state_bind (.modify_bind rfl (endpointClearIn_assisted noted))

/-- A packet that is dropped or has been read leaves the OUT bank. -/
theorem freeOut_assisted (held : Assisted task base s) (by_ : Actor) :
    Returns World.left 0 (freeOut by_) (fun _ t => Assisted task base t ∧
      t.usb.selected = s.usb.selected ∧ t.usb.outBank = none) s := by
  refine .modify ?_ ?_
  · cases bank : s.usb.outBank with
    | none => exact ⟨held, rfl, bank⟩
    | some unread =>
        exact ⟨held.step rfl rfl rfl rfl ⟨held.able.sends, held.able.receives⟩
          (.one rfl ⟨rfl, rfl, rfl, Event.noConfusion⟩), rfl, rfl⟩
  · rw [World.left, World.left]
    split <;> rfl

theorem endpointClearOut_assisted (held : Assisted task base s) :
    Returns World.left 1 (endpointClearOut .task) (fun _ t => Assisted task base t ∧
      t.usb.selected = s.usb.selected ∧
      (s.usb.selected = vueCartReaderOutEpAddr → t.usb.outBank = none)) s := by
  refine (moment_assisted held).bind (k := 0) fun m t seen => ?_
  obtain ⟨-, held, carried, -⟩ := seen
  refine .state_bind (.whenever (fun _ => ?_) fun other => ⟨held, carried.selected, fun selected =>
    absurd (carried.selected.trans selected) other⟩)
  refine (freeOut_assisted held .task).mono fun _ u freed => ?_
  exact ⟨freed.1, freed.2.1.trans carried.selected, fun _ => freed.2.2⟩

/-! ## The task of the library -/

theorem Assisted.select (held : Assisted task base s) (address : Nat) :
    Assisted task base { s with usb := { s.usb with selected := address } } :=
  held.step rfl rfl rfl rfl ⟨held.able.sends, held.able.receives⟩ (.none rfl)

/-- The library looks for a request, and there is none. -/
theorem nextSetup_assisted (held : Assisted task base s) :
    Returns World.left 1 nextSetup (fun setup t => setup = none ∧ Assisted task base t ∧
      t.usb = s.usb ∧ t.vars = s.vars ∧ t.log = s.log) s := by
  intro some_
  unfold wp nextSetup
  cases setups : s.setups with
  | nil =>
      rw [World.left, setups] at some_
      simp at some_
  | cons setup rest =>
      have none_ := held.setups setup (by rw [setups]; exact List.mem_cons_self ..)
      have left : s.left ≤ World.left { s with setups := rest } + 1 := by
        rw [World.left, World.left, setups]
        simp only [List.length_cons]
        omega
      have later : ∀ other ∈ rest, other.isNone = true := by
        intro other member
        exact held.setups other (by rw [setups]; exact List.mem_cons_of_mem _ member)
      have assisted : Assisted task base { s with setups := rest } :=
        ⟨⟨held.clear, held.configured, held.able, held.log⟩, held.moments, later⟩
      exact ⟨⟨Option.isNone_iff_eq_none.mp none_, assisted, rfl, rfl, rfl⟩, left⟩

/-- The library has looked for a request: all that has happened is what the host did at a moment. -/
structure Polled (s u t : World) : Prop where
  moment : (moment s).state = u
  carried : Carried s u
  usb : t.usb = { u.usb with selected := s.usb.selected }
  vars : t.vars = u.vars
  log : t.log = u.log

theorem Polled.opens {u : World} (polled : Polled s u t) (opens : s.usb.Open task) :
    t.usb.Open task := by
  have kept := opens.carried polled.carried
  rw [polled.usb]
  exact ⟨kept.empty, kept.unread⟩

/-- The library has nothing to do, and selects the endpoint again that was selected. -/
theorem usbUsbTask_assisted (held : Assisted task base s) :
    Returns World.left 2 usbUsbTask (fun _ t => Assisted task base t ∧ ∃ u, Polled s u t) s := by
  have first : wp moment (fun _ t => (moment s).state = t) (fun _ => True) s := by
    refine (wp_trivial moment).returned.mono (fun m t run => ?_) fun _ => id
    rw [run.1]
    rfl
  refine ((moment_assisted held).and first).bind (k := 1) fun m t seen => ?_
  obtain ⟨⟨-, held, carried, -⟩, looked⟩ := seen
  refine .state_bind (.ite (fun detached => ?_) fun _ => ?_)
  · rw [held.configured] at detached
    cases detached
  · refine .modify_bind rfl ((nextSetup_assisted (held.select endpointControlEp)).bind (k := 0)
      fun setup u none_ => ?_)
    obtain ⟨rfl, held, usb, vars, log⟩ := none_
    refine Returns.bind (n := 0) (k := 0) (Q := fun _ v => v = u) (.pure rfl) fun _ v same => ?_
    subst same
    refine .modify ⟨held.select _, t, looked, carried, ?_, vars, log⟩ rfl
    dsimp only
    rw [usb, ← carried.selected]

/-! ## Stream calls -/

/-- The host does its part in a task, and the endpoint of the task is selected. -/
structure Operating (task : FsmState) (base : List Event) (w : World) : Prop where
  held : Assisted task base w
  selected : w.usb.selected = task.endpoint

/-- What a stream function does to a bank: it moves bytes, and clears a bank so that the next look
finds room for a byte, or a byte. -/
structure Streams (task : FsmState) (base : List Event) (d : Direction) : Prop where
  known : task = .read ∨ task = .write
  transfer : ∀ i s, Operating task base s →
    Returns World.left 0 (d.transferByte i) (fun _ t => Operating task base t) s
  clear : ∀ s, Operating task base s →
    Returns World.left 1 d.clearEndpoint (fun _ t => Operating task base t ∧ t.usb.Open task) s

/-- How a stream call ends that has come so far: with all bytes moved, or with a part of them, and
then the next call moves some. It has moved some itself if there was room. -/
structure Ends (task : FsmState) (base : List Event) (from_ to_ : Nat) (some_ : Prop) (s : World)
    (x : StreamResult × Nat) (t : World) : Prop where
  operating : Operating task base t
  ends : (x.1 = .noError ∧ s.left ≤ t.left + (to_ - from_)) ∨
    (x.1 = .incompleteTransfer ∧ t.usb.Open task ∧ from_ ≤ x.2 ∧ x.2 < to_ ∧
      (some_ → from_ < x.2) ∧ s.left ≤ t.left + (x.2 - from_) + 4)

section Streams

variable {d : Direction} {length : Nat} (keeps : Streams task base d)
include keeps

theorem transferBytes_ends (processed n : Nat) : ∀ b s, Operating task base s → n + 4 ≤ s.left →
    wp (transferBytes d processed n b)
      (Ends task base (processed + b) (processed + b + n) (s.usb.readWriteAllowed = true) s)
      (fun _ => False) s := by
  induction n with
  | zero =>
      intro b s operating _
      exact ⟨operating, .inl ⟨rfl, Nat.le_add_right _ _⟩⟩
  | succ n ih =>
      intro b s operating enough
      rw [transferBytes]
      refine wp.bind (endpointIsReadWriteAllowed_assisted operating.held (by omega))
        fun allowed t looked => ?_
      obtain ⟨⟨⟨held, carried, -⟩, same⟩, used⟩ := looked
      have operating : Operating task base t := ⟨held, carried.selected.trans operating.selected⟩
      rw [wp_ite]
      refine ⟨fun _ => ?_, fun refused => ?_⟩
      · refine wp.bind (keeps.transfer _ t operating (Nat.zero_le _)) fun _ u moved => ?_
        obtain ⟨operating, kept⟩ := moved
        refine (ih (b + 1) u operating (by omega)).mono (fun x v ends => ?_) fun _ => id
        refine ⟨ends.operating, ?_⟩
        rcases ends.ends with ⟨all, rest⟩ | ⟨part, opens, begun, more, -, rest⟩
        · exact .inl ⟨all, by omega⟩
        · exact .inr ⟨part, opens, by omega, by omega, fun _ => by omega, by omega⟩
      · -- the bank is cleared, and by the time of the next call it is open again
        refine wp.bind (keeps.clear t operating (by omega)) fun _ u cleared => ?_
        obtain ⟨⟨⟨held, selected⟩, opens⟩, kept⟩ := cleared
        refine wp.bind (usbUsbTask_assisted held (by omega)) fun _ v served => ?_
        obtain ⟨⟨held, _, polled⟩, used'⟩ := served
        have same' : v.usb.selected = u.usb.selected := by rw [polled.usb]
        refine ⟨⟨held, same'.trans selected⟩,
          .inr ⟨rfl, polled.opens opens, Nat.le_refl _, ?_, ?_, ?_⟩⟩
        · show processed + b < processed + b + (n + 1)
          omega
        · intro open_
          rw [same] at refused
          exact absurd (carried.allowed open_) refused
        · show s.left ≤ v.left + (processed + b - (processed + b)) + 4
          omega

/-- No stream call fails. -/
theorem endpointStream_ends {processed : Nat} {s : World} (operating : Operating task base s)
    (more : processed < length) (enough : length - processed + 5 ≤ s.left) :
    wp (endpointStream d length processed) (fun x t => ∃ u, s.left ≤ u.left + 1 ∧
      Ends task base processed length (s.usb.Open task) u x t) (fun _ => False) s := by
  obtain ⟨held, selected⟩ := operating
  rw [endpointStream, wp_bind, wp_state, wp_bind, note, wp_modify]
  have noted :=
    held.noted (e := .operate d.operation s.usb.selected) ⟨rfl, rfl, rfl, Event.noConfusion⟩
  refine wp.bind (endpointWaitUntilReady_assisted keeps.known noted selected ?_)
    fun result t waited => ?_
  · show 1 ≤ s.left
    omega
  · obtain ⟨⟨rfl, held, carried, served⟩, used⟩ := waited
    have used : s.left ≤ t.left + 1 := used
    have at_ := carried.selected.trans selected
    refine (transferBytes_ends keeps processed (length - processed) 0 t ⟨held, at_⟩ (by omega)).mono
      (fun x u ends => ?_) fun _ => id
    have whole : processed + 0 + (length - processed) = length := by omega
    obtain ⟨operating, ends⟩ := ends
    rw [whole] at ends
    refine ⟨t, used, operating, ends.imp id ?_⟩
    rintro ⟨part, opens, begun, more, first, used⟩
    refine ⟨part, opens, begun, more, fun open_ => first ?_, used⟩
    have kept : t.usb.Open task := by
      apply Usb.Open.carried ?_ carried
      exact open_
    exact kept.allowed keeps.known held.able served at_

/-- A retry loop goes on from a call that ends with a part. -/
theorem retryStream_next {calls processed : Nat} {s : World} (operating : Operating task base s)
    (more : processed < length) (enough : length - processed + 5 ≤ s.left)
    {Q : Bool → World → Prop}
    (all : ∀ t, Operating task base t → s.left ≤ t.left + (length - processed) + 1 → Q true t)
    (part : ∀ progress t, Operating task base t → t.usb.Open task → processed ≤ progress →
      progress < length → (s.usb.Open task → processed < progress) →
      s.left ≤ t.left + (progress - processed) + 5 →
      wp (retryStream d length calls progress) Q (fun _ => False) t) :
    wp (retryStream d length (calls + 1) processed) Q (fun _ => False) s := by
  rw [retryStream]
  refine wp.bind (endpointStream_ends keeps operating more enough) fun x t ends => ?_
  obtain ⟨u, used, ⟨held, selected⟩, ends⟩ := ends
  simp only [note, wp_bind, wp_modify, wp_ite, wp_state, wp_pure]
  rcases ends with ⟨done, rest⟩ | ⟨partly, opens, begun, inside, first, rest⟩
  · refine ⟨fun partly => ?_, fun _ => ?_⟩
    · rw [done] at partly
      cases partly
    · rw [done]
      refine all _ ⟨held.noted ⟨rfl, rfl, rfl, Event.noConfusion⟩, selected⟩ ?_
      show s.left ≤ t.left + (length - processed) + 1
      omega
  · refine ⟨fun _ => ⟨fun set => absurd held.clear set, fun _ => ?_⟩,
      fun other => absurd partly other⟩
    rw [partly]
    refine part x.2 _ ⟨held.noted ⟨rfl, rfl, rfl, Event.noConfusion⟩, selected⟩
      ⟨opens.empty, opens.unread⟩ begun inside first ?_
    show s.left ≤ t.left + (x.2 - processed) + 5
    omega

theorem retryStream_returns (calls : Nat) : ∀ processed s, Operating task base s →
    s.usb.Open task → processed < length → length - processed ≤ calls →
    Returns World.left (6 * (length - processed)) (retryStream d length calls processed)
      (fun ok t => ok = true ∧ Operating task base t) s := by
  induction calls with
  | zero =>
      intro processed s _ _ more few
      omega
  | succ calls ih =>
      intro processed s operating opens more few enough
      refine retryStream_next keeps operating more (by omega) (fun t operating used =>
        ⟨⟨rfl, operating⟩, by omega⟩) fun progress t operating opens' begun inside first used => ?_
      have moved := first opens
      refine (ih progress t operating opens' inside (by omega) (by omega)).mono (fun ok u ends =>
        ⟨ends.1, ?_⟩) fun _ => id
      have rest := ends.2
      omega

/-- **A stream call of a task moves all bytes**, in a bounded time. -/
theorem stream_returns {s : World} (operating : Operating task base s) (some_ : 0 < length) :
    Returns World.left (6 * length + 5) (stream d length)
      (fun ok t => ok = true ∧ Operating task base t) s := by
  intro enough
  have calls : length ≤ s.script.length := by
    have fewer : s.left ≤ s.script.length := Nat.min_le_left _ _
    omega
  rw [stream, wp_bind, wp_state]
  refine retryStream_next keeps operating some_ (by omega) (fun t operating used =>
    ⟨⟨rfl, operating⟩, by omega⟩) fun progress t operating opens begun inside _ used => ?_
  refine (retryStream_returns keeps _ progress t operating opens inside (by omega) (by omega)).mono
    (fun ok u ends => ⟨ends.1, ?_⟩) fun _ => id
  have rest := ends.2
  omega

end Streams

/-! ## The two stream functions -/

theorem writeStream_streams (load : Nat → Vars → Byte) : Streams .read base (writeStream load) where
  known := .inl rfl
  transfer i s operating := by
    obtain ⟨held, selected⟩ := operating
    refine .state_bind (.modify_bind rfl (.modify ⟨?_, selected⟩ rfl))
    exact held.step rfl rfl rfl rfl ⟨held.able.sends, held.able.receives⟩
      (.one rfl ⟨rfl, rfl, rfl, Event.noConfusion⟩)
  clear s operating := by
    obtain ⟨held, selected⟩ := operating
    refine (endpointClearIn_assisted held).mono fun _ t cleared => ?_
    obtain ⟨held, same, empty⟩ := cleared
    refine ⟨⟨held, same.trans selected⟩, fun _ => empty selected, ?_⟩
    rintro ⟨⟩

theorem endpointRead8_operating (operating : Operating task base s) :
    Returns World.left 0 endpointRead8 (fun _ t => Operating task base t) s := by
  obtain ⟨held, selected⟩ := operating
  refine .state_bind ?_
  cases s.usb.outBank with
  | none => exact .pure ⟨held, selected⟩
  | some unread =>
      cases unread with
      | nil => exact .pure ⟨held, selected⟩
      | cons x rest =>
          refine .modify_bind rfl (.modify_bind rfl (.pure ⟨?_, selected⟩))
          exact held.step rfl rfl rfl rfl ⟨held.able.sends, held.able.receives⟩
            (.one rfl ⟨rfl, rfl, rfl, Event.noConfusion⟩)

theorem readStream_streams (store : Nat → Byte → Vars → Vars)
    (reset : ∀ i x v, (store i x v).bulkReset = v.bulkReset) :
    Streams .write base (readStream store) where
  known := .inr rfl
  transfer i s operating := by
    refine (endpointRead8_operating operating).bind (k := 0) fun x t operating => ?_
    refine .modify ⟨?_, operating.selected⟩ rfl
    exact operating.held.step rfl rfl (reset i x _) rfl operating.held.able (.none rfl)
  clear s operating := by
    obtain ⟨held, selected⟩ := operating
    refine (endpointClearOut_assisted held).mono fun _ t cleared => ?_
    obtain ⟨held, same, empty⟩ := cleared
    refine ⟨⟨held, same.trans selected⟩, ?_, fun _ none_ => ?_⟩
    · rintro ⟨⟩
    · rw [empty selected] at none_
      cases none_

/-! ## A chunk -/

/-- The bytes of the transfer that are left. -/
def World.remaining (w : World) : Nat := w.vars.curCommand.length.toNat

/-- So many bytes of the transfer are left; when there are none, the firmware is idle. -/
def Remains (task : FsmState) (n : Nat) (w : World) : Prop :=
  if n = 0 then w.vars.curVueState = .idle else w.vars.curVueState = task ∧ w.remaining = n

theorem Remains.congr {n : Nat} (remains : Remains task n s) (vars : t.vars = s.vars) :
    Remains task n t := by
  rw [Remains, World.remaining, vars]
  exact remains

theorem portEvents_smooth (by_ : Actor) (start : Board) (trace : List Board) :
    ∀ e ∈ portEvents by_ start trace, e.Smooth := by
  intro e member
  obtain ⟨_, _, rfl⟩ := portEvents_kind by_ start trace e member
  exact ⟨rfl, rfl, rfl, Event.noConfusion⟩

theorem deselect_operating (operating : Operating task base s) :
    Returns World.left 0 deselect (fun _ t => Operating task base t) s := by
  refine .of_value (deselect_eq s) ⟨?_, operating.selected⟩ (Nat.le_refl _)
  have finished := operating.held.noted (e := .finish) ⟨rfl, rfl, rfl, Event.noConfusion⟩
  exact finished.step rfl rfl rfl rfl finished.able ⟨_, rfl, portEvents_smooth _ _ _⟩

theorem enterIdle_operating (operating : Operating task base s) :
    Returns World.left 0 enterIdle
      (fun _ t => Operating task base t ∧ t.vars.curVueState = .idle) s :=
  .modify
    ⟨⟨operating.held.step rfl rfl rfl rfl operating.held.able (.none rfl), operating.selected⟩,
    rfl⟩ rfl

theorem finishWrite_returns (operating : Operating .write base s) :
    Returns World.left 1 finishWrite
      (fun _ t => Operating .write base t ∧ t.vars.curVueState = .idle) s :=
  (deselect_operating operating).bind fun _ _ operating =>
    (enterIdle_operating operating).of_le (Nat.zero_le 1)

theorem finishRead_returns (operating : Operating .read base s) :
    Returns World.left 1 finishRead
      (fun _ t => Operating .read base t ∧ t.vars.curVueState = .idle) s := by
  refine (deselect_operating operating).bind (k := 1) fun _ t operating => ?_
  refine (taskClearIn_assisted operating.held).bind (k := 0) fun _ u cleared => ?_
  exact enterIdle_operating ⟨cleared.1, cleared.2.1.trans operating.selected⟩

/-- A chunk is counted, and after the last one the transfer is over. -/
theorem endChunk_returns {finish : Fw Unit} (operating : Operating task base s)
    (state : s.vars.curVueState = task)
    (finished : ∀ t, Operating task base t → Returns World.left 1 finish
      (fun _ u => Operating task base u ∧ u.vars.curVueState = .idle) t) :
    Returns World.left 1 (do
      shortenCommand (chunkLength s.vars)
      whenever ((← Program.state).vars.curCommand.length = 0#32) finish)
      (fun _ t => Operating task base t ∧ Remains task (s.remaining - 64) t) s := by
  have counted : Operating task base (s.shortened (chunkLength s.vars)) :=
    ⟨operating.held.step rfl rfl rfl rfl operating.held.able (.none rfl), operating.selected⟩
  have rest : (s.shortened (chunkLength s.vars)).remaining = s.remaining - 64 := by
    have left := shortened_length s
    rw [chunkLength_toNat] at left
    simp only [World.remaining]
    omega
  refine .modify_bind rfl (.state_bind ?_)
  refine .whenever (fun ended => ?_) fun more => ?_
  · refine (finished _ counted).mono fun _ t ends => ⟨ends.1, ?_⟩
    have none_ : s.remaining - 64 = 0 := by
      rw [← rest, World.remaining]
      exact congrArg BitVec.toNat ended
    rw [none_]
    exact ends.2
  · refine ⟨counted, ?_⟩
    have some_ : s.remaining - 64 ≠ 0 := by
      rw [← rest]
      intro zero
      exact more (BitVec.eq_of_toNat_eq zero)
    rw [Remains, if_neg some_]
    exact ⟨state, rest⟩

theorem Operating.accessed (operating : Operating task base s) (func : AccessFunc)
    (length : BitVec 32) (a : Access) : Operating task base (s.accessed func length a) := by
  have noted := operating.held.noted (e := .access func length) ⟨rfl, rfl, rfl, Event.noConfusion⟩
  exact ⟨noted.step rfl rfl rfl rfl noted.able ⟨_, rfl, portEvents_smooth _ _ _⟩,
    operating.selected⟩

theorem chunkLength_bounds {s : World} (some_ : 0 < s.remaining) :
    0 < (chunkLength s.vars).toNat ∧ (chunkLength s.vars).toNat ≤ 64 := by
  rw [chunkLength_toNat]
  rw [World.remaining] at some_
  omega

theorem Unmoved.remaining {s t : World} (unmoved : Unmoved s t) : t.remaining = s.remaining := by
  obtain ⟨_, _, _, _, vars⟩ := unmoved.vars
  rw [World.remaining, vars]
  rfl

theorem Unmoved.state {s t : World} (unmoved : Unmoved s t) :
    t.vars.curVueState = s.vars.curVueState := by
  obtain ⟨_, _, _, _, vars⟩ := unmoved.vars
  rw [vars]

/-- A read moves a chunk. -/
theorem vueBulkReadTask_returns (machine : Machine s) (operating : Operating .read base s)
    (reading : s.vars.curVueState = .read) :
    Returns World.left chunkBudget vueBulkReadTask
      (fun _ t => Operating .read base t ∧ Remains .read (s.remaining - 64) t) s := by
  obtain ⟨c, -, going⟩ := machine.tracked.progress (by rw [reading]; decide)
  obtain ⟨a, run, -, -⟩ := bulkAccess_machine machine.bus going
  obtain ⟨some_, fits⟩ := chunkLength_bounds (s := s) going.positive
  refine .state_bind ?_
  rw [if_neg (by rw [going.phase]; decide), if_pos going.phase]
  refine Returns.bind (n := 0) (k := chunkBudget)
    (.of_value (Q := fun _ t => t = s.accessed c.func (chunkLength s.vars) a) run rfl
      (Nat.le_refl _))
    fun _ u accessed => ?_
  subst accessed
  have sent := (stream_returns (writeStream_streams loadBuffer)
    (operating.accessed c.func (chunkLength s.vars) a) some_).and
    (sendChunk_unmoved (chunkLength s.vars).toNat (s.accessed c.func (chunkLength s.vars) a))
  refine Returns.of_le (sent.bind (k := 1) fun ok t ends => ?_) (by
    rw [chunkBudget]
    omega)
  obtain ⟨⟨rfl, operating⟩, unmoved⟩ := ends
  rw [if_pos rfl]
  have same : chunkLength s.vars = chunkLength t.vars := (chunkLength_unmoved unmoved).symm
  have left : s.remaining = t.remaining := unmoved.remaining.symm
  rw [same, left]
  exact endChunk_returns operating (unmoved.state.trans reading) fun _ => finishRead_returns

/-- A write moves a chunk. -/
theorem vueBulkWriteTask_returns (machine : Machine s) (operating : Operating .write base s)
    (writing : s.vars.curVueState = .write) :
    Returns World.left chunkBudget vueBulkWriteTask
      (fun _ t => Operating .write base t ∧ Remains .write (s.remaining - 64) t) s := by
  obtain ⟨c, -, going⟩ := machine.tracked.progress (by rw [writing]; decide)
  obtain ⟨some_, fits⟩ := chunkLength_bounds (s := s) going.positive
  refine .state_bind ?_
  rw [if_neg (by rw [going.phase]; decide), if_pos going.phase]
  dsimp only
  have received := (stream_returns (readStream_streams storeBuffer fun _ _ _ => rfl)
    operating some_).and
    ((receiveChunk_unmoved (chunkLength s.vars).toNat s).and
      (readStream_keepsBus storeBuffer (fun _ _ _ => rfl) (fun _ _ _ => ⟨rfl, rfl⟩)
        (chunkLength s.vars).toNat s machine.bus))
  refine Returns.of_le (received.bind (k := 1) fun ok t ends => ?_) (by
    rw [chunkBudget]
    omega)
  obtain ⟨⟨rfl, operating⟩, unmoved, bus⟩ := ends
  rw [if_pos rfl]
  obtain ⟨a, run, -, -⟩ := bulkAccess_machine bus (going.unmoved unmoved)
  have same : chunkLength s.vars = chunkLength t.vars := (chunkLength_unmoved unmoved).symm
  rw [same, ← unmoved.remaining]
  refine Returns.bind (n := 0) (k := 1)
    (.of_value (Q := fun _ u => u = t.accessed c.func (chunkLength t.vars) a) run rfl
      (Nat.le_refl _))
    fun _ u accessed => ?_
  subst accessed
  exact endChunk_returns (operating.accessed _ _ a) (unmoved.state.trans writing) fun _ =>
    finishWrite_returns

/-! ## The task of the firmware -/

/-- A packet that comes during a read halts the OUT endpoint, which a read does not need. -/
theorem refuseOut_assisted (held : Assisted .read base s)
    (selected : s.usb.selected = vueCartReaderOutEpAddr) :
    Returns World.left 2 refuseOut (fun _ t => Assisted .read base t) s := by
  have reset : Returns World.left 1 (endpointResetEndpoint .task vueCartReaderOutEpAddr)
      (fun _ t => Assisted .read base t ∧ t.usb.selected = vueCartReaderOutEpAddr) s := by
    refine (moment_assisted held).bind (k := 0) fun m t seen => ?_
    obtain ⟨-, held, carried, -⟩ := seen
    rw [if_pos rfl]
    exact (freeOut_assisted held .task).mono fun _ u freed =>
      ⟨freed.1, freed.2.1.trans (carried.selected.trans selected)⟩
  refine reset.bind (k := 1) fun _ t ends => ?_
  obtain ⟨held, selected⟩ := ends
  refine .state_bind (.modify_bind rfl ?_)
  have noted := held.noted (e := .operate .stall t.usb.selected) ⟨rfl, rfl, rfl, Event.noConfusion⟩
  refine (moment_assisted noted).bind (k := 0) fun m u seen => ?_
  obtain ⟨-, held, carried, -⟩ := seen
  have at_ : u.usb.selected = vueCartReaderOutEpAddr := carried.selected.trans selected
  have halts : u.usb.setStalled true = { u.usb with outStalled := true } := if_pos at_
  refine .state_bind (.modify_bind rfl (.modify ?_ rfl))
  have noted := held.noted (e := .stall u.usb.selected) ⟨rfl, rfl, rfl, Event.noConfusion⟩
  refine noted.step rfl rfl rfl ?_ ?_ (.none rfl)
  · show (u.usb.setStalled true).deviceState = _
    rw [halts]
  · show (u.usb.setStalled true).Able .read
    rw [halts]
    refine ⟨held.able.sends, ?_⟩
    rintro ⟨⟩

theorem serveOut_refuses (held : Assisted .read base s) (reading : s.vars.curVueState = .read) :
    Returns World.left 4 serveOut (fun _ t => Assisted .read base t ∧ t.vars = s.vars) s := by
  refine .modify_bind rfl ((endpointIsOutReceived_assisted (held.select _)).bind (k := 3)
    fun found t looked => ?_)
  obtain ⟨⟨held, carried, -⟩, -⟩ := looked
  have same : t.vars = s.vars := carried.vars
  have at_ : t.usb.selected = vueCartReaderOutEpAddr := carried.selected
  have reading : t.vars.curVueState = .read := by rw [same]; exact reading
  refine .ite (fun _ => ?_) fun _ => (Returns.pure ⟨held, same⟩).of_le (Nat.zero_le 3)
  refine .state_bind (.modify_bind rfl ?_)
  rw [reading]
  have noted := held.noted (e := .outReceived .read) ⟨rfl, rfl, rfl, Event.noConfusion⟩
  refine ((refuseOut_assisted noted at_).and (refuseOut_framed _)).bind (k := 1) fun _ u ends => ?_
  obtain ⟨held, framed⟩ := ends
  refine .state_bind (.modify_bind rfl ?_)
  refine ((endpointClearOut_assisted (held.noted ⟨rfl, rfl, rfl, Event.noConfusion⟩)).and
    (endpointClearOut_framed .task _)).mono fun _ v ends => ⟨ends.1.1, ?_⟩
  exact ends.2.vars.trans (framed.vars.trans same)

/-- The packet that the host has sent for a write is found, and a chunk is moved. -/
theorem serveOut_moves (machine : Machine s) (held : Assisted .write base s)
    (writing : s.vars.curVueState = .write) :
    Returns World.left (chunkBudget + 2) serveOut (fun _ t => Assisted .write base t ∧
      Remains .write (s.remaining - 64) t) s := by
  have chosen := machine_endpoints.select vueCartReaderOutEpAddr (by decide) s machine
  refine .modify_bind rfl (((endpointIsOutReceived_assisted (held.select _)).and
    (machine_endpoints.outReceived _ chosen)).bind (k := chunkBudget + 1) fun found t looked => ?_)
  obtain ⟨⟨⟨held, carried, served⟩, found⟩, machine⟩ := looked
  have same : t.vars = s.vars := carried.vars
  have at_ : t.usb.selected = vueCartReaderOutEpAddr := carried.selected
  have writing : t.vars.curVueState = .write := by rw [same]; exact writing
  have left : t.remaining = s.remaining := by rw [World.remaining, World.remaining, same]
  refine .ite (fun _ => ?_) fun lost => ?_
  · refine .state_bind (.modify_bind rfl ?_)
    rw [writing]
    have noted := held.noted (e := .outReceived .write) ⟨rfl, rfl, rfl, Event.noConfusion⟩
    have kept := machine_endpoints.noted (e := .outReceived .write) rfl machine
    have moved := vueBulkWriteTask_returns kept ⟨noted, at_⟩ writing
    refine moved.bind (k := 1) fun _ u ends => ?_
    obtain ⟨⟨held, -⟩, remains⟩ := ends
    refine .state_bind (.modify_bind rfl ?_)
    refine ((endpointClearOut_assisted (held.noted ⟨rfl, rfl, rfl, Event.noConfusion⟩)).and
      (endpointClearOut_framed .task _)).mono fun _ v ends => ⟨ends.1.1, ?_⟩
    rw [← left]
    exact remains.congr ends.2.vars
  · rw [found, Usb.outReceived, at_, served.sent rfl] at lost
    exact absurd rfl lost

/-- A bank that is full is sent first. -/
theorem flushIn_returns (held : Assisted task base s) :
    Returns World.left 4 flushIn (fun _ t => Assisted task base t) s := by
  refine (endpointIsReadWriteAllowed_assisted held).bind (k := 3) fun allowed t looked => ?_
  refine .ite (fun _ => (Returns.pure looked.1.held).of_le (Nat.zero_le 3)) fun _ => ?_
  refine (taskClearIn_assisted looked.1.held).bind (k := 2) fun _ u cleared => ?_
  exact (endpointWaitUntilReady_returns cleared.1).bind (k := 0) fun _ v waited => .pure waited.1

/-- The half of `VUE_Task` for the IN endpoint leaves a write alone. -/
theorem serveIn_idles (held : Assisted .write base s) (other : s.vars.curVueState ≠ .read) :
    Returns World.left 7 serveIn (fun _ t => Assisted .write base t ∧ t.vars = s.vars) s := by
  refine .modify_bind rfl ((endpointIsInReady_assisted (held.select _)).bind (k := 6)
    fun ready t looked => ?_)
  obtain ⟨⟨held, carried, -⟩, -⟩ := looked
  have same : t.vars = s.vars := carried.vars
  refine .ite (fun _ => ?_) fun _ => (Returns.pure ⟨held, same⟩).of_le (Nat.zero_le 6)
  refine .state_bind (.modify_bind rfl ?_)
  have flushed := (flushIn_returns (held.noted (e := .inReady t.vars.curVueState)
    ⟨rfl, rfl, rfl, Event.noConfusion⟩)).and (flushIn_framed _)
  refine flushed.bind (k := 2) fun ready u ends => ?_
  obtain ⟨held, framed⟩ := ends
  have same : u.vars = s.vars := framed.vars.trans same
  refine .ite (fun _ => ?_) fun _ => (Returns.pure ⟨held, same⟩).of_le (Nat.zero_le 2)
  refine .state_bind ?_
  rw [same, whenever, if_neg other]
  refine Returns.bind (n := 0) (k := 2) (Q := fun _ v => v = u) (.pure rfl) fun _ v eq => ?_
  subst eq
  refine (endpointIsReadWriteAllowed_assisted held).bind (k := 1) fun allowed x looked => ?_
  have same : x.vars = s.vars := looked.1.carried.vars.trans same
  refine .whenever (fun _ => ?_) fun _ => ⟨looked.1.held, same⟩
  exact ((taskClearIn_assisted looked.1.held).and (taskClearIn_framed x)).mono fun _ y ends =>
    ⟨ends.1.1, ends.2.vars.trans same⟩

/-- After a flush for a read the firmware goes on. -/
theorem flushIn_goesOn (operating : Operating .read base s) :
    Returns World.left 3 flushIn (fun ready t => ready = true ∧ Operating .read base t) s := by
  obtain ⟨held, selected⟩ := operating
  refine (endpointIsReadWriteAllowed_assisted held).bind (k := 2) fun allowed t looked => ?_
  obtain ⟨⟨held, carried, -⟩, -⟩ := looked
  have selected := carried.selected.trans selected
  refine .ite (fun _ => (Returns.pure ⟨rfl, held, selected⟩).of_le (Nat.zero_le 2)) fun _ => ?_
  refine (taskClearIn_assisted held).bind (k := 1) fun _ u cleared => ?_
  obtain ⟨held, same, -⟩ := cleared
  have selected := same.trans selected
  refine (endpointWaitUntilReady_assisted (.inl rfl) held selected).bind (k := 0)
    fun result v waited => ?_
  obtain ⟨rfl, held, carried, -⟩ := waited
  exact .pure ⟨rfl, held, carried.selected.trans selected⟩

/-- The bank is found free, and a chunk is read and sent. -/
theorem serveIn_moves (machine : Machine s) (held : Assisted .read base s)
    (reading : s.vars.curVueState = .read) :
    Returns World.left (chunkBudget + 6) serveIn (fun _ t => Assisted .read base t ∧
      Remains .read (s.remaining - 64) t) s := by
  have chosen := machine_endpoints.select vueCartReaderInEpAddr (by decide) s machine
  refine .modify_bind rfl (((endpointIsInReady_assisted (held.select _)).and
    (machine_endpoints.inReady _ chosen)).bind (k := chunkBudget + 5) fun ready t looked => ?_)
  obtain ⟨⟨⟨held, carried, served⟩, ready⟩, machine⟩ := looked
  have same : t.vars = s.vars := carried.vars
  have at_ : t.usb.selected = vueCartReaderInEpAddr := carried.selected
  refine .ite (fun _ => ?_) fun busy => ?_
  · refine .state_bind (.modify_bind rfl ?_)
    have noted := held.noted (e := .inReady t.vars.curVueState) ⟨rfl, rfl, rfl, Event.noConfusion⟩
    have kept := machine_endpoints.noted (e := .inReady t.vars.curVueState) rfl machine
    have flushed := (flushIn_goesOn ⟨noted, at_⟩).and ((flushIn_framed _).and
      (machine_endpoints.flushIn _ kept))
    refine Returns.of_le (flushed.bind (k := chunkBudget + 2) fun ready u ends => ?_) (by omega)
    obtain ⟨⟨rfl, operating⟩, framed, machine⟩ := ends
    have same : u.vars = s.vars := framed.vars.trans same
    have going : u.vars.curVueState = .read := by rw [same]; exact reading
    have left : s.remaining = u.remaining := by rw [World.remaining, World.remaining, same]
    rw [if_pos rfl]
    refine .state_bind ?_
    rw [whenever, if_pos going, left]
    refine (vueBulkReadTask_returns machine operating going).bind (k := 2) fun _ v ends => ?_
    obtain ⟨⟨held, -⟩, remains⟩ := ends
    refine (endpointIsReadWriteAllowed_assisted held).bind (k := 1) fun allowed x looked => ?_
    obtain ⟨⟨held, carried, -⟩, -⟩ := looked
    refine .whenever (fun _ => ?_) fun _ => ⟨held, remains.congr carried.vars⟩
    exact ((taskClearIn_assisted held).and (taskClearIn_framed x)).mono fun _ y ends =>
      ⟨ends.1.1, remains.congr (ends.2.vars.trans carried.vars)⟩
  · rw [ready, Usb.inReady, at_, served.collected rfl] at busy
    exact absurd rfl busy

/-- **A call of `VUE_Task` moves a chunk.** -/
theorem vueTask_moves (known : task = .read ∨ task = .write) (machine : Machine s)
    (held : Assisted task base s) (going : s.vars.curVueState = task) :
    Returns World.left (chunkBudget + 10) vueTask (fun _ t => Assisted task base t ∧
      Remains task (s.remaining - 64) t) s := by
  refine .state_bind ?_
  rw [if_neg (by rw [held.configured]; simp), if_neg (by rw [held.clear]; simp)]
  rcases known with rfl | rfl
  · have refused := (serveOut_refuses held going).and (serveOut_stays machine_endpoints.toLooksKeep
      machine_tasks s machine held.clear)
    refine Returns.of_le (refused.bind (k := chunkBudget + 6) fun _ t ends => ?_) (by omega)
    obtain ⟨⟨held, same⟩, machine, -⟩ := ends
    have left : s.remaining = t.remaining := by rw [World.remaining, World.remaining, same]
    rw [left]
    exact serveIn_moves machine held (by rw [same]; exact going)
  · refine Returns.of_le ((serveOut_moves machine held going).bind (k := 7) fun _ t ends => ?_)
      (by omega)
    obtain ⟨held, remains⟩ := ends
    have other : t.vars.curVueState ≠ .read := by
      rw [Remains] at remains
      split at remains
      · rw [remains]
        decide
      · rw [remains.1]
        decide
    exact (serveIn_idles held other).mono fun _ u ends => ⟨ends.1, remains.congr ends.2⟩

/-- A round moves a chunk. -/
theorem mainIteration_moves (known : task = .read ∨ task = .write) (machine : Machine s)
    (held : Assisted task base s) (going : s.vars.curVueState = task) :
    Returns World.left roundBudget mainIteration (fun _ t => Assisted task base t ∧
      Remains task (s.remaining - 64) t) s := by
  refine ((usbUsbTask_assisted held).and (usbUsbTask_keepsMachine s machine)).bind
    (k := chunkBudget + 10) fun _ t ends => ?_
  obtain ⟨⟨held, _, polled⟩, machine⟩ := ends
  have same : t.vars = s.vars := polled.vars.trans polled.carried.vars
  have left : s.remaining = t.remaining := by rw [World.remaining, World.remaining, same]
  refine .state_bind ?_
  rw [left]
  refine (vueTask_moves known machine held (by rw [same]; exact going)).bind
    (k := 0) fun _ u ends => ?_
  rw [whenever, if_neg (by simp [held.clear])]
  exact .pure ends

/-! ## Runs -/

theorem Steadied.offer (held : Steadied task base s) {i : Input} (serves : i.Serves task) :
    Assisted task base (s.offer i) :=
  ⟨⟨held.clear, held.configured, held.able, held.log⟩, serves.moments, serves.setups⟩

theorem mainIteration_keepsMachine : Stays Machine Anywhere mainIteration :=
  mainIteration_stays usbUsbTask_keepsMachine vueTask_keepsMachine fun s held _ =>
    resetBlock_keepsMachine s held

/-- Every round moves a chunk, until nothing is left. -/
theorem mainLoop_moves (known : task = .read ∨ task = .write) (inputs : List Input) : ∀ s,
    Machine s → Steadied task base s → s.vars.curVueState = task → (∀ i ∈ inputs, i.Serves task) →
    64 * inputs.length < s.remaining + 64 →
    ∃ t, mainLoop inputs s = .value () t ∧ Machine t ∧ Steadied task base t ∧
      Remains task (s.remaining - 64 * inputs.length) t := by
  induction inputs with
  | nil =>
      intro s machine held going _ _
      refine ⟨s, rfl, machine, held, ?_⟩
      have busy : s.vars.curVueState ≠ .idle := by
        rw [going]
        rcases known with rfl | rfl <;> decide
      obtain ⟨c, -, progress⟩ := machine.tracked.progress busy
      have more : s.remaining ≠ 0 := Nat.ne_of_gt progress.positive
      rw [List.length_nil, Nat.mul_zero, Nat.sub_zero, Remains, if_neg more]
      exact ⟨going, rfl⟩
  | cons i rest ih =>
      intro s machine held going serves few
      rw [List.length_cons] at few ⊢
      have here := serves i (List.mem_cons_self ..)
      have round := (mainIteration_moves known (machine.offer i) (held.offer here) going).and
        (mainIteration_keepsMachine _ (machine.offer i))
      obtain ⟨_, t, run, ⟨assisted, remains⟩, machine⟩ :=
        round.returned (le_min here.long here.looks)
      have run : mainLoop (i :: rest) s = mainLoop rest t := bind_of_value run
      rw [run]
      have left : (s.offer i).remaining = s.remaining := rfl
      rw [left] at remains
      by_cases last : rest = []
      · subst last
        refine ⟨t, rfl, machine, assisted.toSteadied, ?_⟩
        simpa using remains
      · have more : 0 < rest.length := List.length_pos_iff.mpr last
        rw [Remains, if_neg (by omega)] at remains
        obtain ⟨u, returned, machine, held, remains'⟩ := ih t machine assisted.toSteadied remains.1
          (fun j member => serves j (List.mem_cons_of_mem _ member)) (by rw [remains.2]; omega)
        refine ⟨u, returned, machine, held, ?_⟩
        rw [remains.2] at remains'
        have same : s.remaining - 64 - 64 * rest.length = s.remaining - 64 * (rest.length + 1) := by
          omega
        rwa [same] at remains'

end Assisted

/-- **A transfer comes to its end.** If in every round the host does its part, then no stream call
fails and every round moves a chunk; after the last chunk the firmware is idle and no chip is
selected. -/
theorem transfer_completes {w : World} (reachable : Reachable w) {task : FsmState}
    (known : task = .read ∨ task = .write) (going : w.vars.curVueState = task)
    (clear : w.vars.bulkReset = 0#32) (configured : w.usb.deviceState = .configured)
    (able : w.usb.Able task) (inputs : List Input) (serves : ∀ i ∈ inputs, i.Serves task)
    (few : 64 * inputs.length < w.remaining + 64) :
    ∃ t, mainLoop inputs w = .value () t ∧ Logs Event.Smooth w t ∧
      (w.remaining ≤ 64 * inputs.length →
        t.vars.curVueState = .idle ∧ noSelect t.board.flagLatch = true) ∧
      (64 * inputs.length < w.remaining →
        t.vars.curVueState = task ∧ t.remaining = w.remaining - 64 * inputs.length) := by
  have steadied : Steadied task w.log w := ⟨clear, configured, able, [], rfl, List.forall_mem_nil _⟩
  obtain ⟨t, run, machine, held, remains⟩ :=
    mainLoop_moves known inputs w reachable.machine steadied going serves few
  refine ⟨t, run, held.log, fun enough => ?_, fun more => ?_⟩
  · rw [Remains, if_pos (by omega)] at remains
    exact ⟨remains, machine.tracked.released remains⟩
  · rwa [Remains, if_neg (by omega)] at remains

/-! ## A write of 66 bytes -/

/-- A round in which the host does something in every moment. -/
def diligentInput (cartridge : Cartridge) (first : List HostAct) (act : HostAct) : Input :=
  ⟨cartridge, ⟨first ++ [act], false⟩ :: List.replicate 450 ⟨[act], false⟩, List.replicate 450 none⟩

theorem diligentInput_serves {task : FsmState} (cartridge : Cartridge) {first : List HostAct}
    (early : ∀ a ∈ first, a.bulk = true) {act : HostAct} (bulk : act.bulk = true)
    (part : act.serves task = true) : (diligentInput cartridge first act).Serves task where
  moments m member := by
    rcases List.mem_cons.mp member with rfl | later
    · refine ⟨rfl, fun a member => ?_, act,
        List.mem_append_right _ (List.mem_singleton_self act), part⟩
      rcases List.mem_append.mp member with before | last
      · exact early a before
      · rwa [List.mem_singleton.mp last]
    · rw [List.eq_of_mem_replicate later]
      refine ⟨rfl, fun a member => ?_, act, List.mem_singleton_self act, part⟩
      rwa [List.mem_singleton.mp member]
  setups setup member := by
    rw [List.eq_of_mem_replicate member]
    rfl
  long := by
    rw [diligentInput, List.length_cons, List.length_replicate]
    decide
  looks := by
    rw [diligentInput, List.length_replicate]
    decide

/-- The host sends a word at a time. -/
def wordByWord : HostAct := .sendOut ⟨[0#8, 0#8], by decide⟩

/-- A write of 66 bytes is taken up. -/
def writingInput : Input := packetInput ⟨commandBytes 0#8 0#8 1#8 0#32 66#32, by decide⟩ 60

def writingWorld : World := (mainLoop [writingInput] configuredWorld).state

theorem writingWorld_reachable : Reachable writingWorld := by
  obtain ⟨start, inputs, started, run⟩ := configuredWorld_reachable
  have taken : mainLoop [writingInput] configuredWorld =
      .value () (mainLoop [writingInput] configuredWorld).state := Exit.eq_value (by decide +kernel)
  have whole := (mainLoop_append run [writingInput]).trans taken
  exact ⟨start, inputs ++ [writingInput], started, whole⟩

/-- Two rounds are needed for the two chunks. -/
theorem transfer_completes_write : ∃ t,
    mainLoop (List.replicate 2 (diligentInput plainCartridge [] wordByWord)) writingWorld =
      .value () t ∧ t.vars.curVueState = .idle ∧ noSelect t.board.flagLatch = true := by
  have state : writingWorld.vars.curVueState = .write ∧ writingWorld.vars.bulkReset = 0#32 ∧
      writingWorld.usb.deviceState = .configured ∧ writingWorld.usb.enabled = true ∧
      writingWorld.usb.outStalled = false ∧ writingWorld.remaining = 66 := by decide +kernel
  obtain ⟨writing, clear, configured, enabled, unstalled, left⟩ := state
  have able : writingWorld.usb.Able .write := ⟨by rintro ⟨⟩, fun _ => ⟨enabled, unstalled⟩⟩
  have serves : ∀ i ∈ List.replicate 2 (diligentInput plainCartridge [] wordByWord),
      i.Serves .write := by
    intro i member
    rw [List.eq_of_mem_replicate member]
    exact diligentInput_serves _ (List.forall_mem_nil _) rfl rfl
  have few : 64 * (List.replicate 2 (diligentInput plainCartridge [] wordByWord)).length <
      writingWorld.remaining + 64 := by
    rw [left, List.length_replicate]
    decide
  have enough : writingWorld.remaining ≤
      64 * (List.replicate 2 (diligentInput plainCartridge [] wordByWord)).length := by
    rw [left, List.length_replicate]
    decide
  exact (transfer_completes writingWorld_reachable (.inr rfl) writing clear configured able _ serves
    few).imp fun t ends => ⟨ends.1, ends.2.2.1 enough⟩

end VueCartReader
