import VueCartReader.Device.Bus

/-!
# How a transfer begins

What a defined command selects: the state it puts the firmware into, the access
routine, and the word of flags and address the transfer sets out with. Taking up such
a command has one outcome (`startCommand_eq`).
-/

set_option autoImplicit false

namespace VueCartReader

open Program

/-! ## What a command selects -/

namespace VueCommand

/-- The state of the sub-task for the operation. -/
def task (c : VueCommand) : FsmState := FsmState.ofRaw (c.operation + opOffset)

/-- The access routine for the operation and the access mode. -/
def func (c : VueCommand) : AccessFunc :=
  if c.operation = 0#32 then readFunc c.accessMode else writeFunc c.accessMode

/-- The flags while the target is selected, the status flag high. -/
def target (c : VueCommand) : BitVec 32 := targetSelectMap.getD c.targetRegion.toNat 0#32

/-- The first value of `bulk_address`. -/
def start (c : VueCommand) : BitVec 32 :=
  (c.target ||| (c.address >>> 1)) &&& ~~~vueCartReaderNStatus

/-- The address of a command is clamped when it is received. -/
def Clamped (c : VueCommand) : Prop := c.address.toNat < 2 ^ 24

theorem correct_clamped (c : VueCommand) : c.correct.Clamped := by
  show (swapEndian32 c.address &&& ((vueAddressMask <<< 1) ||| 1#32)).toNat < 2 ^ 24
  rw [BitVec.toNat_and]
  exact lt_of_le_of_lt Nat.and_le_right (by decide)

section Defined

variable {c : VueCommand}

theorem defined_iff : c.defined = true ↔
    c.accessMode ≤ 2#8 ∧ c.targetRegion ≤ 2#8 ∧ c.operation ≤ 1#32 := by
  simp [defined, isAccessTypeDefined, isTargetDefined, isOperationDefined, BitVec.le_def, and_assoc]

theorem operation_eq (defined : c.defined = true) : c.operation = 0#32 ∨ c.operation = 1#32 := by
  have small : c.operation.toNat ≤ 1 := (defined_iff.mp defined).2.2
  rcases Nat.le_one_iff_eq_zero_or_eq_one.mp small with eq | eq
  · exact .inl (BitVec.eq_of_toNat_eq eq)
  · exact .inr (BitVec.eq_of_toNat_eq eq)

theorem readFunc_reads (mode : Byte) : (readFunc mode).reads = true := by
  unfold readFunc
  split_ifs <;> rfl

theorem writeFunc_reads (mode : Byte) : (writeFunc mode).reads = false := by
  unfold writeFunc
  split_ifs <;> rfl

/-- A defined command reads or writes. -/
theorem task_cases (defined : c.defined = true) :
    (c.task = .read ∧ c.func = readFunc c.accessMode) ∨
      (c.task = .write ∧ c.func = writeFunc c.accessMode) := by
  rcases operation_eq defined with eq | eq
  · exact .inl ⟨by rw [task, eq]; decide, by rw [func, if_pos eq]⟩
  · exact .inr ⟨by rw [task, eq]; decide, by rw [func, if_neg (by rw [eq]; decide)]⟩

theorem task_ne_idle (defined : c.defined = true) : c.task ≠ .idle := by
  rcases task_cases defined with ⟨task, -⟩ | ⟨task, -⟩ <;> rw [task] <;> exact nofun

theorem reads_iff (defined : c.defined = true) : c.func.reads = true ↔ c.task = .read := by
  rcases task_cases defined with ⟨task, func⟩ | ⟨task, func⟩
  · simp [task, func, readFunc_reads]
  · simp [task, func, writeFunc_reads]

/-- A word at a time in 16-bit mode, a byte at a time otherwise. -/
theorem step_eq (defined : c.defined = true) :
    c.func.step = if c.accessMode = 0#8 then 2 else 1 := by
  have small : c.accessMode.toNat ≤ 2 := (defined_iff.mp defined).1
  have mode : c.accessMode = 0#8 ∨ c.accessMode = 1#8 ∨ c.accessMode = 2#8 := by
    rcases (by omega : c.accessMode.toNat = 0 ∨ c.accessMode.toNat = 1 ∨ c.accessMode.toNat = 2)
      with eq | eq | eq
    · exact .inl (BitVec.eq_of_toNat_eq eq)
    · exact .inr (.inl (BitVec.eq_of_toNat_eq eq))
    · exact .inr (.inr (BitVec.eq_of_toNat_eq eq))
  rcases task_cases defined with ⟨-, func⟩ | ⟨-, func⟩ <;> rcases mode with eq | eq | eq <;>
    rw [func, eq] <;> rfl

theorem Clamped.mask (clamped : c.Clamped) : c.address &&& 0xFFFFFF#32 = c.address := by
  apply BitVec.eq_of_toNat_eq
  rw [BitVec.toNat_and]
  exact (Nat.and_two_pow_sub_one_eq_mod _ 24).trans (Nat.mod_eq_of_lt clamped)

theorem target_mem (defined : c.defined = true) :
    targetSelectMap[c.targetRegion.toNat]? = some c.target := by
  have small : c.targetRegion.toNat ≤ 2 := (defined_iff.mp defined).2.1
  rw [target]
  interval_cases c.targetRegion.toNat <;> rfl

end Defined

end VueCommand

/-! ## Words of flags and address -/

/-- Only flags and a word address are set. -/
def OnlyParts (x : BitVec 32) : Prop := x &&& ~~~(vueFlagMask ||| vueAddressMask) = 0#32

theorem onlyParts_iff (x : BitVec 32) : OnlyParts x ↔ x &&& 0xF4000000#32 = 0#32 := Iff.rfl

/-- A word of flags and address is known from its parts. -/
theorem OnlyParts.ext {x y : BitVec 32} (hx : OnlyParts x) (hy : OnlyParts y)
    (flags : flagBits x = flagBits y) (word : wordAddress x = wordAddress y) : x = y := by
  apply BitVec.eq_of_getLsbD_eq
  intro i bound
  have other {z : BitVec 32} (only : OnlyParts z) :=
    congrArg (fun u : BitVec 32 => u.getLsbD i) ((onlyParts_iff z).mp only)
  have low := congrArg (fun u : BitVec 23 => u.getLsbD i) word
  have high := congrArg (fun u : Byte => u.getLsbD (i - 23)) flags
  have restX := other hx
  have restY := other hy
  simp only [wordAddress, flagBits, BitVec.getLsbD_setWidth, BitVec.getLsbD_and,
    BitVec.getLsbD_ushiftRight] at low high restX restY
  interval_cases i <;> simp_all

theorem OnlyParts.vueIncAddress (x : BitVec 32) : OnlyParts (vueIncAddress x) := by
  rw [onlyParts_iff]
  apply BitVec.eq_of_getLsbD_eq
  intro i bound
  rw [VueCartReader.vueIncAddress, vueAddressMask]
  generalize x &&& 0x7FFFFF#32 = word
  simp only [BitVec.getLsbD_and, BitVec.getLsbD_or]
  interval_cases i <;> simp

theorem OnlyParts.iterate {x : BitVec 32} (only : OnlyParts x) (n : Nat) :
    OnlyParts (VueCartReader.vueIncAddress^[n] x) := by
  cases n with
  | zero => exact only
  | succ n =>
      rw [Function.iterate_succ_apply']
      exact .vueIncAddress _

namespace VueCommand

variable {c : VueCommand}

/-- The word of flags and address of the target without the status flag. -/
theorem target_onlyParts (defined : c.defined = true) :
    OnlyParts c.target ∧ wordAddress c.target = 0#23 := by
  have small : c.targetRegion.toNat ≤ 2 := (defined_iff.mp defined).2.1
  rw [target]
  interval_cases c.targetRegion.toNat <;> exact ⟨by rw [onlyParts_iff]; decide, by decide⟩

theorem Clamped.bit (clamped : c.Clamped) {i : Nat} (high : 24 ≤ i) :
    c.address.getLsbD i = false :=
  Nat.testBit_lt_two_pow (lt_of_lt_of_le clamped (Nat.pow_le_pow_right (by decide) high))

theorem start_onlyParts (defined : c.defined = true) (clamped : c.Clamped) :
    OnlyParts c.start := by
  have only := (onlyParts_iff _).mp (target_onlyParts defined).1
  rw [onlyParts_iff]
  apply BitVec.eq_of_getLsbD_eq
  intro i bound
  have target := congrArg (fun u : BitVec 32 => u.getLsbD i) only
  have address : 24 ≤ 1 + i → c.address.getLsbD (1 + i) = false := clamped.bit
  simp only [start, BitVec.getLsbD_and, BitVec.getLsbD_or, BitVec.getLsbD_ushiftRight] at target ⊢
  interval_cases i <;> simp_all

/-- The transfer sets out with the word address of the command. -/
theorem wordAddress_start (defined : c.defined = true) :
    wordAddress c.start = (c.address >>> 1).setWidth 23 := by
  apply BitVec.eq_of_getLsbD_eq
  intro i bound
  have target := congrArg (fun u : BitVec 23 => u.getLsbD i) (target_onlyParts defined).2
  simp only [wordAddress, start, BitVec.getLsbD_setWidth, BitVec.getLsbD_and, BitVec.getLsbD_or,
    BitVec.getLsbD_not, BitVec.getLsbD_ushiftRight] at target ⊢
  interval_cases i <;> simp_all

/-- It sets out with the flags of the target, the status flag low. -/
theorem flagBits_start (clamped : c.Clamped) :
    flagBits c.start = flagBits (c.target &&& ~~~vueCartReaderNStatus) := by
  apply BitVec.eq_of_getLsbD_eq
  intro i bound
  have address : c.address.getLsbD (1 + (23 + i)) = false := clamped.bit (by omega)
  simp only [flagBits, start, BitVec.getLsbD_setWidth, BitVec.getLsbD_and, BitVec.getLsbD_or,
    BitVec.getLsbD_not, BitVec.getLsbD_ushiftRight, address, Bool.or_false]

/-- **The running address in closed form**: the flags of the target without the status
flag, the word address counted up, and nothing else. -/
theorem start_iterate (defined : c.defined = true) (clamped : c.Clamped) (n : Nat) :
    vueIncAddress^[n] c.start = (c.target &&& ~~~vueCartReaderNStatus) |||
      ((c.address >>> 1).setWidth 23 + BitVec.ofNat 23 n).setWidth 32 := by
  obtain ⟨only, none_⟩ := target_onlyParts defined
  refine OnlyParts.ext ((start_onlyParts defined clamped).iterate n) ?_ ?_ ?_
  · rw [onlyParts_iff] at only ⊢
    apply BitVec.eq_of_getLsbD_eq
    intro i bound
    have target := congrArg (fun u : BitVec 32 => u.getLsbD i) only
    simp only [BitVec.getLsbD_and, BitVec.getLsbD_or, BitVec.getLsbD_setWidth] at target ⊢
    interval_cases i <;> simp_all
  · rw [flagBits_iterate, flagBits_start clamped]
    apply BitVec.eq_of_getLsbD_eq
    intro i bound
    have low : ((c.address >>> 1).setWidth 23 + BitVec.ofNat 23 n).getLsbD (23 + i) = false :=
      BitVec.getLsbD_of_ge _ _ (by omega)
    simp only [flagBits, BitVec.getLsbD_setWidth, BitVec.getLsbD_and, BitVec.getLsbD_or,
      BitVec.getLsbD_ushiftRight, low, Bool.and_false, Bool.or_false]
  · rw [wordAddress_iterate, wordAddress_start defined]
    apply BitVec.eq_of_getLsbD_eq
    intro i bound
    have target := congrArg (fun u : BitVec 23 => u.getLsbD i) none_
    simp only [wordAddress, BitVec.getLsbD_setWidth, BitVec.getLsbD_and, BitVec.getLsbD_or,
      BitVec.getLsbD_zero, bound, decide_true, Bool.true_and] at target ⊢
    simp only [target, show i < 32 by omega, decide_true, Bool.true_and, Bool.false_and,
      Bool.false_or]

end VueCommand

/-! ## Taking a command up -/

/-- The world in which a command has been taken up. -/
def World.begun (w : World) (c : VueCommand) : World :=
  let r := vueWriteAddressFull c.start ⟨w.board, []⟩
  { w with
    board := r.board
    vars :=
      { w.vars with
        curVueState := c.task, curCmdPhase := 1#32, bulkAccessFunc := some c.func
        bulkAddress := c.start }
    log := portEvents .task w.board r.seen ++ .accept c :: w.log }

theorem vueBulkReadTask_begin {w : World} (phase : w.vars.curCmdPhase = 0#32) :
    vueBulkReadTask w = beginTransfer readFunc w := by
  rw [vueBulkReadTask, state_bind, if_pos phase]

theorem vueBulkWriteTask_begin {w : World} (phase : w.vars.curCmdPhase = 0#32) :
    vueBulkWriteTask w = beginTransfer writeFunc w := by
  rw [vueBulkWriteTask, state_bind, if_pos phase]

theorem beginTransfer_eq (func : Byte → AccessFunc) {w : World}
    (defined : w.vars.curCommand.defined = true) :
    beginTransfer func w = .value ()
      (let c := w.vars.curCommand
       let r := vueWriteAddressFull c.start ⟨w.board, []⟩
       { w with
         board := r.board
         vars :=
           { w.vars with
             bulkAccessFunc := some (func c.accessMode), bulkAddress := c.start
             curCmdPhase := w.vars.curCmdPhase + 1#32 }
         log := portEvents .task w.board r.seen ++ w.log }) := by
  rw [beginTransfer, state_bind]
  simp only [VueCommand.target_mem defined, onVars, onBus, modify_bind, Program.modify]
  rfl

/-- **A defined command is taken up in one way.** -/
theorem startCommand_eq {w : World} (defined : w.vars.curCommand.defined = true) :
    startCommand w.vars.curCommand w = .value () (w.begun w.vars.curCommand) := by
  rw [startCommand, note, modify_bind, onVars, modify_bind, state_bind]
  rcases VueCommand.task_cases defined with ⟨task, func⟩ | ⟨task, func⟩
  · have chosen : FsmState.ofRaw (w.vars.curCommand.operation + opOffset) = .read := task
    simp only [chosen]
    refine (vueBulkReadTask_begin rfl).trans ((beginTransfer_eq readFunc ?_).trans ?_)
    · exact defined
    rw [World.begun, task, func]
    rfl
  · have chosen : FsmState.ofRaw (w.vars.curCommand.operation + opOffset) = .write := task
    simp only [chosen]
    refine (vueBulkWriteTask_begin rfl).trans ((beginTransfer_eq writeFunc ?_).trans ?_)
    · exact defined
    rw [World.begun, task, func]
    rfl

end VueCartReader
