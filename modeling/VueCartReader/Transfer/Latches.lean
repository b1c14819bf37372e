import VueCartReader.Transfer.Ledger

/-!
# Control requests in the middle of a transfer

The latches at a strobe of a transfer are known from the command and from how many
strobes there have been. So they are the same in every run that gets that far, whatever
control requests are served on the way, as long as the ROM header is only read where the
next word loads both latches anyway (`strobes_undisturbed`).

Nothing in the firmware sees to that. After a reading of the header in the middle of a
page the next chunk goes to the header's page, with no chip selected
(`strobes_disturbed`).
-/

set_option autoImplicit false

namespace VueCartReader

open Program

/-- In a run, a bus cycle follows so many others of the transfer of a command. -/
structure TransferStrobe (start : World) (inputs : List Input) (c : VueCommand) (n : Nat)
    (past : List Event) (y : BusCycle) : Prop where
  started : Started start
  logged : ∃ later e, (mainLoop inputs start).state.log = later ++ e :: past ∧ e.cycle = some y
  command : acceptedCommand past = some c
  count : (cyclesOf (sinceAccept past)).length = n

/-- The requests in a piece of log neither ask for a reset nor for the bootloader. -/
def Harmless (log : List Event) : Prop :=
  ∀ header state address, .request header state address ∈ log → header.resets = false ∧
    ¬ (header.bmRequestType = vendorToDevice ∧ header.bRequest = reqEnterBootloader)

/-- No control request is served in a piece of log. -/
def Unrequested (log : List Event) : Prop :=
  ∀ header state address, .request header state address ∉ log

theorem Unrequested.undisturbed {log : List Event} (none_ : Unrequested log) :
    Undisturbed log := fun _ _ _ member => absurd member (none_ _ _ _)

section Requests

/-- What holds of the requests in a log can be looked up. -/
theorem forall_request_iff {P : UsbRequestHeader → BitVec 32 → Prop} {log : List Event} :
    (∀ header state address, .request header state address ∈ log → P header address) ↔
      ∀ r ∈ log.filterMap Event.requested, P r.1 r.2 := by
  constructor
  · intro each r member
    obtain ⟨e, old, found⟩ := List.mem_filterMap.mp member
    cases e with
    | request header state address =>
        cases found
        exact each header state address old
    | _ => exact nomatch found
  · intro each header state address member
    exact each (header, address) (List.mem_filterMap.mpr ⟨_, member, rfl⟩)

instance (log : List Event) : Decidable (Undisturbed log) :=
  decidable_of_iff' (∀ r ∈ log.filterMap Event.requested,
    r.1.readsHeader = true → lowBits r.2 = 0#15) forall_request_iff

instance (log : List Event) : Decidable (Harmless log) :=
  decidable_of_iff' (∀ r ∈ log.filterMap Event.requested, r.1.resets = false ∧
    ¬ (r.1.bmRequestType = vendorToDevice ∧ r.1.bRequest = reqEnterBootloader)) forall_request_iff

instance (log : List Event) : Decidable (Unrequested log) :=
  decidable_of_iff' (∀ r ∈ log.filterMap Event.requested, False) forall_request_iff

end Requests

/-- Where the strobe of a transfer is, if the header was not read at a bad moment. -/
theorem TransferStrobe.place {start : World} {inputs : List Input} {c : VueCommand} {n : Nat}
    {past : List Event} {y : BusCycle} (strobe : TransferStrobe start inputs c n past y)
    (undisturbed : Undisturbed (sinceAccept past)) :
    y.flags = flagBits c.start ∧ y.address = wordAddress c.start + BitVec.ofNat 23 n := by
  obtain ⟨later, e, log, cycle⟩ := strobe.logged
  have accounted := (mainLoop_keepsLedger none inputs fun _ _ _ => nofun).exit
    (fun _ held => held.books.history) strobe.started.ledger
  rw [Accounted, log] at accounted
  obtain ⟨d, accepted, next⟩ := (accounted.split rfl).cycle y cycle
  obtain rfl : c = d := Option.some.inj (strobe.command.symm.trans accepted)
  rw [← strobe.count]
  exact next.place undisturbed

/-- **Control requests do not disturb a transfer** unless they read the ROM header in the
middle of a page. At the same strobe of two runs of one command, of which the second is
not interrupted by any request, the latches hold the same. -/
theorem strobes_undisturbed {start start' : World} {inputs inputs' : List Input}
    {c : VueCommand} {n : Nat} {past past' : List Event} {y y' : BusCycle}
    (strobe : TransferStrobe start inputs c n past y)
    (strobe' : TransferStrobe start' inputs' c n past' y')
    (alone : Unrequested (sinceAccept past')) (undisturbed : Undisturbed (sinceAccept past)) :
    y.flags = y'.flags ∧ y.address = y'.address := by
  obtain ⟨flags, address⟩ := strobe.place undisturbed
  obtain ⟨flags', address'⟩ := strobe'.place alone.undisturbed
  exact ⟨flags.trans flags'.symm, address.trans address'.symm⟩

/-! ## A reading of the header between two chunks -/

def wordCommand : VueCommand :=
  .ofPacket ⟨(commandBytes 0#8 0#8 1#8 2#32 2#32).toArray, by decide⟩

/-- What the log says about one of its entries. -/
theorem strobe_of_index {start : World} {inputs : List Input} {c : VueCommand} {n i : Nat}
    {y : BusCycle} (started : Started start) {log : List Event}
    (logged : (mainLoop inputs start).state.log = log)
    (cycle : log[i]?.bind Event.cycle = some y)
    (command : acceptedCommand (log.drop (i + 1)) = some c)
    (count : (cyclesOf (sinceAccept (log.drop (i + 1)))).length = n) :
    TransferStrobe start inputs c n (log.drop (i + 1)) y := by
  refine ⟨started, ?_, command, count⟩
  obtain ⟨e, entry, cycle⟩ := Option.bind_eq_some_iff.mp cycle
  exact ⟨log.take i, e, logged.trans (log_split entry), cycle⟩

/-- The strobe of the word. -/
theorem wordEnd_strobe {setup : Option ControlTransfer} {y : BusCycle}
    (cycle : (wordEnd setup).log[21]?.bind Event.cycle = some y)
    (command : acceptedCommand ((wordEnd setup).log.drop 22) = some wordCommand)
    (count : (cyclesOf (sinceAccept ((wordEnd setup).log.drop 22))).length = 0) :
    TransferStrobe wordStart (wordInputs setup) wordCommand 0 ((wordEnd setup).log.drop 22) y :=
  strobe_of_index wordStart_started rfl cycle command count

theorem wordEnd_alone : TransferStrobe wordStart (wordInputs none) wordCommand 0
    ((wordEnd none).log.drop 22) ⟨0x12#8, 0x1#23, ⟨false, .driven 1#8, .driven 2#8⟩⟩ :=
  wordEnd_strobe (by decide +kernel) (by decide +kernel) (by decide +kernel)

/-- `REQ_READ_DEBUG`, with a host that takes the packet at once. -/
def readDebugTransfer : ControlTransfer :=
  { readHeaderTransfer with header := ⟨vendorToHost, reqReadDebug, 0#16, 0#16, 4#16⟩ }

/-- The debug request is served between the two bytes. -/
theorem strobes_undisturbed_debug :
    ∃ y : BusCycle, y.flags = 0x12#8 ∧ y.address = 0x1#23 ∧
      TransferStrobe wordStart (wordInputs (some readDebugTransfer)) wordCommand 0
        ((wordEnd (some readDebugTransfer)).log.drop 22) y := by
  have debug : TransferStrobe wordStart (wordInputs (some readDebugTransfer)) wordCommand 0
      ((wordEnd (some readDebugTransfer)).log.drop 22)
      ⟨0x12#8, 0x1#23, ⟨false, .driven 1#8, .driven 2#8⟩⟩ :=
    wordEnd_strobe (by decide +kernel) (by decide +kernel) (by decide +kernel)
  obtain ⟨flags, address⟩ := strobes_undisturbed debug wordEnd_alone (by decide +kernel)
    (by decide +kernel)
  exact ⟨_, flags, address, debug⟩

/-- The header is read between the two bytes. -/
theorem strobes_disturbed :
    ¬ ∀ (start start' : World) (inputs inputs' : List Input) (c : VueCommand) (n : Nat)
      (past past' : List Event) (y y' : BusCycle), TransferStrobe start inputs c n past y →
      TransferStrobe start' inputs' c n past' y' → Unrequested (sinceAccept past') →
      Harmless (sinceAccept past) → y.flags = y'.flags ∧ y.address = y'.address := by
  intro claim
  have header : TransferStrobe wordStart (wordInputs (some readHeaderTransfer)) wordCommand 0
      ((wordEnd (some readHeaderTransfer)).log.drop 22)
      ⟨0x17#8, 0x7F8001#23, ⟨false, .driven 1#8, .driven 2#8⟩⟩ :=
    wordEnd_strobe (by decide +kernel) (by decide +kernel) (by decide +kernel)
  have same := claim _ _ _ _ _ _ _ _ _ _ header wordEnd_alone (by decide +kernel)
    (by decide +kernel)
  exact absurd same (by decide)

end VueCartReader
