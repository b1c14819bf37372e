import VueCartReader.Transfer.Account

/-!
# The ledger of a transfer

In every run, whatever requests, resets and failures there are, each event of the log
stands where the command that was accepted last puts it (`Account`): the bus cycles come
in the order of the words of the command, the bytes of a write are those taken from the
host, the bytes given to the host are those read from the cartridge. What is said of an
event is conditional on what came before it: on the ROM header not having been read at a
bad moment (`Undisturbed`), and on no stream call having failed (`Sound`).

`Ledger` carries this through the main loop. While a transfer is in progress it knows how
many cycles there have been, how many bytes were exchanged, and that the latches are good
for the running address (`Kept`).
-/

set_option autoImplicit false

namespace VueCartReader

open Program

/-! ## What is promised -/

/-- A cartridge that has been plugged in since the log had a certain length. -/
structure Plug where
  cartridge : Cartridge
  since : Nat

abbrev cyclesOf (log : List Event) : List BusCycle := occurrences Event.cycle log

abbrev takesOf (log : List Event) : List Byte := occurrences Event.taken log

abbrev givesOf (log : List Event) : List Byte := occurrences Event.given log

/-- The bytes that a transfer is there to move. -/
def VueCommand.exchanged (c : VueCommand) (log : List Event) : List Byte :=
  if c.task = .read then givesOf log else takesOf log

theorem VueCommand.exchanged_append (c : VueCommand) (newer older : List Event) :
    c.exchanged (newer ++ older) = c.exchanged older ++ c.exchanged newer := by
  unfold exchanged
  split <;> exact occurrences_append _ _ _

theorem VueCommand.exchanged_of_idle (c : VueCommand) {log : List Event}
    (idle : ∀ e ∈ log, e.taken = none ∧ e.given = none) : c.exchanged log = [] := by
  unfold exchanged
  split
  · exact occurrences_eq_nil _ fun e member => (idle e member).2
  · exact occurrences_eq_nil _ fun e member => (idle e member).1

/-- A bus cycle is the next one of a transfer. -/
structure NextCycle (c : VueCommand) (seg : List Event) (y : BusCycle) : Prop where
  inside : (cyclesOf seg).length < c.words c.length.toNat
  place : Undisturbed seg → y.flags = flagBits c.start ∧
    y.address = wordAddress c.start + BitVec.ofNat 23 (cyclesOf seg).length
  drive : c.task = .write → Sound seg →
    ((cyclesOf seg).length + 1) * c.func.step ≤ c.length.toNat →
    ((cyclesOf seg).length + 1) * c.func.step ≤ (takesOf seg).length ∧
      y.drive = c.func.drive (takesOf seg) (cyclesOf seg).length
  lanes : ∃ data k, y.drive = c.func.drive data k

/-- A byte given to the host is the next one of a transfer. -/
structure NextByte (plug : Option Plug) (c : VueCommand) (past : List Event) (x : Byte) :
    Prop where
  reading : c.task = .read
  inside : Sound (sinceAccept past) → (givesOf (sinceAccept past)).length < c.length.toNat
  content : ∀ p ∈ plug, p.since ≤ past.length → Undisturbed (sinceAccept past) →
    Sound (sinceAccept past) →
    (c.func.readOut p.cartridge c.start (c.words c.length.toNat))[
      (givesOf (sinceAccept past)).length]? = some x

/-- All words of a transfer have had their cycles, and its bytes were exchanged. -/
structure Complete (c : VueCommand) (seg : List Event) : Prop where
  cycles : (cyclesOf seg).length = c.words c.length.toNat
  exchanged : Sound seg → (c.exchanged seg).length = c.length.toNat

/-- What an event says about the events before it. -/
structure Account (plug : Option Plug) (e : Event) (past : List Event) : Prop where
  judged : ∀ c, e.judged = some c → c.Clamped ∧
    (e.accepted = some c ↔ c.defined = true ∧ c.length ≠ 0#32) ∧
    ∀ packet : Vector Byte 32, takesOf (sinceCommand past) = packet.toList → c = .ofPacket packet
  cycle : ∀ y, e.cycle = some y →
    ∃ c, acceptedCommand past = some c ∧ NextCycle c (sinceAccept past) y
  give : ∀ x, e.given = some x → ∃ c, acceptedCommand past = some c ∧ NextByte plug c past x
  finish : e = .finish → ∃ c, acceptedCommand past = some c ∧ Complete c (sinceAccept past)

/-- An event that promises nothing. -/
structure Event.Plain (e : Event) : Prop where
  judged : e.judged = none
  cycle : e.cycle = none
  given : e.given = none
  other : e ≠ .finish

theorem Event.Plain.account {e : Event} (plain : e.Plain) (plug : Option Plug)
    (past : List Event) : Account plug e past where
  judged _ found := nomatch plain.judged.symm.trans found
  cycle _ found := nomatch plain.cycle.symm.trans found
  give _ found := nomatch plain.given.symm.trans found
  finish found := absurd found plain.other

theorem Event.Plain.accepted {e : Event} (plain : e.Plain) : e.accepted = none := by
  have none_ := plain.judged
  cases e <;> first | rfl | exact nomatch none_

theorem command_plain (old : VueCommand) : (Event.command old).Plain := ⟨rfl, rfl, rfl, nofun⟩

theorem resetBegin_plain : Event.resetBegin.Plain := ⟨rfl, rfl, rfl, nofun⟩

theorem resetEnd_plain : Event.resetEnd.Plain := ⟨rfl, rfl, rfl, nofun⟩

/-- A command that is not accepted promises nothing else. -/
theorem account_of_unaccepted {plug : Option Plug} {e : Event} {past : List Event} {c : VueCommand}
    (kind : e = .ignore c ∨ e = .reject c) (clamped : c.Clamped)
    (turned : ¬ (c.defined = true ∧ c.length ≠ 0#32))
    (decoded : ∀ packet : Vector Byte 32, takesOf (sinceCommand past) = packet.toList →
      c = .ofPacket packet) : Account plug e past := by
  have judged (d : VueCommand) (same : some c = some d) : d.Clamped ∧
      ((none : Option VueCommand) = some d ↔ d.defined = true ∧ d.length ≠ 0#32) ∧
      ∀ packet : Vector Byte 32, takesOf (sinceCommand past) = packet.toList →
        d = .ofPacket packet := by
    obtain rfl : c = d := Option.some.inj same
    exact ⟨clamped, ⟨nofun, fun both => absurd both turned⟩, decoded⟩
  rcases kind with rfl | rfl <;> exact ⟨judged, nofun, nofun, nofun⟩

theorem plain_of_stream {e : Event} (ok : e.ofStream = true) (none_ : e.given = none) :
    e.Plain := by
  cases e with
  | give x => exact nomatch none_
  | port actor before after =>
      cases actor with
      | control => exact ⟨rfl, rfl, rfl, nofun⟩
      | _ => exact nomatch ok
  | accept c => exact nomatch ok
  | ignore c => exact nomatch ok
  | reject c => exact nomatch ok
  | finish => exact nomatch ok
  | _ => exact ⟨rfl, rfl, rfl, nofun⟩

theorem plain_of_control {e : Event} (ok : e.ofControl = true) : e.Plain :=
  plain_of_stream (by cases e <;> first | rfl | exact ok) (Event.idle_of_control ok).2.1

theorem cycle_of_stream {e : Event} (ok : e.ofStream = true) : e.cycle = none := by
  cases e with
  | port actor before after => cases actor <;> first | rfl | exact nomatch ok
  | _ => rfl

/-! ## The invariant -/

/-- The cycles of so many bytes of a transfer are over, and the latches are good for the
running address. -/
structure Placed (c : VueCommand) (bytes : Nat) (w : World) : Prop where
  cycles : (cyclesOf (sinceAccept w.log)).length = c.words bytes
  fresh : Undisturbed (sinceAccept w.log) → w.board.Fresh w.vars.bulkAddress

structure Kept (c : VueCommand) (w : World) : Prop where
  placed : Placed c (c.moved w) w
  exchanged : Sound (sinceAccept w.log) →
    (c.exchanged (sinceAccept w.log)).length = c.moved w

/-- The state of the transfers between two rounds, and all that was promised so far. -/
structure Books (plug : Option Plug) (w : World) : Prop where
  plugged : ∀ p ∈ plug, w.board.cartridge = p.cartridge
  history : History (Account plug) w.log
  kept : w.vars.bulkReset = 0#32 → w.vars.curVueState ≠ .idle →
    ∀ c, acceptedCommand w.log = some c → Kept c w
  ended : w.vars.curVueState = .idle → ∀ c, acceptedCommand w.log = some c →
    .finish ∈ sinceAccept w.log ∨ .resetBegin ∈ sinceAccept w.log

structure Ledger (plug : Option Plug) (w : World) : Prop where
  machine : Machine w
  books : Books plug w

/-- What is known of a run wherever it is cut. -/
abbrev Accounted (plug : Option Plug) (w : World) : Prop := History (Account plug) w.log

/-! ## Code that leaves a transfer alone -/

/-- Events without a cycle leave it at that, if the latches stay good. -/
theorem Placed.extended {c : VueCommand} {n : Nat} {s t : World} (placed : Placed c n s)
    {new : List Event} (log : t.log = new ++ s.log)
    (silent : ∀ e ∈ new, e.accepted = none ∧ e.cycle = none) (touched : Touched s t) :
    Placed c n t := by
  obtain ⟨same, log', board⟩ := touched.board
  obtain rfl := List.append_cancel_right (log'.symm.trans log)
  have since : sinceAccept t.log = same ++ sinceAccept s.log := by
    rw [log, sinceAccept_append fun e member => (silent e member).1]
  refine ⟨?_, fun undisturbed => ?_⟩
  · rw [since, cyclesOf, occurrences_append,
      occurrences_eq_nil _ fun e member => (silent e member).2, List.append_nil]
    exact placed.cycles
  · rw [since, Undisturbed.append] at undisturbed
    rw [touched.address]
    rcases board with same | ⟨header, state, member, reads⟩
    · rw [same]
      exact placed.fresh undisturbed.2
    · exact .inl (undisturbed.1 header state _ member reads)

theorem Placed.streamed {c : VueCommand} {n : Nat} {s t : World} (placed : Placed c n s)
    (streamed : Streamed s t) (touched : Touched s t) : Placed c n t := by
  obtain ⟨new, log, all, -⟩ := streamed.log
  exact placed.extended log
    (fun e member => ⟨accepted_of_stream (all e member), cycle_of_stream (all e member)⟩) touched

/-- Events of which nothing is promised, and by which nothing is exchanged. -/
def Event.Quiescent (e : Event) : Prop := e.Plain ∧ e.taken = none

theorem Kept.extended {c : VueCommand} {s t : World} (kept : Kept c s) {new : List Event}
    (log : t.log = new ++ s.log) (quiet : ∀ e ∈ new, e.Quiescent) (touched : Touched s t)
    (command : t.vars.curCommand = s.vars.curCommand) : Kept c t := by
  have moved : c.moved t = c.moved s := by rw [VueCommand.moved, command, VueCommand.moved]
  have since : sinceAccept t.log = new ++ sinceAccept s.log := by
    rw [log, sinceAccept_append fun e member => (quiet e member).1.accepted]
  have idle : c.exchanged new = [] := c.exchanged_of_idle fun e member =>
    ⟨(quiet e member).2, (quiet e member).1.given⟩
  refine ⟨?_, fun sound => ?_⟩
  · rw [moved]
    exact kept.placed.extended log
      (fun e member => ⟨(quiet e member).1.accepted, (quiet e member).1.cycle⟩) touched
  · rw [since, Sound.append] at sound
    rw [since, VueCommand.exchanged_append, idle, List.append_nil, moved]
    exact kept.exchanged sound.2

/-- The cartridge is never changed by the firmware. -/
theorem Streamed.cartridge {s t : World} (streamed : Streamed s t) (ready : s.BusReady) :
    t.board.cartridge = s.board.cartridge := by
  rcases streamed.board ready with same | read
  · rw [same]
  · rw [read]
    rfl

theorem accounted_of_plain {plug : Option Plug} {s t : World} (held : Accounted plug s)
    {new : List Event} (log : t.log = new ++ s.log) (plain : ∀ e ∈ new, e.Plain) :
    Accounted plug t := by
  rw [Accounted, log]
  exact held.append_of_forall fun e member past => (plain e member).account plug past

theorem Books.extended {plug : Option Plug} {s t : World} (held : Books plug s)
    {new : List Event} (log : t.log = new ++ s.log) (quiet : ∀ e ∈ new, e.Quiescent)
    (touched : Touched s t) (unmoved : Unmoved s t)
    (cartridge : t.board.cartridge = s.board.cartridge) : Books plug t := by
  obtain ⟨_, _, _, _, vars⟩ := unmoved.vars
  have none_ : ∀ e ∈ new, e.accepted = none := fun e member => (quiet e member).1.accepted
  have accepted := unmoved.accepted
  have state : t.vars.curVueState = s.vars.curVueState := by rw [vars]
  refine
    { plugged := fun p member => cartridge.trans (held.plugged p member)
      history := accounted_of_plain held.history log fun e member => (quiet e member).1
      kept := fun clear busy c found => ?_, ended := fun idle c found => ?_ }
  · rw [state] at busy
    rw [accepted] at found
    exact (held.kept (unmoved.reset clear) busy c found).extended log quiet touched (by rw [vars])
  · rw [state] at idle
    rw [accepted] at found
    rw [log, sinceAccept_append none_]
    exact (held.ended idle c found).imp (List.mem_append_right _) (List.mem_append_right _)

theorem Books.served {plug : Option Plug} {s t : World} (held : Books plug s) (ready : s.BusReady)
    (served : Served s t) (touched : Touched s t) : Books plug t := by
  obtain ⟨new, log, all, -⟩ := served.log
  exact held.extended log
    (fun e member => ⟨plain_of_control (all e member), (Event.idle_of_control (all e member)).1⟩)
    touched (.of_served served) (Streamed.cartridge (.of_served served) ready)

theorem Ledger.served {plug : Option Plug} {s t : World} (held : Ledger plug s)
    (served : Served s t) (touched : Touched s t) : Ledger plug t :=
  ⟨⟨busInvariant_of_served served held.machine.bus,
    held.machine.tracked.unmoved (.of_served served) held.machine.bus.ready⟩,
    held.books.served held.machine.bus.ready served touched⟩

theorem ledger_of_framed (plug : Option Plug) (s t : World) (framed : Framed OfUsb s t)
    (held : Ledger plug s) : Ledger plug t := held.served (.of_framed framed) (.of_framed framed)

theorem usbUsbTask_keepsLedger (plug : Option Plug) :
    Stays (Ledger plug) (Accounted plug) usbUsbTask := fun s held =>
  ((usbUsbTask_served s).and (usbUsbTask_touched s)).mono
    (fun _ _ ends => held.served ends.1 ends.2) fun _ cut => (held.served cut.1 cut.2).books.history

/-! ## A chunk on the bus -/

/-- What a round drives depends on its own bytes only. -/
theorem AccessFunc.drive_congr (f : AccessFunc) {data data' : List Byte} {k k' : Nat}
    (same : ∀ i < f.step, data.getD (k * f.step + i) 0#8 = data'.getD (k' * f.step + i) 0#8) :
    f.drive data k = f.drive data' k' := by
  cases f with
  | vueWriteData16bit =>
      have first := same 0 (by decide)
      have second := same 1 (by decide)
      simp only [step, Nat.add_zero] at first second
      simp only [drive, Nat.mul_comm 2, first, second]
  | vueWriteData8bitLo =>
      have only := same 0 (by decide)
      simp only [step, Nat.mul_one, Nat.add_zero] at only
      simp only [drive, only]
  | _ => rfl

theorem AccessFunc.step_range (f : AccessFunc) : f.step = 1 ∨ f.step = 2 := by
  cases f <;> simp [step]

/-- Whole chunks end with a whole word. -/
theorem words_mul_step (c : VueCommand) {bytes : Nat} (whole : 64 ∣ bytes) :
    c.words bytes * c.func.step = bytes := by
  obtain ⟨k, rfl⟩ := whole
  rcases c.func.step_range with eq | eq <;> simp only [VueCommand.words, rounds, eq] <;> omega

theorem words_mono (c : VueCommand) {bytes more : Nat} (less : bytes ≤ more) :
    c.words bytes ≤ c.words more := by
  rcases c.func.step_range with eq | eq <;> simp only [VueCommand.words, rounds, eq] <;> omega

/-- The buffer holds what has been taken for the next chunk of a write. -/
def Loaded (c : VueCommand) (w : World) : Prop :=
  c.task = .write → Sound (sinceAccept w.log) →
    (takesOf (sinceAccept w.log)).length = c.moved w + (chunkLength w.vars).toNat ∧
      ∀ i < (chunkLength w.vars).toNat, w.vars.bulkBuffer.toList.getD i 0#8 =
        (takesOf (sinceAccept w.log)).getD (c.moved w + i) 0#8

section Chunk

variable {c : VueCommand} {w : World} {a : Access}

/-- The cycles of an access are the next ones of its transfer. -/
theorem nextCycle_of_access (going : InProgress c 0 w) (clear : w.vars.bulkReset = 0#32)
    (placed : Placed c (c.moved w) w) (loaded : Loaded c w)
    (progress : c.func.Progress ⟨w.board, []⟩ w.vars.bulkAddress w.vars.bulkBuffer
      (rounds (chunkLength w.vars).toNat c.func.step) a)
    {later earlier : List Event} {e : Event} {y : BusCycle}
    (split : portEvents .task w.board a.rig.seen = later ++ e :: earlier)
    (found : e.cycle = some y) :
    NextCycle c (earlier ++ .access c.func (chunkLength w.vars) :: sinceAccept w.log) y := by
  obtain ⟨cs, ⟨trace, settled, -, cycles, -⟩, drives, exact_⟩ := progress.cycles
  have seen : a.rig.seen = trace := settled.seen
  have all : cyclesOf (portEvents .task w.board a.rig.seen) = cs := by
    rw [cyclesOf, portEvents_cycles, seen]
    exact cycles
  have here := occurrences_getElem split found
  rw [show occurrences Event.cycle (portEvents .task w.board a.rig.seen) = cs from all] at here
  obtain ⟨j, at_⟩ : ∃ j, (occurrences Event.cycle earlier).length = j := ⟨_, rfl⟩
  rw [at_] at here
  -- so many cycles are over
  have count : (cyclesOf (earlier ++ .access c.func (chunkLength w.vars) ::
      sinceAccept w.log)).length = c.words (c.moved w) + j := by
    rw [cyclesOf, occurrences_append, occurrences_cons, List.length_append, List.length_append, at_]
    exact congrArg (· + j) placed.cycles
  have address := going.address clear
  rw [Nat.add_zero] at address
  have inside : j < rounds (chunkLength w.vars).toNat c.func.step := by
    obtain ⟨less, -⟩ := List.getElem?_eq_some_iff.mp here
    have size := congrArg List.length drives
    simp only [List.length_map, List.length_range] at size
    omega
  have chunk := chunkLength_toNat w.vars
  have bounded := going.bounded
  have moved : c.moved w = c.length.toNat - w.vars.curCommand.length.toNat := rfl
  have drive : y.drive = c.func.drive w.vars.bulkBuffer.toList j := by
    have mapped := congrArg (fun l : List Drive => l[j]?) drives
    simpa [here, inside] using mapped
  refine ⟨?_, fun undisturbed => ?_, fun writing sound whole => ?_, _, _, drive⟩
  · rw [count]
    have total : c.words (c.moved w + (chunkLength w.vars).toNat) = c.words (c.moved w) + _ :=
      words_add c going.whole
    have most :=
      words_mono c (show c.moved w + (chunkLength w.vars).toNat ≤ c.length.toNat by omega)
    omega
  · have quiet := (Undisturbed.append.mp undisturbed).2
    rw [exact_ (placed.fresh fun header state address member =>
      quiet header state address (List.mem_cons_of_mem _ member))] at here
    obtain ⟨less, rfl⟩ := List.getElem?_eq_some_iff.mp here
    simp only [List.getElem_map, List.getElem_range, AccessFunc.accessCycle, count, address,
      flagBits_iterate, wordAddress_iterate, BitVec.add_assoc, ← BitVec.ofNat_add, and_self]
  · rw [count] at whole ⊢
    have silent : takesOf (earlier ++ .access c.func (chunkLength w.vars) ::
        sinceAccept w.log) = takesOf (sinceAccept w.log) := by
      have none_ : occurrences Event.taken earlier = [] := occurrences_eq_nil _ fun f member => by
        obtain ⟨before, after, rfl⟩ := portEvents_kind .task w.board a.rig.seen f (by
          rw [split]
          exact List.mem_append_right _ (List.mem_cons_of_mem _ member))
        rfl
      rw [takesOf, occurrences_append, occurrences_cons, none_, List.append_nil]
      exact List.append_nil _
    obtain ⟨taken, buffer⟩ := loaded writing fun f member =>
      sound f (List.mem_append_right _ (List.mem_cons_of_mem _ member))
    have product := words_mul_step c going.whole
    rw [silent, taken, drive]
    have share : (j + 1) * c.func.step ≤ (chunkLength w.vars).toNat := by
      rw [Nat.add_assoc, Nat.add_mul, product] at whole
      rcases c.func.step_range with eq | eq <;> rw [eq] at whole ⊢ <;>
        simp only [rounds, eq] at inside <;> omega
    refine ⟨?_, c.func.drive_congr fun i less => ?_⟩
    · rw [Nat.add_assoc, Nat.add_mul, product]
      omega
    · rw [Nat.add_mul] at share
      rw [buffer _ (by omega), Nat.add_mul, product, Nat.add_assoc]

theorem portEvents_accepted_split {by_ : Actor} {start : Board} {trace : List Board}
    {later earlier : List Event} {e : Event}
    (split : portEvents by_ start trace = later ++ e :: earlier) :
    ∀ f ∈ earlier, f.accepted = none := fun f member =>
  portEvents_accepted by_ start trace f <| by
    rw [split]
    exact List.mem_append_right _ (List.mem_cons_of_mem _ member)

theorem accessed_since (w : World) (func : AccessFunc) (length : BitVec 32) (a : Access) :
    sinceAccept (w.accessed func length a).log =
      portEvents .task w.board a.rig.seen ++ .access func length :: sinceAccept w.log := by
  have one :
      sinceAccept (.access func length :: w.log) = .access func length :: sinceAccept w.log :=
    sinceAccept_cons rfl w.log
  rw [← one]
  exact sinceAccept_append (portEvents_accepted _ _ _) _

theorem accessed_placed (going : InProgress c 0 w) (placed : Placed c (c.moved w) w)
    (progress : c.func.Progress ⟨w.board, []⟩ w.vars.bulkAddress w.vars.bulkBuffer
      (rounds (chunkLength w.vars).toNat c.func.step) a) :
    Placed c (c.moved w + (chunkLength w.vars).toNat)
      (w.accessed c.func (chunkLength w.vars) a) := by
  obtain ⟨cs, ⟨trace, settled, -, cycles, -⟩, drives, -⟩ := progress.cycles
  have seen : a.rig.seen = trace := settled.seen
  have all : occurrences Event.cycle (portEvents .task w.board a.rig.seen) = cs := by
    rw [portEvents_cycles, seen]
    exact cycles
  have size := congrArg List.length drives
  simp only [List.length_map, List.length_range] at size
  refine ⟨?_, fun undisturbed =>
    progress.fresh (placed.fresh fun header state address member => ?_)⟩
  · rw [accessed_since, cyclesOf, occurrences_append, all, occurrences_cons, List.length_append,
      List.length_append, size, words_add c going.whole]
    exact congrArg (· + _) placed.cycles
  · rw [accessed_since] at undisturbed
    exact undisturbed header state address (List.mem_append_right _ (List.mem_cons_of_mem _ member))

theorem accessed_accounted {plug : Option Plug} (held : Accounted plug w)
    (accepted : acceptedCommand w.log = some c) (going : InProgress c 0 w)
    (clear : w.vars.bulkReset = 0#32) (placed : Placed c (c.moved w) w) (loaded : Loaded c w)
    (progress : c.func.Progress ⟨w.board, []⟩ w.vars.bulkAddress w.vars.bulkBuffer
      (rounds (chunkLength w.vars).toNat c.func.step) a) :
    Accounted plug (w.accessed c.func (chunkLength w.vars) a) := by
  have plain : (Event.access c.func (chunkLength w.vars)).Plain := ⟨rfl, rfl, rfl, nofun⟩
  have called : History (Account plug) (.access c.func (chunkLength w.vars) :: w.log) :=
    ⟨plain.account plug w.log, held⟩
  refine called.append fun later e earlier split => ?_
  obtain ⟨before, after, rfl⟩ := portEvents_kind .task w.board a.rig.seen e (by
    rw [split]
    exact List.mem_append_right _ (List.mem_cons_self ..))
  have none_ := portEvents_accepted_split split
  refine ⟨nofun, fun y found => ⟨c, ?_, ?_⟩, nofun, nofun⟩
  · rw [acceptedCommand_append none_, acceptedCommand_cons rfl]
    exact accepted
  · rw [sinceAccept_append none_, sinceAccept_cons rfl]
    exact nextCycle_of_access going clear placed loaded progress split found

end Chunk

/-! ## The end of a chunk -/

/-- A transfer has ended. -/
structure Closed (plug : Option Plug) (w : World) : Prop where
  plugged : ∀ p ∈ plug, w.board.cartridge = p.cartridge
  history : Accounted plug w
  finished : .finish ∈ sinceAccept w.log

/-- Port writes without a cycle promise nothing. -/
theorem portEvents_plain {start : Board} {trace : List Board}
    (silent : occurrences Event.cycle (portEvents .task start trace) = []) :
    ∀ e ∈ portEvents .task start trace, e.Plain := by
  intro e member
  have none_ : e.cycle = none := by
    rw [occurrences, List.reverse_eq_nil_iff, List.filterMap_eq_nil_iff] at silent
    exact silent e member
  obtain ⟨before, after, rfl⟩ := portEvents_kind .task start trace e member
  refine ⟨rfl, none_, rfl, fun same => ?_⟩
  cases same

theorem Closed.framed {plug : Option Plug} {s t : World} (held : Closed plug s)
    (framed : Framed OfUsb s t) : Closed plug t := by
  obtain ⟨new, log, all⟩ := framed.log
  have plain : ∀ e ∈ new, e.Plain := fun e member => by
    have ok := all e member
    exact plain_of_control (by cases e <;> first | exact ok | exact nomatch ok)
  refine ⟨fun p member => ?_, accounted_of_plain held.history log plain, ?_⟩
  · rw [framed.board]
    exact held.plugged p member
  · rw [log, sinceAccept_append fun e member => (plain e member).accepted]
    exact List.mem_append_right _ held.finished

/-- Once idle, the books are closed. -/
theorem Closed.books {plug : Option Plug} {w : World} (held : Closed plug w) :
    wp enterIdle (fun _ t => Books plug t) (Accounted plug) w where
  plugged := held.plugged
  history := held.history
  kept _ busy := absurd rfl busy
  ended _ _ _ := .inl held.finished

section Finish

variable {plug : Option Plug} {c : VueCommand} {w : World}

theorem deselect_closed (bus : BusInvariant w)
    (plugged : ∀ p ∈ plug, w.board.cartridge = p.cartridge) (held : Accounted plug w)
    (accepted : acceptedCommand w.log = some c) (complete : Complete c (sinceAccept w.log)) :
    wp deselect (fun _ t => Closed plug t) (Accounted plug) w := by
  have board := (vueWriteAddressFull_run bus.ready.resting bus.ready.selects
    (oneSelect_of_noSelect (flagBits_or_mask w.vars.bulkAddress))).2
  have silent := vueWriteAddressFull_cycles bus.ready.resting (w.vars.bulkAddress ||| vueFlagMask)
  rw [wp_of_value (deselect_eq w)]
  generalize vueWriteAddressFull (w.vars.bulkAddress ||| vueFlagMask) ⟨w.board, []⟩ = r
    at board silent ⊢
  have plain := portEvents_plain silent
  have ended : History (Account plug) (.finish :: w.log) :=
    ⟨⟨nofun, nofun, nofun, fun _ => ⟨c, accepted, complete⟩⟩, held⟩
  refine ⟨fun p member => ?_,
    ended.append_of_forall fun e member past => (plain e member).account plug past, ?_⟩
  · exact (congrArg Board.cartridge board).trans (plugged p member)
  · have since := sinceAccept_append (fun e member => (plain e member).accepted) (.finish :: w.log)
    rw [since, sinceAccept_cons rfl]
    exact List.mem_append_right _ (List.mem_cons_self ..)

theorem finishWrite_books (bus : BusInvariant w)
    (plugged : ∀ p ∈ plug, w.board.cartridge = p.cartridge) (held : Accounted plug w)
    (accepted : acceptedCommand w.log = some c) (complete : Complete c (sinceAccept w.log)) :
    wp finishWrite (fun _ t => Books plug t) (Accounted plug) w :=
  (deselect_closed bus plugged held accepted complete).bind fun _ _ closed => closed.books

theorem finishRead_books (bus : BusInvariant w)
    (plugged : ∀ p ∈ plug, w.board.cartridge = p.cartridge) (held : Accounted plug w)
    (accepted : acceptedCommand w.log = some c) (complete : Complete c (sinceAccept w.log)) :
    wp finishRead (fun _ t => Books plug t) (Accounted plug) w :=
  (deselect_closed bus plugged held accepted complete).bind fun _ t closed =>
    wp.bind ((taskClearIn_framed t).mono (fun _ _ framed => closed.framed framed)
      fun _ framed => (closed.framed framed).history) fun _ _ closed => closed.books

/-- The end of a chunk, whichever way it went. -/
theorem endChunk_books {finish : Fw Unit} (bus : BusInvariant w)
    (plugged : ∀ p ∈ plug, w.board.cartridge = p.cartridge) (held : Accounted plug w)
    (accepted : acceptedCommand w.log = some c)
    (going : InProgress c (chunkLength w.vars).toNat w)
    (placed : Placed c (c.moved w + (chunkLength w.vars).toNat) w)
    (exchanged : Sound (sinceAccept w.log) → (c.exchanged (sinceAccept w.log)).length =
      c.moved w + (chunkLength w.vars).toNat)
    (finished : ∀ u, BusInvariant u → (∀ p ∈ plug, u.board.cartridge = p.cartridge) →
      Accounted plug u → acceptedCommand u.log = some c → Complete c (sinceAccept u.log) →
      wp finish (fun _ t => Books plug t) (Accounted plug) u) :
    wp (do
      shortenCommand (chunkLength w.vars)
      whenever ((← state).vars.curCommand.length = 0#32) finish) (fun _ t => Books plug t)
      (Accounted plug) w := by
  have counted := shortenCommand_keepsBus (chunkLength w.vars) w bus
  have chunk := chunkLength_toNat w.vars
  have left := shortened_length w
  have bounded := going.bounded
  have moved : c.moved (w.shortened (chunkLength w.vars)) =
      c.moved w + (chunkLength w.vars).toNat := by
    simp only [VueCommand.moved]
    omega
  rw [wp_bind, shortenCommand, onVars, wp_modify, wp_bind, wp_state, wp_whenever]
  refine ⟨fun zero => finished _ counted plugged held accepted ?_, fun more => ?_⟩
  · -- nothing is left
    have none_ : (w.shortened (chunkLength w.vars)).vars.curCommand.length.toNat = 0 :=
      congrArg BitVec.toNat zero
    have total : c.moved w + (chunkLength w.vars).toNat = c.length.toNat := by
      simp only [VueCommand.moved] at moved ⊢
      omega
    rw [total] at placed exchanged
    exact ⟨placed.cycles, exchanged⟩
  · have kept : Kept c (w.shortened (chunkLength w.vars)) := by
      refine ⟨⟨?_, placed.fresh⟩, fun sound => ?_⟩
      · rw [moved]
        exact placed.cycles
      · rw [moved]
        exact exchanged sound
    refine
      { plugged := plugged, history := held
        kept := fun _ _ d found => ?_
        ended := fun idle => absurd (going.task.symm.trans idle)
          (VueCommand.task_ne_idle going.defined) }
    obtain rfl : c = d := Option.some.inj (accepted.symm.trans found)
    exact kept

end Finish

/-! ## The tasks -/

/-- What is recorded while bytes are received is plain. -/
theorem received_plain {s t : World} (streamed : Streamed s t)
    (given : Logs (fun e => e.given = none) s t) :
    ∃ new, t.log = new ++ s.log ∧ ∀ e ∈ new, e.Plain := by
  obtain ⟨new, log, all, -⟩ := streamed.log
  obtain ⟨same, log', none_⟩ := given
  obtain rfl := List.append_cancel_right (log'.symm.trans log)
  exact ⟨same, log, fun e member => plain_of_stream (all e member) (none_ e member)⟩

theorem chunkLength_pos {c : VueCommand} {ahead : Nat} {w : World} (going : InProgress c ahead w) :
    0 < (chunkLength w.vars).toNat := by
  have positive := going.positive
  rw [chunkLength_toNat]
  omega

/-- After a chunk has been received, the buffer holds it. -/
theorem loaded_of_received {c : VueCommand} {s t : World} {new : List Event} (kept : Kept c s)
    (received : Received (fun v => v.bulkBuffer.toList) s new t)
    (ended : Ended (chunkLength s.vars).toNat (occurrences Event.taken new).length new)
    (plain : ∀ e ∈ new, e.Plain) (unmoved : Unmoved s t) (writing : c.task = .write) :
    Loaded c t ∧ (Sound (sinceAccept t.log) → (c.exchanged (sinceAccept t.log)).length =
      c.moved t + (chunkLength t.vars).toNat) := by
  have since : sinceAccept t.log = new ++ sinceAccept s.log := by
    rw [received.log, sinceAccept_append fun e member => (plain e member).accepted]
  have moved : c.moved t = c.moved s := by
    obtain ⟨_, _, _, _, vars⟩ := unmoved.vars
    rw [VueCommand.moved, vars, VueCommand.moved]
  have exchanged (log : List Event) : c.exchanged log = takesOf log := by
    rw [VueCommand.exchanged, if_neg (by rw [writing]; decide)]
  have before := kept.exchanged
  rw [exchanged] at before
  have both (sound : Sound (sinceAccept t.log)) :
      (takesOf (sinceAccept s.log)).length = c.moved s ∧
        (takesOf new).length = (chunkLength s.vars).toNat := by
    rw [since, Sound.append] at sound
    exact ⟨before sound.2, (ended.resolve_right fun failed => failed.1 sound.1).2⟩
  have takes : takesOf (sinceAccept t.log) = takesOf (sinceAccept s.log) ++ takesOf new := by
    rw [since]
    exact occurrences_append _ _ _
  rw [exchanged, moved, chunkLength_unmoved unmoved]
  refine ⟨fun _ sound => ?_, fun sound => ?_⟩
  · obtain ⟨old, chunk⟩ := both sound
    rw [takes, moved, chunkLength_unmoved unmoved]
    refine ⟨by rw [List.length_append, old, chunk], fun i less => ?_⟩
    have memory : t.vars.bulkBuffer.toList = takesOf new ++ _ := received.memory
    simp only [memory, List.getD_eq_getElem?_getD]
    rw [List.getElem?_append_left (by omega), List.getElem?_append_right (by omega), old,
      Nat.add_sub_cancel_left]
  · obtain ⟨old, chunk⟩ := both sound
    rw [takes, List.length_append, old, chunk]

/-- Nothing is exchanged with the host while a chunk goes over the bus. -/
theorem accessed_exchanged (c : VueCommand) (w : World) (func : AccessFunc) (length : BitVec 32)
    (a : Access) : c.exchanged (sinceAccept (w.accessed func length a).log) =
      c.exchanged (sinceAccept w.log) := by
  have silent :
      c.exchanged (portEvents .task w.board a.rig.seen ++ [.access func length]) = [] := by
    refine c.exchanged_of_idle fun e member => ?_
    rcases List.mem_append.mp member with port | access
    · obtain ⟨_, _, rfl⟩ := portEvents_kind _ _ _ e port
      exact ⟨rfl, rfl⟩
    · rw [List.mem_singleton.mp access]
      exact ⟨rfl, rfl⟩
  rw [accessed_since, List.append_cons, VueCommand.exchanged_append, silent, List.append_nil]

/-- A chunk goes over the bus. -/
theorem bulkAccess_books {plug : Option Plug} {c : VueCommand} {w : World} (bus : BusInvariant w)
    (going : InProgress c 0 w) (clear : w.vars.bulkReset = 0#32)
    (plugged : ∀ p ∈ plug, w.board.cartridge = p.cartridge) (held : Accounted plug w)
    (accepted : acceptedCommand w.log = some c) (placed : Placed c (c.moved w) w)
    (loaded : Loaded c w) :
    ∃ a, bulkAccess (chunkLength w.vars) w =
        .value () (w.accessed c.func (chunkLength w.vars) a) ∧
      c.func.Progress ⟨w.board, []⟩ w.vars.bulkAddress w.vars.bulkBuffer
        (rounds (chunkLength w.vars).toNat c.func.step) a ∧
      BusInvariant (w.accessed c.func (chunkLength w.vars) a) ∧
      InProgress c (chunkLength w.vars).toNat (w.accessed c.func (chunkLength w.vars) a) ∧
      (∀ p ∈ plug, a.rig.board.cartridge = p.cartridge) ∧
      Accounted plug (w.accessed c.func (chunkLength w.vars) a) ∧
      Placed c (c.moved w + (chunkLength w.vars).toNat)
        (w.accessed c.func (chunkLength w.vars) a) := by
  obtain ⟨a, progress, run⟩ :=
    bulkAccess_eq (chunkLength_inside w.vars) bus.ready.resting going.func
  have kept := bulkAccess_keepsBus (chunkLength_inside w.vars) w bus
  rw [wp_of_value run] at kept
  have ahead := going.accessed progress
  rw [chunkLength_setWidth] at progress
  exact ⟨a, run, progress, kept, ahead, fun p member => progress.cartridge.trans (plugged p member),
    accessed_accounted held accepted going clear placed loaded progress,
    accessed_placed going placed progress⟩

theorem vueBulkWriteTask_books {plug : Option Plug} {s : World} (held : Ledger plug s)
    (found : s.OutFound) (writing : s.vars.curVueState = .write) :
    wp vueBulkWriteTask (fun _ t => Books plug t) (Accounted plug) s := by
  have busy : s.vars.curVueState ≠ .idle := by rw [writing]; decide
  obtain ⟨c, accepted, going⟩ := held.machine.tracked.progress busy
  have task : c.task = .write := going.task.symm.trans writing
  have kept := held.books.kept found.clear busy c accepted
  have there : s.At vueCartReaderOutEpAddr := .inl found.selected
  rw [vueBulkWriteTask, wp_bind, wp_state, if_neg (by rw [going.phase]; decide), if_pos going.phase]
  have streamed := readStream_streamed storeBuffer (fun _ _ _ => ⟨_, _, rfl⟩)
    (chunkLength s.vars).toNat s
  have plain := readStream_plain storeBuffer (chunkLength s.vars).toNat s
  have spec := readStream_spec buffer_memory (chunkLength_pos going) there
    (by simpa using chunkLength_le s.vars)
  have reset := readStream_reset storeBuffer (fun _ _ _ => rfl) (chunkLength s.vars).toNat s
  have moved := (receiveChunk_unmoved (chunkLength s.vars).toNat s).and
    ((receiveChunk_touched (chunkLength s.vars).toNat s).and
      (readStream_keepsBus storeBuffer (fun _ _ _ => rfl) (fun _ _ _ => ⟨rfl, rfl⟩)
        (chunkLength s.vars).toNat s held.machine.bus))
  refine wp.bind
    (((streamed.and plain).and ((spec.and reset).and moved)).mono (fun _ _ ends => ends)
    fun t cut => ?_) fun ok t ends => ?_
  · obtain ⟨new, log, plain⟩ := received_plain cut.1.1 cut.1.2
    exact accounted_of_plain held.books.history log plain
  obtain ⟨⟨streamed, given⟩, ⟨spec, reset⟩, unmoved, touched, bus⟩ := ends
  obtain ⟨new, log, plain⟩ := received_plain streamed given
  have history := accounted_of_plain held.books.history log plain
  have plugged (p : Plug) (member : p ∈ plug) : t.board.cartridge = p.cartridge := by
    rw [streamed.cartridge held.machine.bus.ready]
    exact held.books.plugged p member
  have accepted := unmoved.accepted.trans accepted
  have going := going.unmoved unmoved
  obtain ⟨same, received, done, -⟩ := spec
  obtain rfl := List.append_cancel_right (received.log.symm.trans log)
  rw [wp_ite]
  refine ⟨fun yes => ?_, fun no => ?_⟩
  · have clear := reset.1 yes found.clear
    obtain ⟨loaded, exchanged⟩ := loaded_of_received kept received (done yes) plain unmoved task
    have placed : Placed c (c.moved t) t := by
      have moved : c.moved t = c.moved s := by
        obtain ⟨_, _, _, _, vars⟩ := unmoved.vars
        rw [VueCommand.moved, vars, VueCommand.moved]
      rw [moved]
      exact kept.placed.streamed streamed touched
    obtain ⟨a, run, -, bus, ahead, plugged, history, placed⟩ :=
      bulkAccess_books bus going clear plugged history accepted placed loaded
    rw [← chunkLength_unmoved unmoved, wp_bind, wp_of_value run]
    refine endChunk_books bus plugged history ?_ ahead placed (fun sound => ?_) fun u =>
      finishWrite_books
    · exact (accessed_accepted t _ _ a).trans accepted
    · rw [accessed_exchanged]
      refine exchanged fun e member => sound e ?_
      rw [accessed_since]
      exact List.mem_append_right _ (List.mem_cons_of_mem _ member)
  · have set := reset.2 (by simpa using no)
    exact
      { plugged := plugged, history := history
        kept := fun clear => absurd clear set
        ended := fun idle => absurd (going.task.symm.trans idle)
          (VueCommand.task_ne_idle going.defined) }

/-! ## Sending what was read -/

/-- A read in two parts. -/
theorem AccessFunc.readOut_add (f : AccessFunc) (cartridge : Cartridge) (address : BitVec 32)
    (first second : Nat) : f.readOut cartridge address (first + second) =
      f.readOut cartridge address first ++
        f.readOut cartridge (vueIncAddress^[first] address) second := by
  simp only [readOut, List.range_add, List.flatMap_append, List.flatMap_map, flagBits_iterate,
    wordAddress_iterate, BitVec.add_assoc, ← BitVec.ofNat_add]

section Send

variable {plug : Option Plug} {c : VueCommand} {s : World} {a : Access}

/-- Where a byte of a chunk stands in the whole read. -/
theorem readOut_chunk (going : InProgress c 0 s) (reads : c.func.reads = true)
    (cartridge : Cartridge) {j : Nat} (inside : j < (chunkLength s.vars).toNat) :
    (c.func.readOut cartridge c.start (c.words c.length.toNat))[c.moved s + j]? =
      (c.func.readOut cartridge (vueIncAddress^[c.words (c.moved s)] c.start)
        (rounds (chunkLength s.vars).toNat c.func.step))[j]? := by
  have chunk := chunkLength_toNat s.vars
  have bounded := going.bounded
  have moved : c.moved s = c.length.toNat - s.vars.curCommand.length.toNat := rfl
  have total : c.words (c.moved s + (chunkLength s.vars).toNat) = c.words (c.moved s) + _ :=
    words_add c going.whole
  have most := words_mono c (show c.moved s + (chunkLength s.vars).toNat ≤ c.length.toNat by omega)
  obtain ⟨rest, eq⟩ := Nat.exists_eq_add_of_le (total ▸ most)
  have size := AccessFunc.readOut_length reads cartridge c.start (c.words (c.moved s))
  rw [words_mul_step c going.whole] at size
  rw [eq, AccessFunc.readOut_add, AccessFunc.readOut_add, List.append_assoc,
    List.getElem?_append_right (by omega), size, Nat.add_sub_cancel_left,
    List.getElem?_append_left]
  rw [AccessFunc.readOut_length reads]
  rcases c.func.step_range with step | step <;> rw [step] <;> simp only [rounds] <;> omega

/-- The bytes given from the buffer of a chunk are the next ones of the transfer. -/
theorem sent_accounted (held : Accounted plug (s.accessed c.func (chunkLength s.vars) a))
    (plugged : ∀ p ∈ plug, s.board.cartridge = p.cartridge)
    (accepted : acceptedCommand s.log = some c) (going : InProgress c 0 s)
    (clear : s.vars.bulkReset = 0#32) (kept : Kept c s) (reading : c.task = .read)
    (progress : c.func.Progress ⟨s.board, []⟩ s.vars.bulkAddress s.vars.bulkBuffer
      (rounds (chunkLength s.vars).toNat c.func.step) a)
    {t : World} {new : List Event}
    (log : t.log = new ++ (s.accessed c.func (chunkLength s.vars) a).log)
    (all : ∀ e ∈ new, e.ofStream = true) {p : Nat} (most : p ≤ (chunkLength s.vars).toNat)
    (given : givesOf new = a.buffer.toList.take p) : Accounted plug t := by
  have reads : c.func.reads = true := (VueCommand.reads_iff going.defined).mpr reading
  rw [Accounted, log]
  refine held.append fun later e earlier split => ?_
  have inside (f : Event) (member : f ∈ earlier) : f.ofStream = true := all f <| by
    rw [split]
    exact List.mem_append_right _ (List.mem_cons_of_mem _ member)
  have ok : e.ofStream = true := all e <| by
    rw [split]
    exact List.mem_append_right _ (List.mem_cons_self ..)
  have none_ (f : Event) (member : f ∈ earlier) : f.accepted = none :=
    accepted_of_stream (inside f member)
  cases isGiven : e.given with
  | none => exact (plain_of_stream ok isGiven).account plug _
  | some x =>
      obtain rfl : e = .give x := by
        cases e with
        | give y => exact congrArg Event.give (Option.some.inj isGiven)
        | _ => exact nomatch isGiven
      refine ⟨nofun, nofun, fun y same => ⟨c, ?_, ?_⟩, nofun⟩
      · rw [acceptedCommand_append none_, accessed_accepted]
        exact accepted
      obtain rfl : x = y := Option.some.inj same
      -- the byte stands in the buffer at its place among the bytes of the chunk
      have here := occurrences_getElem split isGiven
      rw [show occurrences Event.given new = _ from given] at here
      obtain ⟨j, at_⟩ : ∃ j, (occurrences Event.given earlier).length = j := ⟨_, rfl⟩
      rw [at_] at here
      have less : j < p := by
        obtain ⟨less, -⟩ := List.getElem?_eq_some_iff.mp here
        rw [List.length_take] at less
        omega
      rw [List.getElem?_take_of_lt less] at here
      have before := kept.exchanged
      rw [VueCommand.exchanged, if_pos reading] at before
      have count (sound : Sound (sinceAccept s.log)) :
          (givesOf
            (sinceAccept (earlier ++ (s.accessed c.func (chunkLength s.vars) a).log))).length =
            c.moved s + j := by
        have silent := accessed_exchanged c s c.func (chunkLength s.vars) a
        rw [VueCommand.exchanged, VueCommand.exchanged, if_pos reading, if_pos reading] at silent
        rw [sinceAccept_append none_, givesOf, occurrences_append, List.length_append, at_]
        exact congrArg (· + j) ((congrArg List.length silent).trans (before sound))
      have past {P : List Event → Prop} (part : ∀ {newer older}, P (newer ++ older) → P older)
          (h : P (sinceAccept (earlier ++ (s.accessed c.func (chunkLength s.vars) a).log))) :
          P (sinceAccept s.log) := by
        rw [sinceAccept_append none_, accessed_since] at h
        rw [List.append_cons, ← List.append_assoc] at h
        exact part h
      have sounder := past (P := Sound) fun h => (Sound.append.mp h).2
      have chunk := chunkLength_toNat s.vars
      have bounded := going.bounded
      refine ⟨reading, fun sound => ?_, fun plugged_ member _ undisturbed sound => ?_⟩
      · rw [count (sounder sound), VueCommand.moved]
        omega
      · have fresh := kept.placed.fresh
          (past (P := Undisturbed) (fun h => (Undisturbed.append.mp h).2) undisturbed)
        have address := going.address clear
        rw [Nat.add_zero] at address
        rw [count (sounder sound), readOut_chunk going reads _ (by omega), ← address,
          ← plugged plugged_ member, ← progress.readOut reads fresh, progress.pos,
          List.getElem?_take_of_lt, here]
        rcases c.func.step_range with step | step <;> rw [step] <;> simp only [rounds] <;> omega

theorem vueBulkReadTask_books (held : Ledger plug s) (clear : s.vars.bulkReset = 0#32)
    (reading : s.vars.curVueState = .read) :
    wp vueBulkReadTask (fun _ t => Books plug t) (Accounted plug) s := by
  have busy : s.vars.curVueState ≠ .idle := by rw [reading]; decide
  obtain ⟨c, accepted, going⟩ := held.machine.tracked.progress busy
  have task : c.task = .read := going.task.symm.trans reading
  have kept := held.books.kept clear busy c accepted
  have unloaded : Loaded c s := fun writing => absurd (task.symm.trans writing) (by decide)
  obtain ⟨a, run, progress, bus, ahead, plugged, history, placed⟩ :=
    bulkAccess_books held.machine.bus going clear held.books.plugged held.books.history accepted
      kept.placed unloaded
  rw [vueBulkReadTask, wp_bind, wp_state, if_neg (by rw [going.phase]; decide), if_pos going.phase,
    wp_bind, wp_of_value run]
  have streamed := writeStream_streamed loadBuffer (chunkLength s.vars).toNat
    (s.accessed c.func (chunkLength s.vars) a)
  have spec := writeStream_spec (chunkLength_pos going) (chunkLength_le s.vars)
    (s.accessed c.func (chunkLength s.vars) a)
  have reset := writeStream_reset loadBuffer (chunkLength s.vars).toNat
    (s.accessed c.func (chunkLength s.vars) a)
  have moved := (sendChunk_unmoved (chunkLength s.vars).toNat
    (s.accessed c.func (chunkLength s.vars) a)).and ((sendChunk_touched (chunkLength s.vars).toNat
      (s.accessed c.func (chunkLength s.vars) a)).and
        (writeStream_keepsBus loadBuffer (chunkLength s.vars).toNat _ bus))
  have sent {t : World} (streamed : Streamed (s.accessed c.func (chunkLength s.vars) a) t)
      {new : List Event} (log : t.log = new ++ (s.accessed c.func (chunkLength s.vars) a).log)
      {p : Nat} (most : p ≤ (chunkLength s.vars).toNat)
      (given : givesOf new = a.buffer.toList.take p) : Accounted plug t := by
    obtain ⟨same, log', all, -⟩ := streamed.log
    obtain rfl := List.append_cancel_right (log'.symm.trans log)
    exact sent_accounted history held.books.plugged accepted going clear kept task progress log all
      most given
  refine wp.bind ((streamed.and ((spec.and reset).and moved)).mono (fun _ _ ends => ends)
    fun t cut => ?_) fun ok t ends => ?_
  · obtain ⟨streamed, ⟨⟨p, most, new, log, _, given, _⟩, _⟩, _⟩ := cut
    exact sent streamed log most given
  obtain ⟨streamed, ⟨⟨new, p, log, _, given, done, abandoned⟩, reset⟩, unmoved, touched, bus⟩ :=
    ends
  have most : p ≤ (chunkLength s.vars).toNat := by
    cases ok with
    | true =>
        rcases done rfl with ⟨-, all⟩ | ⟨-, fewer⟩
        · exact all.le
        · exact fewer.le
    | false => exact (abandoned rfl).2.le
  have history := sent streamed log most given
  have plugged (q : Plug) (member : q ∈ plug) : t.board.cartridge = q.cartridge := by
    rw [streamed.cartridge]
    · exact plugged q member
    · exact (bulkAccess_keepsBus (chunkLength_inside s.vars) s held.machine.bus).of_value run
        |>.ready
  have accepted := unmoved.accepted.trans ((accessed_accepted s _ _ a).trans accepted)
  have ahead := ahead.unmoved unmoved
  have same := chunkLength_unmoved unmoved
  have moved : c.moved t = c.moved s := by
    obtain ⟨_, _, _, _, vars⟩ := unmoved.vars
    rw [VueCommand.moved, vars]
    rfl
  rw [wp_ite]
  refine ⟨fun yes => ?_, fun no => ?_⟩
  · have placed := placed.streamed streamed touched
    rw [show chunkLength s.vars = chunkLength t.vars from same.symm] at ahead placed done ⊢
    rw [← moved] at placed
    refine endChunk_books bus plugged history accepted ahead placed (fun sound => ?_) fun u =>
      finishRead_books
    obtain ⟨all, log', stream, -⟩ := streamed.log
    obtain rfl := List.append_cancel_right (log'.symm.trans log)
    have since := sinceAccept_append (fun e member => accepted_of_stream (stream e member))
      (s.accessed c.func (chunkLength s.vars) a).log
    rw [← log] at since
    rw [since, Sound.append] at sound
    have count := (done yes).resolve_right fun failed => failed.1 sound.1
    have before := kept.exchanged fun e member => sound.2 e <| by
      rw [accessed_since]
      exact List.mem_append_right _ (List.mem_cons_of_mem _ member)
    have size : (givesOf all).length = (chunkLength t.vars).toNat := by
      rw [show givesOf all = _ from given, List.length_take, count.2]
      have small := chunkLength_le t.vars
      simp only [Vector.length_toList]
      omega
    rw [since, VueCommand.exchanged_append, accessed_exchanged, List.length_append, before, moved,
      VueCommand.exchanged, if_pos task, size]
  · have set := reset.2 (by simpa using no)
    exact
      { plugged := plugged, history := history
        kept := fun clear => absurd clear set
        ended := fun idle => absurd (ahead.task.symm.trans idle)
          (VueCommand.task_ne_idle ahead.defined) }

end Send

/-! ## Commands -/

/-- What a judgement says of the command, before it is known which it is. -/
theorem judged_of_received {s t : World} {new : List Event}
    (received : Received (fun v => v.curCommand.toBytes.toList) s new t)
    (packet : Vector Byte 32) (whole : takesOf new = packet.toList) :
    t.vars.curCommand.correct = .ofPacket packet := by
  rw [received_correct received, show occurrences Event.taken new = _ from whole]
  exact VueCommand.completed_whole _ packet

section Judge

variable {plug : Option Plug} {s : World}

theorem begun_books (bus : BusInvariant s) (plugged : ∀ p ∈ plug, s.board.cartridge = p.cartridge)
    (held : Accounted plug s) (defined : s.vars.curCommand.defined = true)
    (clamped : s.vars.curCommand.Clamped) (positive : s.vars.curCommand.length ≠ 0#32)
    (decoded : ∀ packet : Vector Byte 32, takesOf (sinceCommand s.log) = packet.toList →
      s.vars.curCommand = .ofPacket packet) :
    Books plug (s.begun s.vars.curCommand) := by
  obtain ⟨c, eq⟩ : ∃ c, c = s.vars.curCommand := ⟨_, rfl⟩
  rw [← eq] at defined clamped positive decoded ⊢
  have silent := vueWriteAddressFull_cycles bus.ready.resting c.start
  have board := (vueWriteAddressFull_spec (r := ⟨s.board, []⟩) bus.ready.resting.low
    c.start).choose_spec.2.1
  have begun : (s.begun c).log =
      portEvents .task s.board (vueWriteAddressFull c.start ⟨s.board, []⟩).seen ++
        .accept c :: s.log := rfl
  have addressed : (s.begun c).board = s.board.addressed c.start := board
  have plain := portEvents_plain silent
  have unmoved : ∀ e ∈ portEvents .task s.board (vueWriteAddressFull c.start ⟨s.board, []⟩).seen,
      e.taken = none ∧ e.given = none := fun e member => by
    obtain ⟨_, _, rfl⟩ := portEvents_kind _ _ _ e member
    exact ⟨rfl, rfl⟩
  generalize portEvents .task s.board (vueWriteAddressFull c.start ⟨s.board, []⟩).seen = ports
    at silent begun plain unmoved
  have since : sinceAccept (s.begun c).log = ports := by
    rw [begun]
    exact sinceAccept_accept (fun e member => (plain e member).accepted) c s.log
  have none_ : c.moved (s.begun c) = 0 := by
    show c.length.toNat - s.vars.curCommand.length.toNat = 0
    rw [← eq, Nat.sub_self]
  refine
    { plugged := fun p member => ?_, history := ?_, kept := fun _ _ d found => ?_
      ended := fun idle => absurd idle (VueCommand.task_ne_idle defined) }
  · rw [addressed]
    exact plugged p member
  · have accepted : History (Account plug) (.accept c :: s.log) := by
      refine ⟨⟨fun d same => ?_, nofun, nofun, nofun⟩, held⟩
      obtain rfl : c = d := Option.some.inj same
      exact ⟨clamped, ⟨fun _ => ⟨defined, positive⟩, fun _ => rfl⟩, decoded⟩
    rw [begun]
    exact accepted.append_of_forall fun e member past => (plain e member).account plug past
  · have accepted := begun_accepted s c
    obtain rfl : c = d := Option.some.inj (accepted.symm.trans found)
    refine ⟨⟨?_, fun _ => ?_⟩, fun _ => ?_⟩
    · rw [since, none_, show cyclesOf _ = [] from silent]
      rcases c.func.step_range with step | step <;> simp [VueCommand.words, rounds, step]
    · rw [addressed]
      exact .inr (Board.addressed_holdsHigh _ _)
    · rw [since, none_, c.exchanged_of_idle unmoved]
      rfl

theorem judgeCommand_books (bus : BusInvariant s)
    (plugged : ∀ p ∈ plug, s.board.cartridge = p.cartridge) (held : Accounted plug s)
    (idle : s.vars.curVueState = .idle)
    (ended : ∀ c, acceptedCommand s.log = some c →
      .finish ∈ sinceAccept s.log ∨ .resetBegin ∈ sinceAccept s.log)
    (decoded : ∀ packet : Vector Byte 32, takesOf (sinceCommand s.log) = packet.toList →
      s.vars.curCommand.correct = .ofPacket packet) :
    wp judgeCommand (fun _ t => Books plug t) (Accounted plug) s := by
  have clamped := VueCommand.correct_clamped s.vars.curCommand
  rw [judgeCommand, wp_bind, onVars, wp_modify, wp_bind, wp_state, wp_ite, wp_ite]
  -- the books of an idle firmware
  have still {t : World} (board : t.board = s.board) (vars : t.vars.curVueState = .idle)
      (new : List Event) (log : t.log = new ++ s.log) (none_ : ∀ e ∈ new, e.accepted = none)
      (history : Accounted plug t) : Books plug t := by
    refine
      { plugged := fun p member => by rw [board]; exact plugged p member
        history := history, kept := fun _ busy => absurd vars busy, ended := fun _ c found => ?_ }
    rw [log, acceptedCommand_append none_] at found
    rw [log, sinceAccept_append none_]
    exact (ended c found).imp (List.mem_append_right _) (List.mem_append_right _)
  refine ⟨fun defined => ⟨fun zero => ?_, fun positive => ?_⟩, fun undefined_ => ?_⟩
  · exact still rfl idle [.ignore s.vars.curCommand.correct] rfl (fun e member => by
      rw [List.mem_singleton.mp member]; rfl)
      ⟨account_of_unaccepted (.inl rfl) clamped (fun both => absurd zero both.2) decoded, held⟩
  · rw [wp_of_value (startCommand_eq defined)]
    exact begun_books ⟨⟨bus.ready.resting, bus.ready.selects, bus.ready.header⟩, bus.bulk, bus.log⟩
      plugged held defined clamped positive decoded
  · rw [wp_bind, note, wp_modify]
    have rejected : History (Account plug) (.reject s.vars.curCommand.correct :: s.log) := by
      exact ⟨account_of_unaccepted (.inr rfl) clamped
        (fun both => absurd both.1 undefined_) decoded,
        held⟩
    have quiet {t : World} (logs : Logs OfUsb { s with
        vars := { s.vars with curCommand := s.vars.curCommand.correct }
        log := .reject s.vars.curCommand.correct :: s.log } t) :
        Accounted plug t ∧ ∃ new, t.log = new ++ s.log ∧ ∀ e ∈ new, e.accepted = none := by
      obtain ⟨new, log, all⟩ := logs
      have plain : ∀ e ∈ new, e.Plain := fun e member => by
        have ok := all e member
        exact plain_of_control (by cases e <;> first | exact ok | cases ok)
      refine ⟨accounted_of_plain rejected log plain, new ++ [.reject s.vars.curCommand.correct],
        by rw [log, List.append_assoc]; rfl, fun e member => ?_⟩
      rcases List.mem_append.mp member with late | reject
      · exact (plain e late).accepted
      · rw [List.mem_singleton.mp reject]
        rfl
    refine (refuseOut_framed _).mono (fun _ t framed => ?_) fun _ framed => (quiet framed.log).1
    obtain ⟨history, new, log, none_⟩ := quiet framed.log
    exact still framed.board (by rw [framed.vars]; exact idle) new log none_ history

theorem vueCommandTask_books (held : Ledger plug s) (found : s.OutFound)
    (idle : s.vars.curVueState = .idle) :
    wp vueCommandTask (fun _ t => Books plug t) (Accounted plug) s := by
  have there : s.At vueCartReaderOutEpAddr := .inl found.selected
  rw [vueCommandTask, wp_bind, wp_state, wp_bind, note, wp_modify]
  have entered : History (Account plug) (.command s.vars.curCommand :: s.log) :=
    ⟨(command_plain _).account plug s.log, held.books.history⟩
  obtain ⟨u, eq⟩ : ∃ u : World, u = { s with log := .command s.vars.curCommand :: s.log } :=
    ⟨_, rfl⟩
  have log : u.log = .command s.vars.curCommand :: s.log := by rw [eq]
  have bus : BusInvariant u := by
    rw [eq]
    exact note_keepsBus (e := .command s.vars.curCommand) trivial s held.machine.bus
  have board : u.board = s.board := by rw [eq]
  have vars : u.vars = s.vars := by rw [eq]
  have at_ : u.At vueCartReaderOutEpAddr := by
    rw [eq]
    exact there
  rw [← eq]
  have streamed := readStream_streamed storeCommand (fun _ _ _ => ⟨_, _, rfl⟩) 32 u
  have plain := readStream_plain storeCommand 32 u
  have spec := readStream_spec (n := 32) command_memory (by decide) at_ (by simp)
  have kept :=
    readStream_keepsBus storeCommand (fun _ _ _ => rfl) (fun _ _ _ => ⟨rfl, rfl⟩) 32 u bus
  refine wp.bind (((streamed.and plain).and (spec.and kept)).mono (fun _ _ ends => ends)
    fun t cut => ?_) fun ok t ends => ?_
  · obtain ⟨new, added, plain⟩ := received_plain cut.1.1 cut.1.2
    rw [log] at added
    rw [Accounted, added]
    exact entered.append_of_forall fun e member past => (plain e member).account plug past
  obtain ⟨⟨streamed, given⟩, ⟨new, received, _⟩, bus⟩ := ends
  obtain ⟨same, added, plain⟩ := received_plain streamed given
  obtain rfl := List.append_cancel_right (received.log.symm.trans added)
  have none_ : ∀ e ∈ new, e.accepted = none := fun e member => (plain e member).accepted
  have history : Accounted plug t := by
    rw [Accounted, added, log]
    exact entered.append_of_forall fun e member past => (plain e member).account plug past
  have plugged (p : Plug) (member : p ∈ plug) : t.board.cartridge = p.cartridge := by
    rw [streamed.cartridge (by
      rw [eq]
      exact ⟨held.machine.bus.ready.resting, held.machine.bus.ready.selects,
        held.machine.bus.ready.header⟩), board]
    exact held.books.plugged p member
  have state : t.vars.curVueState = .idle := by
    obtain ⟨_, _, _, _, _, vars'⟩ := streamed.vars
    rw [vars', vars]
    exact idle
  have ended (c : VueCommand) (found : acceptedCommand t.log = some c) :
      .finish ∈ sinceAccept t.log ∨ .resetBegin ∈ sinceAccept t.log := by
    rw [added, log, acceptedCommand_append none_, acceptedCommand_cons rfl] at found
    rw [added, log, sinceAccept_append none_, sinceAccept_cons rfl]
    have member {e : Event} (member : e ∈ sinceAccept s.log) :
        e ∈ new ++ .command s.vars.curCommand :: sinceAccept s.log :=
      List.mem_append_right _ (List.mem_cons_of_mem _ member)
    exact (held.books.ended idle c found).imp member member
  rw [wp_ite]
  refine ⟨fun _ => judgeCommand_books bus plugged history state ended fun packet whole => ?_,
    fun _ => ⟨plugged, history, fun _ busy => absurd state busy, fun _ => ended⟩⟩
  refine judged_of_received received packet ?_
  rw [added, log, sinceCommand_command] at whole
  · exact whole
  · intro e member old same
    obtain ⟨stream, log', all, -⟩ := streamed.log
    rw [same] at member
    rw [List.append_cancel_right (added.symm.trans log')] at member
    cases all _ member

end Judge

/-! ## Runs -/

theorem plain_of_reset {e : Event} (ok : e.ofReset = true) : e.Plain := by
  cases e with
  | port actor before after =>
      cases actor with
      | main => exact ⟨rfl, rfl, rfl, nofun⟩
      | _ => exact nomatch ok
  | give x => exact nomatch ok
  | accept c => exact nomatch ok
  | ignore c => exact nomatch ok
  | reject c => exact nomatch ok
  | finish => exact nomatch ok
  | _ => exact ⟨rfl, rfl, rfl, nofun⟩

theorem resetBlock_books {plug : Option Plug} {s : World} (held : Ledger plug s) :
    wp resetBlock (fun _ t => Books plug t) (Accounted plug) s := by
  have begun : History (Account plug) (.resetBegin :: s.log) :=
    ⟨resetBegin_plain.account plug s.log, held.books.history⟩
  obtain ⟨u, eq⟩ : ∃ u : World, u = { s with log := .resetBegin :: s.log } := ⟨_, rfl⟩
  have log : u.log = .resetBegin :: s.log := by rw [eq]
  have board : u.board = s.board := by rw [eq]
  have ready : u.BusReady := by
    rw [eq]
    exact ⟨held.machine.bus.ready.resting, held.machine.bus.ready.selects,
      held.machine.bus.ready.header⟩
  have history {t : World} (moved : InBlock u t) : Accounted plug t ∧
      ∃ new, t.log = new ++ .resetBegin :: s.log ∧ ∀ e ∈ new, e.Plain := by
    obtain ⟨new, added, all⟩ := moved.log
    have plain : ∀ e ∈ new, e.Plain := fun e member => plain_of_reset (all e member)
    rw [log] at added
    refine ⟨?_, new, added, plain⟩
    rw [Accounted, added]
    exact begun.append_of_forall fun e member past => (plain e member).account plug past
  rw [resetBlock, note, wp_bind, wp_modify, ← eq]
  refine wp.bind (((restoreDefaultState_inBlock u).and (restoreDefaultState_board ready)).mono
    (fun _ _ ends => ends) fun t cut => (history cut.1).1) fun _ t ends => ?_
  obtain ⟨moved, idle, final⟩ := ends
  obtain ⟨accounted, new, added, plain⟩ := history moved
  refine
    { plugged := fun p member => ?_, history := ?_, kept := fun _ busy => absurd idle busy
      ended := fun _ c _ => .inr ?_ }
  · have same : u.board.cartridge = p.cartridge := by
      rw [board]
      exact held.books.plugged p member
    exact (congrArg Board.cartridge final).trans same
  · exact ⟨resetEnd_plain.account plug _, accounted⟩
  · show _ ∈ sinceAccept (.resetEnd :: t.log)
    rw [sinceAccept_cons rfl, added, sinceAccept_append fun e member => (plain e member).accepted,
      sinceAccept_cons rfl]
    exact List.mem_cons_of_mem _ (List.mem_append_right _ (List.mem_cons_self ..))

/-- The endpoint operations of the tasks leave the books alone. -/
theorem ledger_endpoints (plug : Option Plug) :
    EndpointsKeep (Ledger plug) (Accounted plug) := by
  refine .of_framed (fun e ok s held => ?_) (ledger_of_framed plug) fun _ held =>
    held.books.history
  have quiet : e.Quiescent := by
    cases e with
    | outReceived s => exact ⟨⟨rfl, rfl, rfl, nofun⟩, rfl⟩
    | inReady s => exact ⟨⟨rfl, rfl, rfl, nofun⟩, rfl⟩
    | operate o x => exact ⟨⟨rfl, rfl, rfl, nofun⟩, rfl⟩
    | _ => exact nomatch ok
  have touched : Touched s { s with log := e :: s.log } := .of_board rfl rfl [e] rfl
  have unmoved : Unmoved s { s with log := e :: s.log } :=
    ⟨⟨_, _, _, _, rfl⟩, acceptedCommand_cons quiet.1.accepted s.log, id, fun _ => .inl rfl⟩
  refine ⟨⟨note_keepsBus (by cases e <;> trivial) s held.machine.bus,
    held.machine.tracked.unmoved unmoved held.machine.bus.ready⟩, ?_⟩
  have log : ({ s with log := e :: s.log } : World).log = [e] ++ s.log := rfl
  exact held.books.extended log
    (fun _ member => by rwa [List.mem_singleton.mp member]) touched unmoved rfl

theorem ledger_tasks (plug : Option Plug) :
    TasksKeep (Ledger plug) (Ledger plug) (Accounted plug) := by
  have weaker (s : World) (held : Ledger plug s) : Accounted plug s := held.books.history
  have framed := ledger_of_framed plug
  -- the machine is kept anyway
  have both {m : Fw Unit} {s : World} (keeps : KeepsBus m) (held : Ledger plug s)
      (tracked : wp m (fun _ t => Tracked t) Anywhere s)
      (books : wp m (fun _ t => Books plug t) (Accounted plug) s) :
      wp m (fun _ t => Ledger plug t) (Accounted plug) s :=
    ((machine_of_tracked keeps held.machine.bus tracked).and books).mono
      (fun _ _ ends => ⟨ends.1, ends.2⟩) fun _ cut => cut.2
  exact
    { command := fun s held found idle => both vueCommandTask_keepsBus held
        (vueCommandTask_tracked held.machine idle) (vueCommandTask_books held found idle)
      write := fun s held found writing => both vueBulkWriteTask_keepsBus held
        (vueBulkWriteTask_tracked held.machine (by rw [writing]; exact nofun))
        (vueBulkWriteTask_books held found writing)
      refuse := fun s held _ _ _ => Stays.of_moves refuseOut_framed framed weaker s held
      free := fun s x held => Stays.of_moves (endpointClearOut_framed .task) framed weaker _
        ((ledger_endpoints plug).note (.operate .clearOut x) rfl s held)
      read := fun s held clear reading _ => both vueBulkReadTask_keepsBus held
        (vueBulkReadTask_tracked held.machine (by rw [reading]; exact nofun))
        (vueBulkReadTask_books held clear reading) }

theorem vueTask_keepsLedger (plug : Option Plug) :
    Stays (Ledger plug) (Accounted plug) vueTask :=
  vueTask_stays (ledger_endpoints plug) (ledger_tasks plug)

theorem resetBlock_keepsLedger (plug : Option Plug) :
    Stays (Ledger plug) (Accounted plug) resetBlock := fun s held =>
  ((resetBlock_keepsMachine s held.machine).and (resetBlock_books held)).mono
    (fun _ _ ends => ⟨ends.1, ends.2⟩) fun _ cut => cut.2

theorem mainIteration_keepsLedger (plug : Option Plug) :
    Stays (Ledger plug) (Accounted plug) mainIteration :=
  mainIteration_stays (usbUsbTask_keepsLedger plug) (vueTask_keepsLedger plug)
    fun s held _ => resetBlock_keepsLedger plug s held

theorem Ledger.offer {plug : Option Plug} {w : World} (held : Ledger plug w) {i : Input}
    (plugged : ∀ p ∈ plug, i.cartridge = p.cartridge) : Ledger plug (w.offer i) where
  machine := held.machine.offer i
  books :=
    { plugged := plugged, history := held.books.history
      kept := fun clear busy c found =>
        ⟨⟨(held.books.kept clear busy c found).placed.cycles,
          (held.books.kept clear busy c found).placed.fresh⟩,
          (held.books.kept clear busy c found).exchanged⟩
      ended := held.books.ended }

/-- **The books are kept.** Whatever the surroundings do, each event of a run stands where
the command accepted last puts it; while one cartridge is plugged in, the bytes given to
the host are its. -/
theorem mainLoop_keepsLedger (plug : Option Plug) (inputs : List Input)
    (plugged : ∀ i ∈ inputs, ∀ p ∈ plug, i.cartridge = p.cartridge) :
    Stays (Ledger plug) (Accounted plug) (mainLoop inputs) :=
  mainLoop_stays inputs (fun i member _ held => held.offer (plugged i member))
    (mainIteration_keepsLedger plug)

theorem Started.ledger {w : World} (started : Started w) : Ledger none w := by
  have machine := started.machine
  obtain ⟨_, _, _, _, _, rfl⟩ := started
  exact ⟨machine,
    { plugged := nofun, history := trivial, kept := fun _ busy => absurd rfl busy
      ended := nofun }⟩

end VueCartReader
