import VueCartReader.Program.Acceptor
import VueCartReader.Transfer.Recall

/-!
# A dialogue with the reader

To a host that keeps to the rules the reader and its cartridge are a memory. An `Exchange` is a
command with its data: a write changes the words that it names, and a read gets what they hold
(`memoryDevice`). Between the exchanges anything may happen that lets no command be accepted.

Every dialogue of the firmware is one of the memory, and the memory at its end is what the bus
cycles have left in the cartridge (`dialogue_remembered`).
-/

set_option autoImplicit false

namespace VueCartReader

open Program

/-! ## The memory -/

/-- The 32 bytes of a command, and the data that the host sends or gets. -/
structure Exchange where
  packet : Vector Byte 32
  data : List Byte

/-- The first word that a command names. -/
def firstWord (packet : Vector Byte 32) : BitVec 23 :=
  ((addressOf packet &&& 0xFFFFFF#32) >>> 1).setWidth 23

namespace Exchange

def flags (x : Exchange) : Byte := flagBits (flagsOf (targetOf x.packet))

/-- The words that the data fills. -/
def words (x : Exchange) : Nat :=
  if modeOf x.packet = 0#8 then x.data.length / 2 else x.data.length

/-- How far after the first word of the command a word comes. -/
def offset (x : Exchange) (word : BitVec 23) : Nat := (word - firstWord x.packet).toNat

/-- What the `k`-th word holds after a write. -/
def word (x : Exchange) (old : Byte × Byte) (k : Nat) : Byte × Byte :=
  if modeOf x.packet = 0#8 then (x.data.getD (2 * k) 0#8, x.data.getD (2 * k + 1) 0#8)
  else (x.data.getD k 0#8, old.2)

end Exchange

/-- The cartridge after a write. -/
def Cartridge.store (m : Cartridge) (x : Exchange) : Cartridge := fun chip word =>
  if chips chip = chips x.flags ∧ x.offset word < x.words then
    x.word (m chip word) (x.offset word)
  else m chip word

/-- A memory that is written and read. -/
def memoryDevice (m : Cartridge) : Acceptor Cartridge Exchange where
  start := m
  next m x :=
    if operationOf x.packet = 1#32 then some (m.store x)
    else if x.data = bytesOf x.packet m then some m
    else none

/-- The cycles of a write store its data. -/
theorem after_storesOf (stray : Byte) (m : Cartridge) {packet : Vector Byte 32} {data : List Byte}
    (fits : (storesOf packet data).length ≤ 2 ^ 23) :
    m.after stray (storesOf packet data) = m.store ⟨packet, data⟩ := by
  funext chip word
  simp only [storesOf, List.length_map, List.length_range] at fits
  have counted {k : Nat} (inside : k < 2 ^ 23) :
      Exchange.offset ⟨packet, data⟩ (firstWord packet + BitVec.ofNat 23 k) = k := by
    rw [Exchange.offset, BitVec.add_comm, BitVec.add_sub_cancel, BitVec.toNat_ofNat]
    exact Nat.mod_eq_of_lt inside
  by_cases here : chips chip = chips (Exchange.flags ⟨packet, data⟩) ∧
      Exchange.offset ⟨packet, data⟩ word < Exchange.words ⟨packet, data⟩
  · rw [Cartridge.store, if_pos here]
    obtain ⟨same, inside⟩ := here
    generalize found : Exchange.offset ⟨packet, data⟩ word = k at inside ⊢
    have place : word = firstWord packet + BitVec.ofNat 23 k := by
      rw [← found, Exchange.offset, BitVec.ofNat_toNat, BitVec.setWidth_eq, BitVec.add_comm,
        BitVec.sub_add_cancel]
    rw [place]
    refine (Cartridge.after_run stray m (selects_flagsOf (targetOf packet)) same (firstWord packet)
      (fun k => (storeOf packet data k).drive) fits inside).trans ?_
    unfold storeOf Exchange.word
    split <;> rfl
  · rw [Cartridge.store, if_neg here]
    refine Cartridge.after_untouched stray m fun y member touches => here ?_
    obtain ⟨k, below, rfl⟩ := List.mem_map.mp member
    have inside := List.mem_range.mp below
    refine ⟨touches.chip, ?_⟩
    rw [touches.word]
    exact (counted (lt_of_lt_of_le inside fits)).trans_lt inside

/-! ## Dialogues -/

/-- The last command that was accepted has come to its end. -/
def Over (log : List Event) : Prop :=
  ∀ c, acceptedCommand log = some c → .finish ∈ sinceAccept log

/-- Some rounds in which one exchange takes place, or none. -/
inductive Dialogue (start : World) : List Input → List Exchange → World → Prop where
  | start : Dialogue start [] [] start
  | pause {inputs more : List Input} {xs : List Exchange} {v w : World} {mid : List Event}
      (talk : Dialogue start inputs xs v) (run : mainLoop more v = .value () w)
      (log : w.log = mid ++ v.log) (none_ : occurrences Event.accepted mid = []) :
      Dialogue start (inputs ++ more) xs w
  | write {inputs more : List Input} {xs : List Exchange} {v w : World} {mid : List Event}
      {packet : Vector Byte 32} {data : List Byte}
      (talk : Dialogue start inputs xs v) (run : mainLoop more v = .value () w)
      (log : w.log = mid ++ v.log) (one : occurrences Event.accepted mid = [.ofPacket packet])
      (write : WholeWrite packet) (size : data.length = (lengthOf packet).toNat)
      (fits : (storesOf packet data).length ≤ 2 ^ 23)
      (session : ChunkSession packet data w.log) (rested : Over w.log) :
      Dialogue start (inputs ++ more) (xs ++ [⟨packet, data⟩]) w
  | read {inputs more : List Input} {xs : List Exchange} {v w : World} {mid : List Event}
      {packet : Vector Byte 32}
      (talk : Dialogue start inputs xs v) (run : mainLoop more v = .value () w)
      (log : w.log = mid ++ v.log) (one : occurrences Event.accepted mid = [.ofPacket packet])
      (read : WholeRead packet) (session : CalmSession packet w.log)
      (idle : w.vars.curVueState = .idle) :
      Dialogue start (inputs ++ more) (xs ++ [⟨packet, deliveredOf (sinceAccept w.log)⟩]) w

/-! ## What is accepted on the way -/

theorem mem_accepted {log : List Event} {c : VueCommand} (member : .accept c ∈ log) :
    c ∈ occurrences Event.accepted log := by
  rw [occurrences, List.mem_reverse, List.mem_filterMap]
  exact ⟨_, member, rfl⟩

theorem none_of_occurrences {α : Type} {kind : Event → Option α} {log : List Event}
    (none_ : occurrences kind log = []) : ∀ e ∈ log, kind e = none := by
  rw [occurrences, List.reverse_eq_nil_iff, List.filterMap_eq_nil_iff] at none_
  exact none_

/-- What occurs once has nothing of its kind on either side. -/
theorem split_of_one {α : Type} {kind : Event → Option α} {log : List Event} {x : α}
    (one : occurrences kind log = [x]) :
    ∃ later e earlier, log = later ++ e :: earlier ∧ kind e = some x ∧
      (∀ f ∈ later, kind f = none) ∧ ∀ f ∈ earlier, kind f = none := by
  have member : x ∈ occurrences kind log := by
    rw [one]
    exact List.mem_singleton_self x
  obtain ⟨later, e, earlier, rfl, found⟩ := mem_occurrences member
  have length := congrArg List.length one
  rw [occurrences_append, occurrences_cons, found] at length
  simp only [List.length_append, Option.toList_some, List.length_singleton] at length
  refine ⟨later, e, earlier, rfl, found, none_of_occurrences ?_, none_of_occurrences ?_⟩
  · exact List.eq_nil_of_length_eq_zero (by omega)
  · exact List.eq_nil_of_length_eq_zero (by omega)

namespace Over

variable {mid past : List Event}

/-- When the last command is over, only one that is accepted later may write. -/
theorem accept_of_mayWrite (rested : Over past) {c : VueCommand} (may : MayWrite mid past c) :
    .accept c ∈ mid :=
  may.2.resolve_right fun ⟨found, going⟩ => going (rested c found)

/-- What comes after the end keeps it. -/
theorem append (rested : Over past) (none_ : occurrences Event.accepted mid = []) :
    Over (mid ++ past) := by
  intro c found
  have quiet := none_of_occurrences none_
  rw [acceptedCommand_append quiet] at found
  rw [sinceAccept_append quiet]
  exact List.mem_append_right _ (rested c found)

end Over

/-! ## The memory follows -/

theorem Remembers.of_append {stray : Byte} {m : Cartridge} {start : World}
    {first second : List Input}
    (remembers : Remembers stray m start (first ++ second)) : Remembers stray m start first := by
  rintro earlier i later w rfl returned
  exact remembers earlier i (later ++ second) w (by simp) returned

section Rounds

variable {start v w : World} (started : Started start) {inputs more : List Input}
  (before : mainLoop inputs start = .value () v) (run : mainLoop more v = .value () w)
  {mid : List Event} (log : w.log = mid ++ v.log) (rested : Over v.log)
include started before run log rested

/-- While no command to write is accepted the memory stays what it is. -/
theorem recorded_still (stray : Byte) (m : Cartridge) {later newer : List Event}
    (split : mid = later ++ newer) (none_ : ∀ c, .accept c ∈ newer → c.task ≠ .write) :
    m.recorded stray (newer ++ v.log) = m.recorded stray v.log := by
  have whole : (mainLoop (inputs ++ more) start).state.log = later ++ (newer ++ v.log) := by
    rw [mainLoop_append before, run, ← List.append_assoc, ← split]
    exact log
  funext chip word
  exact recorded_untouched started whole stray m fun c may =>
    absurd may.1 (none_ c (rested.accept_of_mayWrite may))

/-- A write that comes to its end is stored. -/
theorem recorded_write {stray : Byte} {m : Cartridge} {packet : Vector Byte 32} {data : List Byte}
    (one : occurrences Event.accepted mid = [.ofPacket packet]) (write : WholeWrite packet)
    (size : data.length = (lengthOf packet).toNat)
    (fits : (storesOf packet data).length ≤ 2 ^ 23) (session : ChunkSession packet data w.log)
    (ended : Over w.log) :
    m.recorded stray w.log = (m.recorded stray v.log).store ⟨packet, data⟩ := by
  obtain ⟨later, e, earlier, split, found, quiet, quiet'⟩ := split_of_one one
  have reached : mainLoop (inputs ++ more) start = .value () w :=
    (mainLoop_append before more).trans run
  obtain ⟨c, command⟩ := Option.ne_none_iff_exists'.mp session.session.session.accepted
  -- the cycles since the command was accepted are those that store the data
  have stores : cyclesOf (sinceAccept w.log) = storesOf packet data :=
    (storesExactly_of_inChunks started (inputs ++ more) write size).complete [] w.log
      (congrArg (fun e => e.state.log) reached) session (ended c command)
  have whole : w.log = later ++ e :: (earlier ++ v.log) := by
    rw [log, split, List.append_assoc]
    rfl
  have since : sinceAccept w.log = later := by
    rw [whole]
    cases e with
    | accept d => exact sinceAccept_accept quiet d _
    | _ => cases found
  have only : ∀ f ∈ w.log, f.OnlyTask := fun f member =>
    mainLoop_onlyTasks started (inputs ++ more) f (by rwa [reached])
  have until_ : m.after stray (cyclesOf (earlier ++ v.log)) = m.recorded stray v.log := by
    have still := recorded_still started before run log rested stray m
      (split.trans (List.append_cons later e earlier)) fun d member =>
        absurd (quiet' _ member) (Option.some_ne_none d)
    rw [← still]
    refine (Cartridge.recorded_tasks stray m fun f member => only f ?_).symm
    rw [whole]
    exact List.mem_append_right _ (List.mem_cons_of_mem _ member)
  have cycles : cyclesOf w.log = cyclesOf (earlier ++ v.log) ++ storesOf packet data := by
    rw [← stores, since]
    conv_lhs => rw [whole]
    rw [cyclesOf, cyclesOf, cyclesOf, occurrences_append, occurrences_cons]
    cases e with
    | accept d => simp [Event.cycle]
    | _ => cases found
  rw [Cartridge.recorded_tasks stray m only, cycles, Cartridge.after_append, until_,
    after_storesOf stray _ fits]

/-- A read that comes to its end has delivered what is stored, and has changed nothing. -/
theorem delivered_read {stray : Byte} {m : Cartridge}
    (remembers : Remembers stray m start (inputs ++ more))
    {packet : Vector Byte 32} (one : occurrences Event.accepted mid = [.ofPacket packet])
    (read : WholeRead packet) (session : CalmSession packet w.log)
    (idle : w.vars.curVueState = .idle) :
    m.recorded stray w.log = m.recorded stray v.log ∧ .finish ∈ sinceAccept w.log ∧
      deliveredOf (sinceAccept w.log) = bytesOf packet (m.recorded stray v.log) := by
  have reads (c : VueCommand) (member : .accept c ∈ mid) : c.task ≠ .write := by
    have same := mem_accepted member
    rw [one, List.mem_singleton] at same
    rw [same, read.task]
    decide
  have accepted : acceptedCommand mid ≠ none := by
    obtain ⟨later, e, earlier, rfl, found, quiet, -⟩ := split_of_one one
    rw [acceptedCommand_append quiet, acceptedCommand, List.findSome?_cons, found]
    exact Option.some_ne_none _
  have still (c : VueCommand) : ¬ MayWrite mid v.log c := fun may =>
    absurd may.1 (reads c (rested.accept_of_mayWrite may))
  refine ⟨?_, (remembers.delivered started before run read log still accepted session).2 idle⟩
  rw [log]
  exact recorded_still started before run log rested stray m (List.nil_append mid).symm reads

end Rounds

namespace Dialogue

variable {start w : World} {inputs : List Input} {xs : List Exchange}

theorem run (talk : Dialogue start inputs xs w) : mainLoop inputs start = .value () w := by
  induction talk with
  | start => rfl
  | pause _ run _ _ ih => exact (mainLoop_append ih _).trans run
  | write _ run _ _ _ _ _ _ _ ih => exact (mainLoop_append ih _).trans run
  | read _ run _ _ _ _ _ ih => exact (mainLoop_append ih _).trans run

/-- Between two exchanges nothing is going on, and the memory holds what has been stored. -/
theorem stored (started : Started start) {stray : Byte} {m : Cartridge}
    (remembers : Remembers stray m start inputs) (talk : Dialogue start inputs xs w) :
    Over w.log ∧ (memoryDevice m).accepts xs = some (m.recorded stray w.log) := by
  induction talk with
  | start =>
      obtain ⟨_, _, _, _, _, rfl⟩ := started
      refine ⟨fun c found => ?_, rfl⟩
      cases found
  | pause talk run log none_ ih =>
      obtain ⟨rested, accepted⟩ := ih remembers.of_append
      refine ⟨log ▸ rested.append none_, ?_⟩
      have still := recorded_still started talk.run run log rested stray m (List.nil_append _).symm
        fun c member => absurd (none_of_occurrences none_ _ member) (Option.some_ne_none c)
      rw [accepted, log, still]
  | write talk run log one write size fits session ended ih =>
      obtain ⟨rested, accepted⟩ := ih remembers.of_append
      refine ⟨ended, ?_⟩
      rw [Acceptor.accepts, Acceptor.run_snoc]
      rw [Acceptor.accepts] at accepted
      rw [accepted,
        recorded_write started talk.run run log rested one write size fits session ended]
      exact if_pos write.writes
  | read talk run log one read session idle ih =>
      obtain ⟨rested, accepted⟩ := ih remembers.of_append
      obtain ⟨still, finished, delivered⟩ :=
        delivered_read started talk.run run log rested remembers one read session idle
      refine ⟨fun _ _ => finished, ?_⟩
      rw [Acceptor.accepts, Acceptor.run_snoc]
      rw [Acceptor.accepts] at accepted
      rw [accepted, still]
      have other : ¬ operationOf _ = 1#32 := fun writes => by
        have clash := read.reads.symm.trans writes
        exact absurd clash (by decide)
      exact (if_neg other).trans (if_pos delivered)

end Dialogue

/-- **To an orderly host the reader is a memory.** With a cartridge that remembers, every
dialogue of the firmware, with pauses in which anything else may happen, is one that the memory
can have: every read gets what the writes before it have left. The cartridge holds at the end
what the memory holds. -/
theorem dialogue_remembered {start w : World} (started : Started start) {inputs : List Input}
    {xs : List Exchange} {stray : Byte} {m : Cartridge} (remembers : Remembers stray m start inputs)
    (talk : Dialogue start inputs xs w) :
    (memoryDevice m).accepts xs = some (m.recorded stray w.log) :=
  (talk.stored started remembers).2

/-- The dialogue of `storeInputs` and `fetchInput`. -/
theorem dialogue_word : Dialogue wordStart (([] ++ storeInputs 2#32 wordData) ++ [fetchInput])
    (([] ++ [⟨storePacket 2#32, wordData.val⟩]) ++
      [⟨fetchPacket, deliveredOf (sinceAccept fetchEnd.log)⟩]) fetchEnd := by
  have fits : (storesOf (storePacket 2#32) wordData.val).length ≤ 2 ^ 23 := by decide +kernel
  have size : wordData.val.length = (lengthOf (storePacket 2#32)).toNat := by decide +kernel
  have wrote : occurrences Event.accepted (storeEnd 2#32 wordData).log =
      [.ofPacket (storePacket 2#32)] := by decide +kernel
  have read : occurrences Event.accepted fetchLog = [.ofPacket fetchPacket] := by decide +kernel
  have stored := Dialogue.write .start storeEnd_returned (List.append_nil _).symm wrote
    wholeWrite_word size fits storeSession_word.1.inChunks fun _ _ => storeSession_word.2
  exact stored.read fetchEnd_returned fetchEnd_log read wholeRead_word fetchSession_word
    (by decide +kernel)

/-- A word that is stored and fetched is stored and fetched in the memory. -/
theorem dialogue_remembered_word :
    (memoryDevice plainCartridge).accepts
        [⟨storePacket 2#32, wordData.val⟩, ⟨fetchPacket, deliveredOf (sinceAccept fetchEnd.log)⟩] =
      some (Cartridge.recorded 0#8 plainCartridge fetchEnd.log) :=
  dialogue_remembered wordStart_started remembers_word dialogue_word

end VueCartReader
