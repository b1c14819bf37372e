import VueCartReader.Transfer.Banks
import VueCartReader.Transfer.Latches
import VueCartReader.Transfer.Delivery
import VueCartReader.Transfer.Occupied

/-!
# What a session inherits

When the host configures the device a new session begins. The handler of that event configures
the endpoints, which empties their banks, and nothing else. If it comes when no command is being
executed or taken in, or when a reset is due, the new session has nothing to do with the one
before: whatever the tasks strobe and send afterwards belongs to a command that has been received
since (`configuration_inherits_nothing`).

If it comes in the middle of a transfer the transfer goes on, and the first packet of the new
session is written into the cartridge as its data (`configuration_inherits_write`).
-/

set_option autoImplicit false

namespace VueCartReader

open Program

/-! ## The condition -/

/-- Nothing of a command is left: none is being executed, and no byte has been taken of one that
is being received. Or else a reset is due, which is the end of it. -/
def Unladen (past : List Event) : Prop :=
  resetPending past = true ∨
    executing past = false ∧ (receiving past = true → takesOf (sinceCommand past) = [])

instance (past : List Event) : Decidable (Unladen past) :=
  inferInstanceAs (Decidable (_ ∨ _ ∧ (_ → _)))

/-- A session begins with nothing left of another one, and none of its commands is judged after
a stream call has failed. -/
structure CleanSession (older later : List Event) : Prop where
  unladen : Unladen older
  sound : ∀ newer c since, later = newer ++ .accept c :: since →
    Sound (sinceCommand (since ++ .configurationChanged :: older))

/-! ## What the log says of a session -/

section Session

variable {since older : List Event}

/-- What is being executed was accepted in the session, or before. -/
theorem executing_since (busy : executing (since ++ .configurationChanged :: older) = true) :
    (∃ c, acceptedCommand since = some c) ∨ (executing older = true ∧ .resetEnd ∉ since) := by
  induction since with
  | nil => exact .inr ⟨busy, List.not_mem_nil⟩
  | cons e since ih =>
      cases e with
      | accept c => exact .inl ⟨c, rfl⟩
      | finish => cases busy
      | resetEnd => cases busy
      | _ =>
          rcases ih busy with ⟨c, accepted⟩ | ⟨before, none_⟩
          · exact .inl ⟨c, accepted⟩
          · refine .inr ⟨before, fun member => ?_⟩
            rcases List.mem_cons.mp member with eq | inside
            · cases eq
            · exact none_ inside

/-- A reset that is due stays due until a reset block ends. -/
theorem resetPending_since (none_ : .resetEnd ∉ since) (due : resetPending older = true) :
    resetPending (since ++ .configurationChanged :: older) = true := by
  have open_ : ∀ e ∈ since, e ≠ .resetEnd := fun e member eq => none_ (eq ▸ member)
  rw [resetPending_append open_]
  show (resetRequested since || resetPending older) = true
  rw [due, Bool.or_true]

/-- In a session that began with nothing left, what is being executed was accepted in it. -/
theorem Unladen.accepted (unladen : Unladen older)
    (busy : executing (since ++ .configurationChanged :: older) = true)
    (clear : resetPending (since ++ .configurationChanged :: older) = false) :
    ∃ c, acceptedCommand since = some c := by
  rcases executing_since busy with accepted | ⟨before, none_⟩
  · exact accepted
  · rcases unladen with due | ⟨idle, -⟩
    · rw [resetPending_since none_ due] at clear
      cases clear
    · rw [idle] at before
      cases before

/-- What is being received was begun in the session, or before. -/
theorem receiving_since (hears : receiving (since ++ .configurationChanged :: older) = true) :
    sinceCommand (since ++ .configurationChanged :: older) = sinceCommand since ∨
      (receiving older = true ∧ .resetEnd ∉ since ∧
        sinceCommand (since ++ .configurationChanged :: older) =
          since ++ .configurationChanged :: sinceCommand older) := by
  induction since with
  | nil => exact .inr ⟨hears, List.not_mem_nil, rfl⟩
  | cons e since ih =>
      cases e with
      | command old => exact .inl rfl
      | accept c => cases hears
      | ignore c => cases hears
      | reject c => cases hears
      | resetEnd => cases hears
      | _ =>
          rcases ih hears with same | ⟨before, none_, same⟩
          · exact .inl (congrArg (List.cons _) same)
          · refine .inr ⟨before, fun member => ?_, congrArg (List.cons _) same⟩
            rcases List.mem_cons.mp member with eq | inside
            · cases eq
            · exact none_ inside

/-- In such a session, the bytes of a command that is being received came in it. -/
theorem Unladen.heard (unladen : Unladen older)
    (hears : receiving (since ++ .configurationChanged :: older) = true)
    (clear : resetPending (since ++ .configurationChanged :: older) = false) :
    takesOf (sinceCommand (since ++ .configurationChanged :: older)) <:+ takesOf since := by
  rcases receiving_since hears with same | ⟨before, none_, same⟩
  · rw [same]
    obtain ⟨rest, split⟩ : sinceCommand since <+: since := List.takeWhile_prefix _
    rw [← split, takesOf, takesOf, occurrences_append, split]
    exact List.suffix_append _ _
  · rcases unladen with due | ⟨-, unheard⟩
    · rw [resetPending_since none_ due] at clear
      cases clear
    · rw [same, takesOf, occurrences_append, occurrences_cons]
      rw [show occurrences Event.taken (sinceCommand older) = [] from unheard before]
      exact List.suffix_refl _

end Session

/-! ## A new session -/

/-- The last command of a session so far: its 32 bytes were sent and taken in the session, and
they are well formed. -/
structure Received32 (since earlier : List Event) (c : VueCommand) (packet : Vector Byte 32) :
    Prop where
  log : since = sinceAccept since ++ .accept c :: earlier
  command : c = .ofPacket packet
  formed : WellFormed packet
  positive : lengthOf packet ≠ 0#32
  taken : packet.toList <:+ takesOf earlier
  sent : (takesOf earlier).Sublist (sentOf earlier)

/-- A command that the session has received, and is executing. -/
def OfSession (since : List Event) (c : VueCommand) : Prop :=
  ∃ earlier packet, Received32 since earlier c packet

/-- What happens in a session has nothing to do with the one before: a strobe of the task is the
next one of a command of the session, and a byte for the host is one of its bytes; what is taken
from the host belongs to such a command, or is taken in as one by `VUE_Command_Task`; and all
that comes out of the banks has been put into them in the session. -/
structure Anew (older since : List Event) (e : Event) : Prop where
  strobe : ∀ y, e.cycle = some y → ∃ c, OfSession since c ∧ NextCycle c (sinceAccept since) y
  given : ∀ x, e.given = some x → ∃ c, OfSession since c ∧ c.task = .read
  taken : ∀ x, e.taken = some x → (∃ c, OfSession since c) ∨
    (receiving (since ++ .configurationChanged :: older) = true ∧
      takesOf (sinceCommand (since ++ .configurationChanged :: older)) <:+ takesOf since)
  own : Own since

/-- What is known of the log of a run. -/
structure Chronicle (log : List Event) : Prop where
  belongs : History Belongs log
  honoured : History Honoured log
  accounted : History (Account none) log
  own : History (fun _ past =>
    ∀ since older, past = since ++ .configurationChanged :: older → Own since) log

theorem Started.chronicle {start : World} (started : Started start) (inputs : List Input) :
    Chronicle (mainLoop inputs start).state.log where
  belongs := mainLoop_owned started inputs
  honoured := ((mainLoop_keepsReset inputs).exit (fun _ => id) started.resetInvariant).log
  accounted := (mainLoop_keepsLedger none inputs fun _ _ _ found => by cases found).exit
    (fun _ held => held.books.history) started.ledger
  own := (mainLoop_banked started inputs).history

section Session

variable {later older newer since : List Event}

/-- A command that was accepted in the session was received in it. -/
theorem Chronicle.received (held : Chronicle (later ++ .configurationChanged :: older))
    (clean : CleanSession older later) (split : later = newer ++ since) {c : VueCommand}
    (accepted : acceptedCommand since = some c) : OfSession since c := by
  obtain ⟨earlier, before⟩ := accepted_split accepted
  have whole : since = sinceAccept since ++ .accept c :: earlier := by
    rw [← before, since_append_before]
  have place : later = (newer ++ sinceAccept since) ++ .accept c :: earlier := by
    rw [List.append_assoc, ← whole, split]
  have log : later ++ .configurationChanged :: older =
      (newer ++ sinceAccept since) ++
        .accept c :: (earlier ++ .configurationChanged :: older) := by
    rw [place, List.append_assoc]
    rfl
  obtain ⟨hears, count⟩ := (held.belongs.split log).accepted (Option.some_ne_none c)
  have clear := (held.honoured.split log).1 rfl
  obtain ⟨-, defined, decoded⟩ := (held.accounted.split log).judged c rfl
  obtain ⟨defined, positive⟩ := defined.mp rfl
  have size := count (clean.sound _ c earlier place)
  obtain ⟨packet, bytes⟩ : ∃ packet : Vector Byte 32, packet.toList =
      takesOf (sinceCommand (earlier ++ .configurationChanged :: older)) :=
    ⟨⟨(takesOf (sinceCommand (earlier ++ .configurationChanged :: older))).toArray,
      by simpa using size⟩,
      by simp [Vector.toList]⟩
  obtain rfl := decoded packet bytes.symm
  refine ⟨earlier, packet, whole, rfl, (VueCommand.ofPacket_defined packet).mp defined, ?_, ?_, ?_⟩
  · rw [← VueCommand.ofPacket_length]
    exact positive
  · rw [bytes]
    exact clean.unladen.heard hears clear
  · exact (held.own.split log earlier older rfl).taken

theorem Chronicle.anew (held : Chronicle (later ++ .configurationChanged :: older))
    (clean : CleanSession older later) {e : Event} (split : later = newer ++ e :: since) :
    Anew older since e := by
  have log : later ++ .configurationChanged :: older =
      newer ++ e :: (since ++ .configurationChanged :: older) := by
    rw [split, List.append_assoc]
    rfl
  have belongs := held.belongs.split log
  have accounted := held.accounted.split log
  have inside : later = (newer ++ [e]) ++ since := by
    rw [split, List.append_assoc]
    rfl
  -- what is being executed has been accepted in the session
  have accepted (busy : executing (since ++ .configurationChanged :: older) = true)
      (clear : resetPending (since ++ .configurationChanged :: older) = false) :
      ∃ c, OfSession since c ∧ acceptedCommand (since ++ .configurationChanged :: older) = some c ∧
        sinceAccept (since ++ .configurationChanged :: older) = sinceAccept since := by
    obtain ⟨c, accepted⟩ := clean.unladen.accepted busy clear
    have session := held.received clean inside accepted
    obtain ⟨earlier, packet, received⟩ := session
    have whole : since ++ .configurationChanged :: older =
        sinceAccept since ++ .accept c :: (earlier ++ .configurationChanged :: older) := by
      conv => lhs; rw [received.log]
      rw [List.append_assoc]
      rfl
    refine ⟨c, ⟨earlier, packet, received⟩, ?_, ?_⟩
    · rw [whole]
      exact acceptedCommand_append accepted_of_since _
    · rw [whole, sinceAccept_accept accepted_of_since]
  refine ⟨fun y cycle => ?_, fun x given => ?_, fun x taken => ?_,
    held.own.split log since older rfl⟩
  · have clear := (held.honoured.split log).1 (by
      cases e with
      | port actor before after => cases actor <;> first | rfl | cases cycle
      | _ => cases cycle)
    have busy := belongs.strobe (by rw [cycle]; exact Option.some_ne_none y)
    obtain ⟨c, session, command, segment⟩ := accepted busy clear
    obtain ⟨d, command', next⟩ := accounted.cycle y cycle
    obtain rfl : c = d := Option.some.inj (command.symm.trans command')
    rw [segment] at next
    exact ⟨c, session, next⟩
  · obtain ⟨busy, clear⟩ := belongs.given (by rw [given]; exact Option.some_ne_none x)
    obtain ⟨c, session, command, -⟩ := accepted busy clear
    obtain ⟨d, command', next⟩ := accounted.give x given
    obtain rfl : c = d := Option.some.inj (command.symm.trans command')
    exact ⟨c, session, next.reading⟩
  · obtain ⟨hears | busy, clear⟩ := belongs.taken (by rw [taken]; exact Option.some_ne_none x)
    · exact .inr ⟨hears, clean.unladen.heard hears clear⟩
    · obtain ⟨c, session, -⟩ := accepted busy clear
      exact .inl ⟨c, session⟩

end Session

/-- **A new session inherits nothing**, if it begins with nothing left of another one: in every
run, finished or cut, whatever the tasks strobe, send or take after the device has been configured
belongs to a command of the session. -/
theorem configuration_inherits_nothing {start : World} (started : Started start)
    (inputs : List Input) {later older : List Event}
    (log : (mainLoop inputs start).state.log = later ++ .configurationChanged :: older)
    (clean : CleanSession older later) :
    ∀ newer e since, later = newer ++ e :: since → Anew older since e := by
  intro newer e since split
  have held := started.chronicle inputs
  rw [log] at held
  exact held.anew clean split

/-! ## A configuration between a command and its data -/

/-- The host sends the command to write a word. -/
def wordRound : Input := { packetInput wordBytes 46 with setups := [none, none] }

/-- The host sends the word after some looks of the firmware at the hardware. -/
def dataRound (setup : Option ControlTransfer) (looks : Nat) : Input :=
  ⟨plainCartridge, quietMoments looks ++ ⟨[.sendOut ⟨[3#8, 4#8], by decide⟩], false⟩ ::
    quietMoments 30, [setup]⟩

/-- The host configures the device once more before it sends the command. -/
def renewedInputs : List Input :=
  [configuringInput, ⟨plainCartridge, quietMoments 6, [some setConfiguration]⟩, wordRound,
    dataRound none 1]

/-- The host configures the device once more before it sends the data. -/
def interruptedInputs : List Input :=
  [configuringInput, wordRound, dataRound (some setConfiguration) 2]

def renewedEnd : World := (mainLoop renewedInputs wordStart).state

def interruptedEnd : World := (mainLoop interruptedInputs wordStart).state

theorem renewedEnd_eq : (mainLoop renewedInputs wordStart).state = renewedEnd := rfl

theorem interruptedEnd_eq : (mainLoop interruptedInputs wordStart).state = interruptedEnd := rfl

def Event.isConfiguration : Event → Bool
  | .configurationChanged => true
  | _ => false

/-- A log around one of its configurations. -/
theorem configuration_split {log : List Event} {i : Nat}
    (configured : log[i]?.map Event.isConfiguration = some true) :
    log = log.take i ++ .configurationChanged :: log.drop (i + 1) := by
  obtain ⟨e, entry, configures⟩ := Option.map_eq_some_iff.mp configured
  obtain rfl : e = .configurationChanged := by
    cases e <;> first | rfl | cases configures
  exact log_split entry

theorem CleanSession.of_sound {older later : List Event} (unladen : Unladen older)
    (sound : Sound (later ++ .configurationChanged :: older)) : CleanSession older later := by
  refine ⟨unladen, fun newer c since split e member => ?_⟩
  refine sound e ?_
  rw [split, List.append_assoc]
  exact List.mem_append_right _ (List.mem_cons_of_mem _ ((List.takeWhile_sublist _).subset member))

/-- The device is configured twice before the command; the word is strobed for that command. -/
theorem configuration_inherits_nothing_word :
    ∃ c y, OfSession ((renewedEnd.log.take 99).drop 22) c ∧
      NextCycle c (sinceAccept ((renewedEnd.log.take 99).drop 22)) y := by
  have log : (mainLoop renewedInputs wordStart).state.log =
      renewedEnd.log.take 99 ++ .configurationChanged :: renewedEnd.log.drop 100 := by
    rw [renewedEnd_eq]
    exact configuration_split (by decide +kernel)
  have sound : Sound renewedEnd.log := by decide +kernel
  rw [← renewedEnd_eq, log] at sound
  have strobed : ((renewedEnd.log.take 99)[21]?.bind Event.cycle).isSome = true := by decide +kernel
  obtain ⟨y, found⟩ := Option.isSome_iff_exists.mp strobed
  obtain ⟨e, entry, cycle⟩ := Option.bind_eq_some_iff.mp found
  have anew := configuration_inherits_nothing wordStart_started renewedInputs log
    (.of_sound (by decide +kernel) sound) _ e _ (log_split entry)
  obtain ⟨c, session, next⟩ := anew.strobe y cycle
  exact ⟨c, y, session, next⟩

/-- The device is configured between the command and the word, which is strobed although the
session has received no command. -/
theorem configuration_inherits_write :
    ¬ ∀ (start : World) (inputs : List Input) (later older newer since : List Event) (e : Event),
      Started start →
      (mainLoop inputs start).state.log = later ++ .configurationChanged :: older →
      Sound (mainLoop inputs start).state.log → later = newer ++ e :: since →
      Anew older since e := by
  intro claim
  have log : (mainLoop interruptedInputs wordStart).state.log =
      interruptedEnd.log.take 44 ++ .configurationChanged :: interruptedEnd.log.drop 45 := by
    rw [interruptedEnd_eq]
    exact configuration_split (by decide +kernel)
  have sound : Sound (mainLoop interruptedInputs wordStart).state.log := by
    rw [interruptedEnd_eq]
    decide +kernel
  have strobed : ((interruptedEnd.log.take 44)[21]?.bind Event.cycle).isSome = true := by
    decide +kernel
  obtain ⟨y, found⟩ := Option.isSome_iff_exists.mp strobed
  obtain ⟨e, entry, cycle⟩ := Option.bind_eq_some_iff.mp found
  have anew := claim _ _ _ _ _ _ e wordStart_started log sound (log_split entry)
  obtain ⟨c, ⟨earlier, packet, received⟩, -⟩ := anew.strobe y cycle
  have none_ : acceptedCommand ((interruptedEnd.log.take 44).drop 22) = none := by decide +kernel
  rw [received.log, acceptedCommand_append accepted_of_since] at none_
  cases none_

end VueCartReader
