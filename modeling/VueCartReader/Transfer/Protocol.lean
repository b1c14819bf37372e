import VueCartReader.Program.Acceptor
import VueCartReader.Transfer.Latches

/-!
# The protocol of the tasks

What the tasks do between the host and the cartridge is a run of a small machine (`taskProtocol`).
It is ready; it listens for the 32 bytes of a command; it moves the words and the bytes of the
command; and it is ready again. A word is written only when its bytes have come, and a byte is sent
only when its word has been read.

The firmware does nothing else: the log of every run is accepted, and between two rounds the state
of the firmware is that of the machine (`mainLoop_follows`). Failures of the stream calls are part
of the protocol; after one, the bytes that the firmware counts need not have come.
-/

set_option autoImplicit false

namespace VueCartReader

open Program

/-! ## The machine -/

/-- What the tasks do, as far as the cartridge and the host are concerned. -/
inductive Action where
  | enter
  | take
  | give
  | accept (c : VueCommand)
  | turnDown (c : VueCommand)
  /-- A bus cycle, which reads or writes. -/
  | strobe (reads : Bool)
  | fail
  | done
  | reset

/-- How far the tasks have come. `whole` says that no stream call has failed on the way. -/
inductive Phase where
  | ready
  | listening (whole : Bool) (bytes : Nat)
  | moving (c : VueCommand) (whole : Bool) (words bytes : Nat)

namespace Phase

def next : Phase → Action → Option Phase
  | ready, .enter | listening _ _, .enter => some (listening true 0)
  | listening whole bytes, .take =>
      if bytes < 32 then some (listening whole (bytes + 1)) else none
  | listening _ bytes, .fail => some (listening false bytes)
  | listening whole bytes, .accept c =>
      if (whole = true → bytes = 32) ∧ c.defined = true ∧ c.length ≠ 0#32 then
        some (moving c true 0 0)
      else none
  | listening whole bytes, .turnDown c =>
      if (whole = true → bytes = 32) ∧ ¬ (c.defined = true ∧ c.length ≠ 0#32) then some ready
      else none
  | moving c whole words bytes, .take =>
      if c.task = .write ∧ bytes < c.length.toNat then some (moving c whole words (bytes + 1))
      else none
  | moving c whole words bytes, .give =>
      -- the word of the byte has been read
      if c.task = .read ∧ bytes < c.length.toNat ∧ c.words (bytes + 1) ≤ words then
        some (moving c whole words (bytes + 1))
      else none
  | moving c whole words bytes, .strobe reads =>
      -- the bytes of the word have come
      if words < c.words c.length.toNat ∧ (reads = true ↔ c.task = .read) ∧
          (c.task = .write → whole = true → words < c.words bytes) then
        some (moving c whole (words + 1) bytes)
      else none
  | moving c _ words bytes, .fail => some (moving c false words bytes)
  | moving c whole words bytes, .done =>
      if words = c.words c.length.toNat ∧ (whole = true → bytes = c.length.toNat) then some ready
      else none
  | _, .reset => some ready
  | _, _ => none

/-- The state of the firmware in a phase. -/
def state : Phase → FsmState
  | ready | listening _ _ => .idle
  | moving c _ _ _ => c.task

end Phase

def taskProtocol : Acceptor Phase Action := ⟨.ready, Phase.next⟩

/-! ## What the protocol allows in all -/

namespace Action

def accepted : Action → Option VueCommand
  | accept c => some c
  | _ => none

def isStrobe : Action → Bool
  | strobe _ => true
  | _ => false

def isGive : Action → Bool
  | give => true
  | _ => false

end Action

/-- The bytes that a command sends to the host. -/
def VueCommand.sent (c : VueCommand) : Nat := if c.task = .read then c.length.toNat else 0

/-- The words that are asked for in all. -/
def wordsAsked (actions : List Action) : Nat :=
  ((actions.filterMap Action.accepted).map fun c => c.words c.length.toNat).sum

/-- The bytes that are asked for in all. -/
def bytesAsked (actions : List Action) : Nat :=
  ((actions.filterMap Action.accepted).map VueCommand.sent).sum

/-- What is left to do in a phase, in words and in bytes for the host. -/
def Phase.left : Phase → Nat × Nat
  | moving c _ words bytes => (c.words c.length.toNat - words, c.sent - bytes)
  | _ => (0, 0)

/-- No more is done than has been asked for. -/
structure WithinAsked (actions : List Action) (p : Phase) : Prop where
  words : actions.countP Action.isStrobe + p.left.1 ≤ wordsAsked actions
  bytes : actions.countP Action.isGive + p.left.2 ≤ bytesAsked actions

/-- An action that accepts no command uses up some of what is left, or leaves it. -/
theorem Phase.left_of_next {p q : Phase} {a : Action} (next : p.next a = some q)
    (none_ : a.accepted = none) :
    [a].countP Action.isStrobe + q.left.1 ≤ p.left.1 ∧
      [a].countP Action.isGive + q.left.2 ≤ p.left.2 := by
  revert next
  fun_cases Phase.next p a <;> intro next <;> cases next
  case case6 => cases none_
  case case12 c whole words bytes allowed =>
      -- a byte for the host is one of those that the command sends
      have sent : c.sent = c.length.toNat := if_pos allowed.1
      have inside := allowed.2.1
      simp only [Phase.left, sent, Action.isStrobe, Action.isGive, List.countP_singleton, reduceIte,
        Bool.false_eq_true]
      constructor <;> omega
  all_goals
    simp only [Phase.left, Action.isStrobe, Action.isGive, List.countP_singleton, reduceIte,
        Bool.false_eq_true]
    constructor <;> omega

/-- **No more is done than has been asked for**, in any run that is accepted. -/
theorem WithinAsked.of_accepts {actions : List Action} {p : Phase}
    (accepted : taskProtocol.accepts actions = some p) : WithinAsked actions p := by
  refine taskProtocol.invariant ⟨le_refl _, le_refl _⟩ (fun actions p a q held next => ?_) accepted
  obtain ⟨words, bytes⟩ := held
  have next : p.next a = some q := next
  cases command : a.accepted with
  | none =>
      obtain ⟨strobes, gives⟩ := Phase.left_of_next next command
      refine ⟨?_, ?_⟩
      · rw [wordsAsked, List.filterMap_append, List.filterMap_cons_none command, List.filterMap_nil,
          List.append_nil, List.countP_append]
        exact le_trans (by omega) words
      · rw [bytesAsked, List.filterMap_append, List.filterMap_cons_none command, List.filterMap_nil,
          List.append_nil, List.countP_append]
        exact le_trans (by omega) bytes
  | some c =>
      -- what the command asks for is left to do
      cases a with
      | accept d =>
          cases command
          have left : q.left = (c.words c.length.toNat, c.sent) := by
            cases p with
            | listening whole n =>
                obtain ⟨-, same⟩ := Option.ite_none_right_eq_some.mp next
                cases same
                rfl
            | _ => cases next
          refine ⟨?_, ?_⟩
          · simp only [wordsAsked, List.filterMap_append, List.countP_append, List.map_append,
              List.sum_append, left] at words ⊢
            simp [Action.accepted, Action.isStrobe]
            omega
          · simp only [bytesAsked, List.filterMap_append, List.countP_append, List.map_append,
              List.sum_append, left] at bytes ⊢
            simp [Action.accepted, Action.isGive]
            omega
      | _ => cases command

/-- What an event is in the protocol. -/
def Event.action : Event → Option Action
  | .command _ => some .enter
  | .take _ => some .take
  | .give _ => some .give
  | .accept c => some (.accept c)
  | .ignore c | .reject c => some (.turnDown c)
  | .port .task before after => (busCycle before after).map fun y => .strobe y.drive.read
  | .stream r => if r.isError then some .fail else none
  | .finish => some .done
  | .resetEnd => some .reset
  | _ => none

/-- The phase that a log leads to. -/
def phaseOf (log : List Event) : Option Phase := taskProtocol.accepts (occurrences Event.action log)

/-! ## Logs -/

theorem phaseOf_cons (e : Event) (log : List Event) :
    phaseOf (e :: log) =
      (phaseOf log).bind fun p => taskProtocol.run p (e.action.toList) := by
  rw [phaseOf, occurrences_cons, Acceptor.accepts, Acceptor.run_append]
  rfl

theorem phaseOf_step {e : Event} {log : List Event} {p q : Phase} {a : Action}
    (before : phaseOf log = some p) (act : e.action = some a) (next : p.next a = some q) :
    phaseOf (e :: log) = some q := by
  rw [phaseOf_cons, before, act]
  exact (Acceptor.run_snoc taskProtocol p [] a).trans next

/-- An event that is no action. -/
theorem phaseOf_skip {e : Event} (none_ : e.action = none) (log : List Event) :
    phaseOf (e :: log) = phaseOf log := by
  rw [phaseOf_cons, none_]
  exact bind_pure (phaseOf log)

theorem phaseOf_quiet {new log : List Event} (quiet : ∀ e ∈ new, e.action = none) :
    phaseOf (new ++ log) = phaseOf log := by
  rw [phaseOf, occurrences_append, occurrences_eq_nil _ quiet, List.append_nil]
  rfl

theorem action_of_control {e : Event} (ok : e.ofControl = true) : e.action = none := by
  cases e with
  | port actor before after =>
      cases actor with
      | control => rfl
      | _ => cases ok
  | _ => first | rfl | cases ok

theorem action_of_reset {e : Event} (ok : e.ofReset = true) : e.action = none := by
  cases e with
  | port actor before after =>
      cases actor with
      | main => rfl
      | _ => cases ok
  | _ => first | rfl | cases ok

/-- Accesses of the tasks that end no cycle. -/
theorem action_of_ports {start : Board} {trace : List Board}
    (silent : occurrences Event.cycle (portEvents .task start trace) = []) :
    ∀ e ∈ portEvents .task start trace, e.action = none := by
  intro e member
  have none_ := (portEvents_plain silent e member).cycle
  obtain ⟨before, after, rfl⟩ := portEvents_kind .task start trace e member
  show (busCycle before after).map _ = none
  rw [show busCycle before after = none from none_]
  rfl

/-- A piece of a stream: bytes of one direction, and perhaps a failure. -/
def Event.Streams (kind : Event → Option Byte) (a : Action) (e : Event) : Prop :=
  e.action = none ∧ kind e = none ∧ e.failed = false ∨
    e.action = some .fail ∧ kind e = none ∨
    e.action = some a ∧ kind e ≠ none ∧ e.failed = false

/-- The bytes that move in one direction, and in no `other`, are what an action moves. -/
structure OneWay (kind other : Event → Option Byte) (a : Action) : Prop where
  moves : ∀ e : Event, e.taken ≠ none ∨ e.given ≠ none → other e = none →
    e.action = some a ∧ kind e ≠ none
  rests : ∀ e : Event, e.taken = none → e.given = none → kind e = none

theorem oneWay_taken : OneWay Event.taken Event.given .take where
  moves e moves none_ := by
    have taken := moves.resolve_right fun given => given none_
    cases e with
    | take x => exact ⟨rfl, taken⟩
    | _ => cases taken rfl
  rests _ none_ _ := none_

theorem oneWay_given : OneWay Event.given Event.taken .give where
  moves e moves none_ := by
    have given := moves.resolve_left fun taken => taken none_
    cases e with
    | give x => exact ⟨rfl, given⟩
    | _ => cases given rfl
  rests _ _ none_ := none_

theorem OneWay.event {kind other : Event → Option Byte} {a : Action} (way : OneWay kind other a)
    {e : Event} (ok : e.ofStream = true) (none_ : other e = none) : e.Streams kind a := by
  cases e with
  | take x =>
      obtain ⟨act, some_⟩ := way.moves (.take x) (.inl (Option.some_ne_none x)) none_
      exact .inr (.inr ⟨act, some_, rfl⟩)
  | give x =>
      obtain ⟨act, some_⟩ := way.moves (.give x) (.inr (Option.some_ne_none x)) none_
      exact .inr (.inr ⟨act, some_, rfl⟩)
  | stream r =>
      cases failed : r.isError with
      | true => exact .inr (.inl ⟨if_pos failed, way.rests _ rfl rfl⟩)
      | false => exact .inl ⟨if_neg (by rw [failed]; decide), way.rests _ rfl rfl, failed⟩
  | port actor before after =>
      cases actor with
      | control => exact .inl ⟨rfl, way.rests _ rfl rfl, rfl⟩
      | _ => cases ok
  | _ => first | exact .inl ⟨rfl, way.rests _ rfl rfl, rfl⟩ | cases ok

/-- What a stream records while all bytes move in one direction. -/
theorem OneWay.streams {kind other : Event → Option Byte} {a : Action} (way : OneWay kind other a)
    {s t : World} {new : List Event} (streamed : Streamed s t)
    (silent : Logs (fun e => other e = none) s t) (log : t.log = new ++ s.log) :
    ∀ e ∈ new, e.Streams kind a := by
  obtain ⟨all, log', ok, -⟩ := streamed.log
  obtain ⟨same, log'', none_⟩ := silent
  obtain rfl := List.append_cancel_right (log'.symm.trans log)
  obtain rfl := List.append_cancel_right (log''.symm.trans log)
  exact fun e member => way.event (ok e member) (none_ e member)

/-- The bytes of a stream are counted in the phase, up to a limit. -/
theorem phaseOf_stream {p : Bool → Nat → Phase} {kind : Event → Option Byte} {a : Action}
    {limit : Nat}
    (moves : ∀ whole n, n < limit → (p whole n).next a = some (p whole (n + 1)))
    (fails : ∀ whole n, (p whole n).next .fail = some (p false n))
    {new log : List Event} (streams : ∀ e ∈ new, e.Streams kind a) {whole : Bool} {n : Nat}
    (before : phaseOf log = some (p whole n)) (fits : n + (occurrences kind new).length ≤ limit) :
    ∃ whole', phaseOf (new ++ log) = some (p whole' (n + (occurrences kind new).length)) ∧
      (whole' = true → whole = true ∧ Sound new) := by
  induction new with
  | nil => exact ⟨whole, before, fun yes => ⟨yes, List.forall_mem_nil _⟩⟩
  | cons e new ih =>
      rw [occurrences_cons, List.length_append] at fits ⊢
      obtain ⟨whole', here, sound⟩ := ih (fun f member => streams f (List.mem_cons_of_mem _ member))
        (by omega)
      rcases streams e (List.mem_cons_self ..) with ⟨act, none_, unfailed⟩ | ⟨act, none_⟩ |
        ⟨act, some_, unfailed⟩
      · rw [none_]
        refine ⟨whole', ?_, fun yes =>
          ⟨(sound yes).1, List.forall_mem_cons.mpr ⟨unfailed, (sound yes).2⟩⟩⟩
        rw [List.cons_append, phaseOf_cons, act, here]
        rfl
      · rw [none_]
        refine ⟨false, phaseOf_step here act (fails whole' _), fun yes => ?_⟩
        cases yes
      · obtain ⟨x, found⟩ := Option.ne_none_iff_exists'.mp some_
        rw [found] at fits ⊢
        exact ⟨whole', phaseOf_step here act (moves whole' _ (by simp at fits; omega)),
          fun yes => ⟨(sound yes).1, List.forall_mem_cons.mpr ⟨unfailed, (sound yes).2⟩⟩⟩

/-- The cycles of a chunk are counted in the phase. -/
theorem phaseOf_strobes {c : VueCommand} {whole : Bool} {words bytes : Nat} {start : Board}
    {trace : List Board} {log : List Event}
    (before : phaseOf log = some (.moving c whole words bytes))
    (reads : ∀ y ∈ occurrences Event.cycle (portEvents .task start trace),
      (y.drive.read = true ↔ c.task = .read))
    (fits : words + (occurrences Event.cycle (portEvents .task start trace)).length ≤
      c.words c.length.toNat)
    (loaded : c.task = .write → whole = true →
      words + (occurrences Event.cycle (portEvents .task start trace)).length ≤ c.words bytes) :
    phaseOf (portEvents .task start trace ++ log) = some (.moving c whole
      (words + (occurrences Event.cycle (portEvents .task start trace)).length) bytes) := by
  have each : ∀ e ∈ portEvents .task start trace,
      e.action = e.cycle.map fun y => .strobe y.drive.read := fun e member => by
    obtain ⟨_, _, rfl⟩ := portEvents_kind .task start trace e member
    rfl
  generalize portEvents .task start trace = new at *
  induction new with
  | nil => exact before
  | cons e new ih =>
      rw [occurrences_cons] at reads fits loaded ⊢
      rw [List.length_append] at fits loaded ⊢
      have here := ih (fun y member => reads y (List.mem_append_left _ member)) (by omega)
        (fun writes yes => by have := loaded writes yes; omega)
        fun f member => each f (List.mem_cons_of_mem _ member)
      have act := each e (List.mem_cons_self ..)
      cases cycle : e.cycle with
      | none =>
          rw [cycle] at act
          rw [List.cons_append, phaseOf_cons, act, here]
          rfl
      | some y =>
          rw [cycle] at act reads fits loaded
          refine phaseOf_step here act (if_pos ⟨?_, reads y (by simp), fun writes yes => ?_⟩)
          · simp at fits
            omega
          · have := loaded writes yes
            simp at this
            omega

/-! ## The invariant -/

/-- A phase is that of a world. While no reset is due the words and the bytes that have been moved
are those that the firmware counts. -/
def Phase.Fits : Phase → World → Prop
  | .ready, w | .listening _ _, w => w.vars.curVueState = .idle
  | .moving c whole words bytes, w =>
      c.defined = true ∧ w.vars.curVueState = c.task ∧ acceptedCommand w.log = some c ∧
        (w.vars.bulkReset = 0#32 → words = c.words (c.moved w) ∧ bytes ≤ c.moved w ∧
          (whole = true → bytes = c.moved w))

structure Follows (w : World) : Prop where
  phase : ∃ p, phaseOf w.log = some p ∧ p.Fits w

/-- What is known of a run wherever it is cut. -/
abbrev Lawful (w : World) : Prop := ∃ p, phaseOf w.log = some p

structure Conforming (w : World) : Prop where
  machine : Machine w
  follows : Follows w

theorem Follows.lawful {w : World} (held : Follows w) : Lawful w := by
  obtain ⟨p, phase, -⟩ := held.phase
  exact ⟨p, phase⟩

theorem Follows.extended {s t : World} (held : Follows s) {new : List Event}
    (log : t.log = new ++ s.log) (quiet : ∀ e ∈ new, e.action = none)
    (unmoved : Unmoved s t) : Follows t := by
  obtain ⟨p, phase, fits⟩ := held.phase
  refine ⟨p, by rw [log, phaseOf_quiet quiet, phase], ?_⟩
  obtain ⟨_, _, _, _, vars⟩ := unmoved.vars
  have state : t.vars.curVueState = s.vars.curVueState := by rw [vars]
  cases p with
  | ready => exact state.trans fits
  | listening whole bytes => exact state.trans fits
  | moving c whole words bytes =>
      obtain ⟨defined, task, accepted, counts⟩ := fits
      have moved : c.moved t = c.moved s := by rw [VueCommand.moved, vars, VueCommand.moved]
      refine ⟨defined, state.trans task, unmoved.accepted.trans accepted, fun clear => ?_⟩
      rw [moved]
      exact counts (unmoved.reset clear)

theorem Follows.served {s t : World} (held : Follows s) (served : Served s t) : Follows t := by
  obtain ⟨new, log, all, -⟩ := served.log
  exact held.extended log (fun e member => action_of_control (all e member)) (.of_served served)

theorem conforming_of_framed (s t : World) (framed : Framed OfUsb s t) (held : Conforming s) :
    Conforming t :=
  ⟨machine_of_framed s t framed held.machine, held.follows.served (.of_framed framed)⟩

/-- While the firmware is not idle, the phase is that of the command in progress. -/
theorem Follows.moving {w : World} (held : Follows w) {c : VueCommand}
    (accepted : acceptedCommand w.log = some c) (busy : w.vars.curVueState ≠ .idle) :
    ∃ whole words bytes, phaseOf w.log = some (.moving c whole words bytes) ∧
      (w.vars.bulkReset = 0#32 → words = c.words (c.moved w) ∧ bytes ≤ c.moved w ∧
        (whole = true → bytes = c.moved w)) := by
  obtain ⟨p, phase, fits⟩ := held.phase
  cases p with
  | ready => exact absurd fits busy
  | listening whole bytes => exact absurd fits busy
  | moving d whole words bytes =>
      obtain ⟨-, -, found, counts⟩ := fits
      obtain rfl : c = d := Option.some.inj (accepted.symm.trans found)
      exact ⟨whole, words, bytes, phase, counts⟩

/-- An idle firmware can take in a command. -/
theorem Follows.idle {w : World} (held : Follows w) (idle : w.vars.curVueState = .idle) :
    ∃ p, phaseOf w.log = some p ∧ p.next .enter = some (.listening true 0) := by
  obtain ⟨p, phase, fits⟩ := held.phase
  refine ⟨p, phase, ?_⟩
  cases p with
  | ready => rfl
  | listening whole bytes => rfl
  | moving c whole words bytes =>
      exact absurd (fits.2.1.symm.trans idle) (VueCommand.task_ne_idle fits.1)

/-! ## The end of a transfer -/

section Finish

variable {c : VueCommand} {whole : Bool} {words bytes : Nat} {w : World}

/-- All words of a command have had their cycles, and its bytes have been moved. -/
structure Moved (c : VueCommand) (w : World) : Prop where
  phase : ∃ whole words bytes, phaseOf w.log = some (.moving c whole words bytes) ∧
    words = c.words c.length.toNat ∧ (whole = true → bytes = c.length.toNat)

theorem deselect_ready (bus : BusInvariant w) (moved : Moved c w) :
    wp deselect (fun _ t => phaseOf t.log = some .ready) Lawful w := by
  obtain ⟨whole, words, bytes, phase, all, sound⟩ := moved.phase
  have silent := vueWriteAddressFull_cycles bus.ready.resting (w.vars.bulkAddress ||| vueFlagMask)
  rw [wp_of_value (deselect_eq w)]
  show phaseOf (_ ++ .finish :: w.log) = some .ready
  rw [phaseOf_quiet (action_of_ports silent)]
  exact phaseOf_step phase rfl (if_pos ⟨all, sound⟩)

theorem enterIdle_follows (ready : phaseOf w.log = some .ready) :
    wp enterIdle (fun _ t => Follows t) Lawful w :=
  ⟨.ready, ready, rfl⟩

theorem finishWrite_follows (bus : BusInvariant w) (moved : Moved c w) :
    wp finishWrite (fun _ t => Follows t) Lawful w :=
  (deselect_ready bus moved).bind fun _ _ ready => enterIdle_follows ready

theorem finishRead_follows (bus : BusInvariant w) (moved : Moved c w) :
    wp finishRead (fun _ t => Follows t) Lawful w := by
  refine (deselect_ready bus moved).bind fun _ t ready => ?_
  have framed {u : World} (framed : Framed OfUsb t u) : phaseOf u.log = some .ready := by
    obtain ⟨new, log, all, -⟩ := (Served.of_framed framed).log
    rw [log, phaseOf_quiet fun e member => action_of_control (all e member), ready]
  exact wp.bind ((taskClearIn_framed t).mono (fun _ _ moved => framed moved)
    fun _ moved => ⟨_, framed moved⟩) fun _ _ ready => enterIdle_follows ready

/-- The end of a chunk: the transfer goes on, or it ends. -/
theorem endChunk_follows {finish : Fw Unit} (bus : BusInvariant w)
    (accepted : acceptedCommand w.log = some c)
    (going : InProgress c (chunkLength w.vars).toNat w)
    (phase : phaseOf w.log = some (.moving c whole words bytes))
    (counted : words = c.words (c.moved w + (chunkLength w.vars).toNat))
    (most : bytes ≤ c.moved w + (chunkLength w.vars).toNat)
    (sound : whole = true → bytes = c.moved w + (chunkLength w.vars).toNat)
    (finished : ∀ u, BusInvariant u → Moved c u → wp finish (fun _ t => Follows t) Lawful u) :
    wp (do
      shortenCommand (chunkLength w.vars)
      whenever ((← state).vars.curCommand.length = 0#32) finish) (fun _ t => Follows t)
      Lawful w := by
  have kept := shortenCommand_keepsBus (chunkLength w.vars) w bus
  have chunk := chunkLength_toNat w.vars
  have left := shortened_length w
  have bounded := going.bounded
  have moved : c.moved (w.shortened (chunkLength w.vars)) =
      c.moved w + (chunkLength w.vars).toNat := by
    simp only [VueCommand.moved]
    omega
  rw [wp_bind, shortenCommand, onVars, wp_modify, wp_bind, wp_state, wp_whenever]
  refine ⟨fun zero => finished _ kept ⟨whole, words, bytes, phase, ?_⟩, fun more => ?_⟩
  · -- nothing is left
    have none_ : (w.shortened (chunkLength w.vars)).vars.curCommand.length.toNat = 0 :=
      congrArg BitVec.toNat zero
    have total : c.moved w + (chunkLength w.vars).toNat = c.length.toNat := by
      simp only [VueCommand.moved] at moved ⊢
      omega
    rw [total] at counted sound
    exact ⟨counted, sound⟩
  · refine ⟨_, phase, going.defined, going.task, accepted, fun _ => ?_⟩
    show words = c.words (c.moved (w.shortened (chunkLength w.vars))) ∧
      bytes ≤ c.moved (w.shortened (chunkLength w.vars)) ∧
        (whole = true → bytes = c.moved (w.shortened (chunkLength w.vars)))
    rw [moved]
    exact ⟨counted, most, sound⟩

/-- A chunk goes over the bus. -/
theorem bulkAccess_follows (bus : BusInvariant w) (going : InProgress c 0 w)
    (phase : phaseOf w.log = some (.moving c whole words bytes))
    (counted : words = c.words (c.moved w))
    (loaded : c.task = .write → whole = true →
      bytes = c.moved w + (chunkLength w.vars).toNat) :
    ∃ a, bulkAccess (chunkLength w.vars) w =
        .value () (w.accessed c.func (chunkLength w.vars) a) ∧
      BusInvariant (w.accessed c.func (chunkLength w.vars) a) ∧
      InProgress c (chunkLength w.vars).toNat (w.accessed c.func (chunkLength w.vars) a) ∧
      phaseOf (w.accessed c.func (chunkLength w.vars) a).log = some (.moving c whole
        (c.words (c.moved w + (chunkLength w.vars).toNat)) bytes) := by
  obtain ⟨a, progress, run⟩ :=
    bulkAccess_eq (chunkLength_inside w.vars) bus.ready.resting going.func
  have kept := bulkAccess_keepsBus (chunkLength_inside w.vars) w bus
  rw [wp_of_value run] at kept
  have ahead := going.accessed progress
  refine ⟨a, run, kept, ahead, ?_⟩
  rw [chunkLength_setWidth] at progress
  obtain ⟨cs, ⟨trace, settled, -, cycles, -⟩, drives, -⟩ := progress.cycles
  have all : occurrences Event.cycle (portEvents .task w.board a.rig.seen) = cs := by
    rw [portEvents_cycles, show a.rig.seen = trace from settled.seen]
    exact cycles
  have size := congrArg List.length drives
  simp only [List.length_map, List.length_range] at size
  have bounded := going.bounded
  have chunk := chunkLength_toNat w.vars
  have total : c.words (c.moved w + (chunkLength w.vars).toNat) = _ := words_add c going.whole
  have most := words_mono c (show c.moved w + (chunkLength w.vars).toNat ≤ c.length.toNat by
    simp only [VueCommand.moved]
    omega)
  have called : phaseOf (.access c.func (chunkLength w.vars) :: w.log) =
      some (.moving c whole words bytes) :=
    (phaseOf_skip rfl _).trans phase
  -- the cycles of a read read, those of a write do not
  have reads : ∀ y ∈ occurrences Event.cycle (portEvents .task w.board a.rig.seen),
      (y.drive.read = true ↔ c.task = .read) := fun y member => by
    rw [all] at member
    have drive : y.drive ∈ (List.range (rounds (chunkLength w.vars).toNat c.func.step)).map
        (c.func.drive w.vars.bulkBuffer.toList) := by
      rw [← drives]
      exact List.mem_map_of_mem member
    obtain ⟨k, -, drive⟩ := List.mem_map.mp drive
    rw [← drive, show (c.func.drive _ k).read = c.func.reads from by cases c.func <;> rfl]
    exact VueCommand.reads_iff going.defined
  have strobes := phaseOf_strobes called reads (by rw [all, size]; omega) (fun writes yes => by
    rw [all, size, loaded writes yes]
    omega)
  rw [all, size] at strobes
  rw [total, ← counted]
  exact strobes

end Finish

/-! ## The tasks -/

theorem vueBulkWriteTask_follows {s : World} (held : Conforming s) (found : s.OutFound)
    (writing : s.vars.curVueState = .write) :
    wp vueBulkWriteTask (fun _ t => Follows t) Lawful s := by
  have busy : s.vars.curVueState ≠ .idle := by rw [writing]; decide
  obtain ⟨c, accepted, going⟩ := held.machine.tracked.progress busy
  have task : c.task = .write := going.task.symm.trans writing
  obtain ⟨whole, words, bytes, phase, counts⟩ := held.follows.moving accepted busy
  obtain ⟨counted, most, sound⟩ := counts found.clear
  have there : s.At vueCartReaderOutEpAddr := .inl found.selected
  have chunk := chunkLength_toNat s.vars
  have bounded := going.bounded
  rw [vueBulkWriteTask, wp_bind, wp_state, if_neg (by rw [going.phase]; decide), if_pos going.phase]
  -- so many bytes may come
  have takes {new : List Event} (streams : ∀ e ∈ new, e.Streams Event.taken .take)
      (less : (occurrences Event.taken new).length ≤ (chunkLength s.vars).toNat) :
      ∃ whole', phaseOf (new ++ s.log) =
          some (.moving c whole' words (bytes + (occurrences Event.taken new).length)) ∧
        (whole' = true → whole = true ∧ Sound new) := by
    have moves (whole : Bool) (n : Nat) (less : n < c.length.toNat) :
        (Phase.moving c whole words n).next .take = some (.moving c whole words (n + 1)) :=
      if_pos ⟨task, less⟩
    refine phaseOf_stream moves (fun _ _ => rfl) streams phase ?_
    have moved : c.moved s = c.length.toNat - s.vars.curCommand.length.toNat := rfl
    omega
  have streamed := readStream_streamed storeBuffer (fun _ _ _ => ⟨_, _, rfl⟩)
    (chunkLength s.vars).toNat s
  have given := readStream_plain storeBuffer (chunkLength s.vars).toNat s
  have spec := readStream_spec buffer_memory (chunkLength_pos going) there
    (by simpa using chunkLength_le s.vars)
  have reset := readStream_reset storeBuffer (fun _ _ _ => rfl) (chunkLength s.vars).toNat s
  have moved := (receiveChunk_unmoved (chunkLength s.vars).toNat s).and
    (readStream_keepsBus storeBuffer (fun _ _ _ => rfl) (fun _ _ _ => ⟨rfl, rfl⟩)
      (chunkLength s.vars).toNat s held.machine.bus)
  refine wp.bind (((streamed.and given).and ((spec.and reset).and moved)).mono
    (fun _ _ ends => ends) fun t cut => ?_) fun ok t ends => ?_
  · obtain ⟨⟨streamed, given⟩, ⟨⟨p, less, new, received, count, -⟩, -⟩, -⟩ := cut
    obtain ⟨_, phase, -⟩ := takes (oneWay_taken.streams streamed given received.log) (by omega)
    exact ⟨_, by rw [received.log]; exact phase⟩
  obtain ⟨⟨streamed, given⟩, ⟨⟨new, received, done, abandoned⟩, reset⟩, unmoved, bus⟩ := ends
  have less : (occurrences Event.taken new).length ≤ (chunkLength s.vars).toNat := by
    cases ok with
    | true =>
        rcases done rfl with ⟨-, all⟩ | ⟨-, fewer⟩
        · exact all.le
        · exact fewer.le
    | false => exact (abandoned rfl).2.le
  obtain ⟨whole', phase, sound'⟩ := takes (oneWay_taken.streams streamed given received.log) less
  rw [← received.log] at phase
  have accepted := unmoved.accepted.trans accepted
  have going := going.unmoved unmoved
  have same : c.moved t = c.moved s := by
    obtain ⟨_, _, _, _, vars⟩ := unmoved.vars
    rw [VueCommand.moved, vars, VueCommand.moved]
  have length := chunkLength_unmoved unmoved
  rw [wp_ite]
  refine ⟨fun yes => ?_, fun no => ?_⟩
  · rw [← same] at counted most sound
    rw [← length] at done less ⊢
    have exact_ (yes' : whole' = true) :
        bytes + (occurrences Event.taken new).length = c.moved t + (chunkLength t.vars).toNat := by
      obtain ⟨before, sound'⟩ := sound' yes'
      have count := (done yes).resolve_right fun failed => failed.1 sound'
      rw [sound before, count.2]
    obtain ⟨a, run, bus, ahead, phase⟩ :=
      bulkAccess_follows bus going phase counted fun _ => exact_
    rw [wp_bind, wp_of_value run]
    refine endChunk_follows bus
      ((accessed_accepted t _ _ a).trans accepted) ahead phase rfl ?_ exact_
      fun u => finishWrite_follows
    show _ ≤ c.moved t + (chunkLength t.vars).toNat
    omega
  · have set := reset.2 (by simpa using no)
    exact ⟨_, phase, going.defined, going.task, accepted, fun clear => absurd clear set⟩

/-- Sending takes nothing from the host. -/
theorem writeStream_untaken (load : Nat → Vars → Byte) (length : Nat) :
    Moves (Logs fun e => e.taken = none) (stream (writeStream load) length) := by
  have control {s t : World} (all : Logs (fun e => e.ofControl = true) s t) :
      Logs (fun e => e.taken = none) s t := all.mono fun e ok => (Event.idle_of_control ok).1
  have framed (s t : World) (framed : Framed OfUsb s t) : Logs (fun e => e.taken = none) s t := by
    obtain ⟨new, log, all, -⟩ := (Served.of_framed framed).log
    exact control ⟨new, log, all⟩
  have loop (e : Event) (ok : e.ofLoop = true) : e.taken = none := by
    cases e <;> first | rfl | cases ok
  refine Moves.stream (fun e ok => Moves.modify fun _ => .one rfl (loop e ok)) framed ?_
    (fun i => ?_) endpointClearIn_framed length
  · refine usbUsbTask_served.mono fun s t served => ?_
    obtain ⟨new, log, all, -⟩ := served.log
    exact control ⟨new, log, all⟩
  · refine .bind .state fun w => .bind (Moves.modify fun _ => .none rfl) fun _ =>
      Moves.modify fun _ => .one rfl rfl

theorem vueBulkReadTask_follows {s : World} (held : Conforming s) (clear : s.vars.bulkReset = 0#32)
    (reading : s.vars.curVueState = .read) :
    wp vueBulkReadTask (fun _ t => Follows t) Lawful s := by
  have busy : s.vars.curVueState ≠ .idle := by rw [reading]; decide
  obtain ⟨c, accepted, going⟩ := held.machine.tracked.progress busy
  have task : c.task = .read := going.task.symm.trans reading
  obtain ⟨whole, words, bytes, phase, counts⟩ := held.follows.moving accepted busy
  obtain ⟨counted, most, sound⟩ := counts clear
  have chunk := chunkLength_toNat s.vars
  have bounded := going.bounded
  obtain ⟨a, run, bus, ahead, phase⟩ := bulkAccess_follows held.machine.bus going phase counted
    fun writing => absurd (task.symm.trans writing) (by decide)
  rw [vueBulkReadTask, wp_bind, wp_state, if_neg (by rw [going.phase]; decide), if_pos going.phase,
    wp_bind, wp_of_value run]
  -- so many bytes may be sent
  have gives {new : List Event} (streams : ∀ e ∈ new, e.Streams Event.given .give)
      (less : (occurrences Event.given new).length ≤ (chunkLength s.vars).toNat) :
      ∃ whole', phaseOf (new ++ (s.accessed c.func (chunkLength s.vars) a).log) =
          some (.moving c whole' (c.words (c.moved s + (chunkLength s.vars).toNat))
            (bytes + (occurrences Event.given new).length)) ∧
        (whole' = true → whole = true ∧ Sound new) := by
    have moved : c.moved s = c.length.toNat - s.vars.curCommand.length.toNat := rfl
    have moves (whole : Bool) (n : Nat) (less : n < c.moved s + (chunkLength s.vars).toNat) :
        (Phase.moving c whole (c.words (c.moved s + (chunkLength s.vars).toNat)) n).next .give =
          some (.moving c whole (c.words (c.moved s + (chunkLength s.vars).toNat)) (n + 1)) :=
      if_pos ⟨task, by omega, words_mono c less⟩
    exact phaseOf_stream moves (fun _ _ => rfl) streams phase (by omega)
  have streamed := writeStream_streamed loadBuffer (chunkLength s.vars).toNat
    (s.accessed c.func (chunkLength s.vars) a)
  have untaken := writeStream_untaken loadBuffer (chunkLength s.vars).toNat
    (s.accessed c.func (chunkLength s.vars) a)
  have spec := writeStream_spec (chunkLength_pos going) (chunkLength_le s.vars)
    (s.accessed c.func (chunkLength s.vars) a)
  have reset := writeStream_reset loadBuffer (chunkLength s.vars).toNat
    (s.accessed c.func (chunkLength s.vars) a)
  have moved := (sendChunk_unmoved (chunkLength s.vars).toNat
    (s.accessed c.func (chunkLength s.vars) a)).and
      (writeStream_keepsBus loadBuffer (chunkLength s.vars).toNat _ bus)
  -- what is given is a piece of the buffer
  have size {new : List Event} {p : Nat}
      (given : occurrences Event.given new = a.buffer.toList.take p)
      (less : p ≤ (chunkLength s.vars).toNat) : (occurrences Event.given new).length = p := by
    have small := chunkLength_le s.vars
    rw [given, List.length_take, Vector.length_toList]
    omega
  refine wp.bind (((streamed.and untaken).and ((spec.and reset).and moved)).mono
    (fun _ _ ends => ends) fun t cut => ?_) fun ok t ends => ?_
  · obtain ⟨⟨streamed, untaken⟩, ⟨⟨p, less, new, log, -, given, -⟩, -⟩, -⟩ := cut
    obtain ⟨_, phase, -⟩ :=
      gives (oneWay_given.streams streamed untaken log) (by rw [size given less]; exact less)
    exact ⟨_, by rw [log]; exact phase⟩
  obtain ⟨⟨streamed, untaken⟩, ⟨⟨new, p, log, -, given, done, abandoned⟩, reset⟩, unmoved, bus⟩ :=
    ends
  have less : p ≤ (chunkLength s.vars).toNat := by
    cases ok with
    | true =>
        rcases done rfl with ⟨-, all⟩ | ⟨-, fewer⟩
        · exact all.le
        · exact fewer.le
    | false => exact (abandoned rfl).2.le
  obtain ⟨whole', phase, sound'⟩ := gives (oneWay_given.streams streamed untaken log) (by
    rw [size given less]
    exact less)
  rw [← log, size given less] at phase
  have accepted := unmoved.accepted.trans ((accessed_accepted s _ _ a).trans accepted)
  have ahead := ahead.unmoved unmoved
  have length := chunkLength_unmoved unmoved
  have same : c.moved t = c.moved s := by
    obtain ⟨_, _, _, _, vars⟩ := unmoved.vars
    rw [VueCommand.moved, vars]
    rfl
  rw [wp_ite]
  refine ⟨fun yes => ?_, fun no => ?_⟩
  · rw [show chunkLength s.vars = chunkLength t.vars from length.symm] at ahead phase done less ⊢
    rw [← same] at phase sound most
    refine endChunk_follows bus accepted ahead phase rfl (by omega) (fun yes' => ?_) fun u =>
      finishRead_follows
    obtain ⟨before, sound'⟩ := sound' yes'
    have count := (done yes).resolve_right fun failed => failed.1 sound'
    rw [sound before, count.2]
  · have set := reset.2 (by simpa using no)
    exact ⟨_, phase, ahead.defined, ahead.task, accepted, fun clear => absurd clear set⟩

/-! ## Commands -/

/-- A command whose bytes have been taken in is judged. -/
theorem judgeCommand_follows {s : World} (rest : s.board.Resting)
    (idle : s.vars.curVueState = .idle) {whole : Bool} {bytes : Nat}
    (phase : phaseOf s.log = some (.listening whole bytes)) (all : whole = true → bytes = 32) :
    wp judgeCommand (fun _ t => Follows t) Lawful s := by
  rw [judgeCommand, wp_bind, onVars, wp_modify, wp_bind, wp_state, wp_ite, wp_ite]
  refine ⟨fun defined => ⟨fun zero => ?_, fun positive => ?_⟩, fun undefined_ => ?_⟩
  · have ignored : phaseOf (.ignore s.vars.curCommand.correct :: s.log) = some .ready :=
      phaseOf_step phase rfl (if_pos ⟨all, fun both => both.2 zero⟩)
    exact ⟨.ready, ignored, idle⟩
  · rw [wp_of_value (startCommand_eq defined)]
    obtain ⟨c, eq⟩ : ∃ c, c = s.vars.curCommand.correct := ⟨_, rfl⟩
    rw [← eq] at defined positive
    have accepted : phaseOf (.accept c :: s.log) = some (.moving c true 0 0) :=
      phaseOf_step phase rfl (if_pos ⟨all, defined, positive⟩)
    have silent := vueWriteAddressFull_cycles rest c.start
    have begun := begun_accepted { s with vars := { s.vars with curCommand := c } } c
    have moved : c.moved (World.begun { s with vars := { s.vars with curCommand := c } } c) = 0 :=
      Nat.sub_self _
    show Follows (World.begun { s with vars := { s.vars with curCommand := _ } } _)
    rw [← eq]
    refine ⟨.moving c true 0 0, ?_, defined, rfl, begun, fun _ => ?_⟩
    · show phaseOf (_ ++ .accept c :: s.log) = _
      rw [phaseOf_quiet (action_of_ports silent), accepted]
    · rw [moved]
      refine ⟨?_, le_refl _, fun _ => rfl⟩
      rcases c.func.step_range with step | step <;> simp [VueCommand.words, rounds, step]
  · rw [wp_bind, note, wp_modify]
    have rejected : phaseOf (.reject s.vars.curCommand.correct :: s.log) = some .ready :=
      phaseOf_step phase rfl (if_pos ⟨all, fun both => undefined_ both.1⟩)
    have refused {t : World} (framed : Framed OfUsb { s with
        vars := { s.vars with curCommand := s.vars.curCommand.correct }
        log := .reject s.vars.curCommand.correct :: s.log } t) : phaseOf t.log = some .ready := by
      obtain ⟨new, log, ok, -⟩ := (Served.of_framed framed).log
      rw [log, phaseOf_quiet fun e member => action_of_control (ok e member)]
      exact rejected
    refine (refuseOut_framed _).mono (fun _ t framed => ⟨.ready, refused framed, ?_⟩)
      fun _ framed => ⟨_, refused framed⟩
    show t.vars.curVueState = .idle
    rw [framed.vars]
    exact idle

theorem vueCommandTask_follows {s : World} (held : Conforming s) (found : s.OutFound)
    (idle : s.vars.curVueState = .idle) :
    wp vueCommandTask (fun _ t => Follows t) Lawful s := by
  obtain ⟨p, phase, enters⟩ := held.follows.idle idle
  rw [vueCommandTask, wp_bind, wp_state, wp_bind, note, wp_modify]
  obtain ⟨u, eq⟩ : ∃ u : World, u = { s with log := .command s.vars.curCommand :: s.log } :=
    ⟨_, rfl⟩
  have entered : phaseOf u.log = some (.listening true 0) := by
    rw [eq]
    exact phaseOf_step phase rfl enters
  have bus : BusInvariant u := by
    rw [eq]
    exact note_keepsBus (e := .command s.vars.curCommand) trivial s held.machine.bus
  have at_ : u.At vueCartReaderOutEpAddr := by
    rw [eq]
    exact .inl found.selected
  have state : u.vars.curVueState = .idle := by
    rw [eq]
    exact idle
  rw [← eq]
  have takes {new : List Event} (streams : ∀ e ∈ new, e.Streams Event.taken .take)
      (less : (occurrences Event.taken new).length ≤ 32) :
      ∃ whole', phaseOf (new ++ u.log) =
          some (.listening whole' (0 + (occurrences Event.taken new).length)) ∧
        (whole' = true → true = true ∧ Sound new) := by
    have moves (whole : Bool) (n : Nat) (less : n < 32) :
        (Phase.listening whole n).next .take = some (.listening whole (n + 1)) := if_pos less
    exact phaseOf_stream moves (fun _ _ => rfl) streams entered (by omega)
  have received := ((readStream_streamed storeCommand (fun _ _ _ => ⟨_, _, rfl⟩) 32 u).and
    (readStream_plain storeCommand 32 u)).and
    ((readStream_spec command_memory (by decide) at_ (by simp)).and
      (readStream_keepsBus storeCommand (fun _ _ _ => rfl) (fun _ _ _ => ⟨rfl, rfl⟩) 32 u bus))
  refine wp.bind (received.mono (fun _ _ ends => ends) fun t cut => ?_) fun ok t ends => ?_
  · obtain ⟨⟨streamed, given⟩, ⟨p, less, new, received, count, -⟩, -⟩ := cut
    obtain ⟨_, phase, -⟩ := takes (oneWay_taken.streams streamed given received.log) (by omega)
    exact ⟨_, by rw [received.log]; exact phase⟩
  obtain ⟨⟨streamed, given⟩, ⟨new, received, done, abandoned⟩, bus⟩ := ends
  have idle : t.vars.curVueState = .idle := by
    obtain ⟨_, _, _, _, _, vars⟩ := streamed.vars
    rw [vars]
    exact state
  have less : (occurrences Event.taken new).length ≤ 32 := by
    cases ok with
    | true =>
        rcases done rfl with ⟨-, all⟩ | ⟨-, fewer⟩
        · exact all.le
        · exact fewer.le
    | false => exact (abandoned rfl).2.le
  obtain ⟨whole', phase, sound⟩ := takes (oneWay_taken.streams streamed given received.log) less
  rw [← received.log] at phase
  rw [wp_ite]
  refine ⟨fun yes => judgeCommand_follows bus.ready.resting idle phase fun yes' => ?_,
    fun _ => ⟨_, phase, idle⟩⟩
  have count := (done yes).resolve_right fun failed => failed.1 (sound yes').2
  rw [count.2]

/-! ## Runs -/

theorem conforming_endpoints : EndpointsKeep Conforming Lawful := by
  refine .of_framed (fun e ok s held => ?_) conforming_of_framed fun _ held => held.follows.lawful
  have quiet : e.action = none := by cases e <;> first | rfl | cases ok
  have accepted : e.accepted = none := by cases e <;> first | rfl | cases ok
  have unmoved : Unmoved s { s with log := e :: s.log } :=
    ⟨⟨_, _, _, _, rfl⟩, acceptedCommand_cons accepted s.log, id, fun _ => .inl rfl⟩
  have one : ({ s with log := e :: s.log } : World).log = [e] ++ s.log := rfl
  have follows : Follows { s with log := e :: s.log } := held.follows.extended one
    (fun f member => by rwa [List.mem_singleton.mp member]) unmoved
  have machine : Machine { s with log := e :: s.log } := machine_endpoints.note e ok s held.machine
  exact ⟨machine, follows⟩

theorem conforming_tasks : TasksKeep Conforming Conforming Lawful := by
  have both {m : Fw Unit} {s : World} {C : World → Prop} (machine : wp m (fun _ t => Machine t) C s)
      (follows : wp m (fun _ t => Follows t) Lawful s) :
      wp m (fun _ t => Conforming t) Lawful s :=
    (machine.and follows).mono (fun _ _ ends => ⟨ends.1, ends.2⟩) fun _ cut => cut.2
  exact
    { command := fun s held found idle => both (machine_tasks.command s held.machine found idle)
        (vueCommandTask_follows held found idle)
      write := fun s held found writing => both (machine_tasks.write s held.machine found writing)
        (vueBulkWriteTask_follows held found writing)
      refuse := fun s held _ _ _ =>
        Stays.of_moves refuseOut_framed conforming_of_framed
          (fun _ held => held.follows.lawful) s held
      free := fun s x held => Stays.of_moves (endpointClearOut_framed .task) conforming_of_framed
        (fun _ held => held.follows.lawful) _
          (conforming_endpoints.note (.operate .clearOut x) rfl s held)
      read := fun s held clear reading at_ =>
        both (machine_tasks.read s held.machine clear reading at_)
        (vueBulkReadTask_follows held clear reading) }

theorem resetBlock_follows {s : World} (held : Conforming s) :
    wp resetBlock (fun _ t => Follows t) Lawful s := by
  obtain ⟨p, phase⟩ := held.follows.lawful
  obtain ⟨u, eq⟩ : ∃ u : World, u = { s with log := .resetBegin :: s.log } := ⟨_, rfl⟩
  have begun : phaseOf u.log = some p := by
    rw [eq]
    exact (phaseOf_skip rfl _).trans phase
  have ready : u.BusReady := by
    rw [eq]
    exact ⟨held.machine.bus.ready.resting, held.machine.bus.ready.selects,
      held.machine.bus.ready.header⟩
  have still {t : World} (moved : InBlock u t) : phaseOf t.log = some p := by
    obtain ⟨new, log, all⟩ := moved.log
    rw [log, phaseOf_quiet fun e member => action_of_reset (all e member), begun]
  rw [resetBlock, note, wp_bind, wp_modify, ← eq]
  refine wp.bind (((restoreDefaultState_inBlock u).and (restoreDefaultState_board ready)).mono
    (fun _ _ ends => ends) fun t cut => ⟨p, still cut.1⟩) fun _ t ends => ?_
  obtain ⟨moved, idle, -⟩ := ends
  have reset : phaseOf (.resetEnd :: t.log) = some .ready :=
    phaseOf_step (still moved) rfl (by cases p <;> rfl)
  exact ⟨.ready, reset, idle⟩

theorem Follows.offer {w : World} (held : Follows w) (i : Input) : Follows (w.offer i) := by
  obtain ⟨p, phase, fits⟩ := held.phase
  exact ⟨p, phase, by cases p <;> exact fits⟩

theorem mainLoop_conforming (inputs : List Input) : Stays Conforming Lawful (mainLoop inputs) := by
  refine mainLoop_stays inputs (fun i _ s held => ⟨held.machine.offer i, held.follows.offer i⟩)
    (mainIteration_stays (fun s held => ?_) (vueTask_stays conforming_endpoints conforming_tasks)
      fun s held _ => ?_)
  · exact ((usbUsbTask_keepsMachine s held.machine).and (usbUsbTask_served s)).mono
      (fun _ _ ends => ⟨ends.1, held.follows.served ends.2⟩)
      fun _ cut => (held.follows.served cut.2).lawful
  · exact ((resetBlock_keepsMachine s held.machine).and (resetBlock_follows held)).mono
      (fun _ _ ends => ⟨ends.1, ends.2⟩) fun _ cut => cut.2

theorem Started.conforming {w : World} (started : Started w) : Conforming w := by
  have machine := started.machine
  obtain ⟨_, _, _, _, _, rfl⟩ := started
  exact ⟨machine, .ready, rfl, rfl⟩

/-- An event counts once, as the action that it is. -/
structure Event.Counts (e : Event) : Prop where
  accepted : e.action.bind Action.accepted = e.accepted
  strobes : e.action.toList.countP Action.isStrobe = e.cycle.toList.length
  gives : e.action.toList.countP Action.isGive = e.given.toList.length

theorem Event.counts (e : Event) : e.Counts := by
  cases e with
  | port actor before after =>
      cases actor with
      | task =>
          have act : (Event.port .task before after).action =
              (busCycle before after).map fun y => .strobe y.drive.read := rfl
          have cycle : (Event.port .task before after).cycle = busCycle before after := rfl
          refine ⟨?_, ?_, ?_⟩
          all_goals rw [act]
          · cases busCycle before after <;> rfl
          · rw [cycle]
            cases busCycle before after <;> rfl
          · cases busCycle before after <;> rfl
      | _ => exact ⟨rfl, rfl, rfl⟩
  | stream r =>
      have act : (Event.stream r).action = if r.isError then some .fail else none := rfl
      refine ⟨?_, ?_, ?_⟩
      all_goals
        rw [act]
        cases r.isError <;> rfl
  | _ => exact ⟨rfl, rfl, rfl⟩

theorem accepted_actions (log : List Event) :
    (occurrences Event.action log).filterMap Action.accepted = occurrences Event.accepted log := by
  rw [occurrences, ← List.filterMap_reverse, List.filterMap_filterMap, List.filterMap_reverse]
  exact congrArg (fun kind => (log.filterMap kind).reverse) (funext fun e => e.counts.accepted)

theorem countP_actions {α : Type} {kind : Event → Option α} {p : Action → Bool}
    (each : ∀ e : Event, e.action.toList.countP p = (kind e).toList.length) (log : List Event) :
    (occurrences Event.action log).countP p = (occurrences kind log).length := by
  induction log with
  | nil => rfl
  | cons e log ih =>
      rw [occurrences_cons, occurrences_cons, List.countP_append, List.length_append, ih, each e]

/-- **Nothing is done unasked.** In every run, whatever fails and however often it is reset, the
tasks make no more bus cycles than the commands that were accepted have words, and give the host no
more bytes than it has asked for. -/
theorem mainLoop_withinAsked {start : World} (started : Started start) (inputs : List Input)
    (log : List Event) (all : (mainLoop inputs start).state.log = log) :
    (cyclesOf log).length ≤
        ((occurrences Event.accepted log).map fun c => c.words c.length.toNat).sum ∧
      (givesOf log).length ≤ ((occurrences Event.accepted log).map VueCommand.sent).sum := by
  obtain ⟨p, phase⟩ := (mainLoop_conforming inputs).exit (fun _ held => held.follows.lawful)
    started.conforming
  rw [all] at phase
  obtain ⟨words, bytes⟩ := WithinAsked.of_accepts phase
  rw [countP_actions fun e => e.counts.strobes, wordsAsked, accepted_actions] at words
  rw [countP_actions fun e => e.counts.gives, bytesAsked, accepted_actions] at bytes
  exact ⟨le_trans (Nat.le_add_right _ _) words, le_trans (Nat.le_add_right _ _) bytes⟩

/-- The word of `wordInputs` takes a cycle at most, and no byte goes to the host. -/
theorem mainLoop_withinAsked_word :
    (cyclesOf (wordEnd none).log).length ≤ 1 ∧ (givesOf (wordEnd none).log).length ≤ 0 := by
  have asked := mainLoop_withinAsked wordStart_started (wordInputs none) (wordEnd none).log rfl
  have one : ((occurrences Event.accepted (wordEnd none).log).map
      fun c => c.words c.length.toNat).sum = 1 := by decide +kernel
  have none_ : ((occurrences Event.accepted (wordEnd none).log).map VueCommand.sent).sum = 0 := by
    decide +kernel
  exact ⟨one ▸ asked.1, none_ ▸ asked.2⟩

end VueCartReader
