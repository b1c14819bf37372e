import VueCartReader.Transfer.Progress
import VueCartReader.Transfer.Write

/-!
# What a read delivers

While one cartridge is plugged in, what a read sends to the host is what the cartridge holds
at the words that follow the address of the command, on the lanes that the access mode asks
for: every byte once, in order, and as many as the command asks for (`read_delivers`). When
the host collects its packets plays no part in it, and neither do the packets that it sends
meanwhile.
-/

set_option autoImplicit false

namespace VueCartReader

open Program

/-! ## What is asked for -/

/-- A read, in any access mode. -/
structure WholeRead (packet : Vector Byte 32) : Prop where
  formed : WellFormed packet
  reads : operationOf packet = 0#32

/-- What the cartridge holds at the `k`-th word from the address of the command on, in the
target of the command. -/
def wordAt (packet : Vector Byte 32) (cartridge : Cartridge) (k : Nat) : Byte × Byte :=
  cartridge (flagBits (flagsOf (targetOf packet)))
    (((addressOf packet &&& 0xFFFFFF#32) >>> 1).setWidth 23 + BitVec.ofNat 23 k)

/-- The `j`-th byte that the command asks for. -/
def byteAt (packet : Vector Byte 32) (cartridge : Cartridge) (j : Nat) : Byte :=
  if modeOf packet = 0#8 then
    if j % 2 = 0 then (wordAt packet cartridge (j / 2)).1 else (wordAt packet cartridge (j / 2)).2
  else if modeOf packet = 1#8 then (wordAt packet cartridge j).1
  else (wordAt packet cartridge j).2

/-- All the bytes that the command asks for. -/
def bytesOf (packet : Vector Byte 32) (cartridge : Cartridge) : List Byte :=
  (List.range (lengthOf packet).toNat).map (byteAt packet cartridge)

theorem bytesOf_length (packet : Vector Byte 32) (cartridge : Cartridge) :
    (bytesOf packet cartridge).length = (lengthOf packet).toNat := by
  rw [bytesOf, List.length_map, List.length_range]

/-- Both halves of some words, one word after the other. -/
theorem getElem_pairs {α : Type} (lower upper : Nat → α) {n i : Nat} (inside : i < 2 * n) :
    ((List.range n).flatMap fun k => [lower k, upper k])[i]? =
      some (if i % 2 = 0 then lower (i / 2) else upper (i / 2)) := by
  have length (n : Nat) : ((List.range n).flatMap fun k => [lower k, upper k]).length = 2 * n := by
    simp [Nat.mul_comm]
  induction n with
  | zero => exact absurd inside (by omega)
  | succ n ih =>
      rw [List.range_succ, List.flatMap_append, List.flatMap_singleton]
      by_cases before : i < 2 * n
      · rw [List.getElem?_append_left (by rwa [length])]
        exact ih before
      · rw [List.getElem?_append_right (by rw [length]; omega), length]
        rcases (by omega : i = 2 * n ∨ i = 2 * n + 1) with rfl | rfl
        · rw [Nat.sub_self, if_pos (by omega), Nat.mul_div_cancel_left n (by decide)]
          rfl
        · rw [Nat.add_sub_cancel_left, if_neg (by omega), show (2 * n + 1) / 2 = n by omega]
          rfl

namespace WholeRead

variable {packet : Vector Byte 32} (read : WholeRead packet)
include read

theorem task : (VueCommand.ofPacket packet).task = .read := by
  rw [VueCommand.ofPacket_task read.formed, if_pos read.reads]

theorem func : (VueCommand.ofPacket packet).func = readFunc (modeOf packet) := by
  rw [VueCommand.func, VueCommand.ofPacket_operation, if_pos read.reads]
  rfl

/-- The bytes that the routine reads are those that the command asks for. -/
theorem readOut (cartridge : Cartridge) {j : Nat} (inside : j < (lengthOf packet).toNat) :
    ((VueCommand.ofPacket packet).func.readOut cartridge (VueCommand.ofPacket packet).start
      ((VueCommand.ofPacket packet).words (VueCommand.ofPacket packet).length.toNat))[j]? =
      some (byteAt packet cartridge j) := by
  have defined := (VueCommand.ofPacket_defined packet).mpr read.formed
  have clamped : (VueCommand.ofPacket packet).Clamped := VueCommand.correct_clamped _
  have word (k : Nat) : cartridge (flagBits (VueCommand.ofPacket packet).start)
      (wordAddress (VueCommand.ofPacket packet).start + BitVec.ofNat 23 k) =
      wordAt packet cartridge k := by
    rw [VueCommand.flagBits_start clamped, VueCommand.target_flags defined,
      VueCommand.wordAddress_start defined, VueCommand.ofPacket_address]
    rfl
  have mode : modeOf packet = 0#8 ∨ modeOf packet = 1#8 ∨ modeOf packet = 2#8 := by
    have small : (modeOf packet).toNat ≤ 2 := read.formed.1
    rcases (by omega : (modeOf packet).toNat = 0 ∨ (modeOf packet).toNat = 1 ∨
        (modeOf packet).toNat = 2) with
      eq | eq | eq
    · exact .inl (BitVec.eq_of_toNat_eq eq)
    · exact .inr (.inl (BitVec.eq_of_toNat_eq eq))
    · exact .inr (.inr (BitVec.eq_of_toNat_eq eq))
  rw [AccessFunc.readOut]
  simp only [word]
  rw [VueCommand.words, VueCommand.ofPacket_length, read.func, readFunc, byteAt]
  rcases mode with eq | eq | eq
  · rw [if_pos eq, if_pos eq]
    refine getElem_pairs (fun k => (wordAt packet cartridge k).1)
      (fun k => (wordAt packet cartridge k).2) ?_
    show j < 2 * rounds _ 2
    rw [rounds]
    omega
  · have other : ¬ modeOf packet = 0#8 := by
      rw [eq]
      decide
    rw [if_neg other, if_neg other, if_pos eq, if_pos eq]
    show ((List.range (rounds _ 1)).flatMap fun k => [(wordAt packet cartridge k).1])[j]? = _
    rw [rounds_one, ← List.map_eq_flatMap, List.getElem?_map, List.getElem?_range inside]
    rfl
  · have other : ¬ modeOf packet = 0#8 ∧ ¬ modeOf packet = 1#8 := by
      rw [eq]
      decide
    rw [if_neg other.1, if_neg other.1, if_neg other.2, if_neg other.2, if_pos eq]
    show ((List.range (rounds _ 1)).flatMap fun k => [(wordAt packet cartridge k).2])[j]? = _
    rw [rounds_one, ← List.map_eq_flatMap, List.getElem?_map, List.getElem?_range inside]
    rfl

end WholeRead

/-! ## Resets are asked for -/

/-- When the reset block begins, a reset is due. -/
def Due (e : Event) (past : List Event) : Prop := e = .resetBegin → resetPending past = true

/-- What is known of resets in a run. -/
structure ResetsDue (w : World) : Prop where
  reset : ResetInvariant w
  history : History Due w.log

theorem due_of_unmarked {s t : World} (unmarked : Unmarked s t) (held : History Due s.log) :
    History Due t.log := by
  obtain ⟨new, log, all⟩ := unmarked
  rw [log]
  refine held.append_of_forall fun e member _ begun => ?_
  have other := all e member
  rw [begun] at other
  cases other

/-- The reset block runs while a reset is due. -/
theorem resetBlock_due {s : World} (held : ResetsDue s) (set : s.vars.bulkReset ≠ 0#32) :
    wp resetBlock (fun _ t => ResetsDue t) ResetsDue s := by
  have due {t : World} {new : List Event} (log : t.log = new ++ .resetBegin :: s.log)
      (all : ∀ e ∈ new, e ≠ .resetBegin) : History Due t.log := by
    have begun : History Due (.resetBegin :: s.log) :=
      ⟨fun _ => held.reset.pending.mp set, held.history⟩
    rw [log]
    exact begun.append_of_forall fun e member _ begins => absurd begins (all e member)
  have rest : Moves (Logs fun e => e ≠ .resetBegin) (do
      restoreDefaultState
      onVars fun v => { v with bulkReset := 0#32 }
      note .resetEnd) := by
    refine (restoreDefaultState_inBlock.mono fun _ _ moved => moved.log.mono fun e ok => ?_).bind
      fun _ => .bind (Moves.modify fun _ => .none rfl) fun _ => Moves.modify fun _ => .one rfl ?_
    · rintro rfl
      cases ok
    · exact Event.noConfusion
  have reset := resetBlock_keepsReset s held.reset
  rw [resetBlock, note, wp_bind, wp_modify] at reset ⊢
  refine ((rest _).and reset).mono (fun _ t ends => ?_) fun t cut => ?_
  · obtain ⟨⟨new, log, all⟩, held⟩ := ends
    exact ⟨held, due log all⟩
  · obtain ⟨⟨new, log, all⟩, held⟩ := cut
    exact ⟨held, due log all⟩

theorem mainLoop_due (inputs : List Input) : Stays ResetsDue ResetsDue (mainLoop inputs) := by
  have stays {m : Fw Unit} (reset : KeepsReset m) (unmarked : Moves Unmarked m) :
      Stays ResetsDue ResetsDue m := fun s held =>
    ((reset s held.reset).and (unmarked s)).mono
      (fun _ _ ends => ⟨ends.1, due_of_unmarked ends.2 held.history⟩)
      fun _ cut => ⟨cut.1, due_of_unmarked cut.2 held.history⟩
  have usb : KeepsReset usbUsbTask := .of_moves usbUsbTask_served
    (fun _ _ served => resetInvariant_of_streamed (.of_served served)) fun _ => id
  exact mainLoop_stays inputs
    (fun _ _ _ held => ⟨⟨held.reset.pending, held.reset.log⟩, held.history⟩)
    (mainIteration_stays (stays usb usbUsbTask_unmarked) (stays vueTask_keepsReset vueTask_unmarked)
      fun _ held set => resetBlock_due held set)

theorem Started.resetsDue {w : World} (started : Started w) : ResetsDue w := by
  have reset := started.resetInvariant
  obtain ⟨_, _, _, _, _, rfl⟩ := started
  exact ⟨reset, trivial⟩

theorem resetPending_of_append {new log : List Event} (due : resetPending (new ++ log) = true) :
    .resetRequest ∈ new ∨ resetPending log = true := by
  induction new with
  | nil => exact .inr due
  | cons e new ih =>
      cases e with
      | resetRequest => exact .inl (List.mem_cons_self ..)
      | resetEnd => exact nomatch due
      | _ => exact (ih due).imp (List.mem_cons_of_mem _) id

/-- While a session is calm no reset is due. -/
theorem settled_of_calm {log : List Event} (honoured : History Honoured log) {c : VueCommand}
    (accepted : acceptedCommand log = some c) {earlier : List Event} (calm : Calm earlier) :
    resetPending (earlier ++ beforeAccept log) = false := by
  obtain ⟨past, eq⟩ := accepted_split accepted
  have whole := since_append_before log
  rw [eq] at whole ⊢
  -- none was due when the command was accepted
  have free : resetPending past = false := (honoured.split whole.symm).1 rfl
  cases pending : resetPending (earlier ++ .accept c :: past) with
  | false => rfl
  | true =>
      rcases resetPending_of_append pending with requested | still
      · exact nomatch calm _ requested
      · exact nomatch free.symm.trans still

/-- A calm session is not reset. -/
theorem lasting_of_calm {log : List Event} (honoured : History Honoured log)
    (due : History Due log) {c : VueCommand} (accepted : acceptedCommand log = some c)
    (calm : Calm (sinceAccept log)) : Lasting (sinceAccept log) := by
  refine ⟨calm, fun member => ?_⟩
  obtain ⟨later, earlier, split⟩ := List.append_of_mem member
  obtain ⟨here, -, -⟩ := since_split split accepted
  rw [split] at calm
  have before := (Calm.append.mp (show Calm ((later ++ [.resetBegin]) ++ earlier) by
    rwa [List.append_assoc])).2
  exact nomatch (settled_of_calm honoured accepted before).symm.trans (due.split here rfl)

/-! ## Plugging in a cartridge -/

/-- What was recorded before a cartridge was plugged in promises nothing of it. -/
theorem history_plugged {log : List Event} (held : History (Account none) log)
    (cartridge : Cartridge) {since : Nat} (before : log.length ≤ since) :
    History (Account (some ⟨cartridge, since⟩)) log := by
  induction log with
  | nil => trivial
  | cons e log ih =>
      rw [List.length_cons] at before
      refine ⟨⟨held.1.judged, held.1.cycle, fun x given => ?_, held.1.finish⟩,
        ih held.2 (by omega)⟩
      obtain ⟨c, accepted, next⟩ := held.1.give x given
      refine ⟨c, accepted, next.reading, next.inside, fun p member late => ?_⟩
      obtain rfl : ⟨cartridge, since⟩ = p := Option.some.inj member
      have late : since ≤ log.length := late
      omega

theorem Stocked.plug {w : World} (held : Stocked none w) (i : Input) :
    Stocked (some ⟨i.cartridge, w.log.length⟩) (w.offer i) := by
  have ledger := held.1.offer (i := i) nofun
  refine ⟨⟨ledger.machine, ?_, history_plugged held.1.books.history _ (le_refl _),
    ledger.books.kept, ledger.books.ended⟩, held.2.sending.spares (.of_none rfl rfl),
    held.2.drained, held.2.control⟩
  intro p member
  obtain rfl : ⟨i.cartridge, w.log.length⟩ = p := Option.some.inj member
  rfl

/-! ## What is delivered -/

/-- A command has been accepted that came as these 32 bytes, and since then no control request
has been served and no stream call has failed. -/
structure CalmSession (packet : Vector Byte 32) (log : List Event) : Prop where
  accepted : acceptedCommand log ≠ none
  heard : takesOf (heardOf log) = packet.toList
  calm : Calm (sinceAccept log)
  sound : Sound (sinceAccept log)

theorem CalmSession.command {packet : Vector Byte 32} {log : List Event}
    (session : CalmSession packet log) {plug : Option Plug}
    (accounted : History (Account plug) log) :
    acceptedCommand log = some (.ofPacket packet) :=
  command_of_heard session.accepted session.heard accounted

/-- In a run from some world on, every session of a read that begins in it delivers what the
cartridge holds: what has been delivered is always a beginning of what is asked for; between
two rounds the firmware is idle, all has been delivered and no chip is selected, or else it
still reads, and more is to be delivered than what is in the bank; and then the rest is
delivered when the host collects in as many rounds as chunks are left. -/
structure Delivers (packet : Vector Byte 32) (cartridge : Cartridge) (before : World)
    (inputs : List Input) : Prop where
  order : ∀ later mid, (mainLoop inputs before).state.log = later ++ (mid ++ before.log) →
    acceptedCommand mid ≠ none → CalmSession packet (mid ++ before.log) →
    deliveredOf (sinceAccept (mid ++ before.log)) <+: bytesOf packet cartridge
  ends : ∀ w mid, mainLoop inputs before = .value () w → w.log = mid ++ before.log →
    acceptedCommand mid ≠ none → CalmSession packet w.log →
    (w.vars.curVueState = .idle ∧ .finish ∈ sinceAccept w.log ∧
      noSelect w.board.flagLatch = true ∧
      deliveredOf (sinceAccept w.log) = bytesOf packet cartridge) ∨
    (w.vars.curVueState = .read ∧
      deliveredOf (sinceAccept w.log) ++ w.usb.uncommitted <+: bytesOf packet cartridge ∧
      (deliveredOf (sinceAccept w.log) ++ w.usb.uncommitted).length < (lengthOf packet).toNat)
  progress : ∀ w mid, mainLoop inputs before = .value () w → w.log = mid ++ before.log →
    acceptedCommand mid ≠ none → CalmSession packet w.log → w.vars.curVueState = .read →
    w.usb.deviceState = .configured → w.usb.inStalled = false → ∀ more : List Input,
    (∀ i ∈ more, i.Serves .read ∧ i.cartridge = cartridge) →
    more.length = (w.remaining + 63) / 64 →
    ∃ t, mainLoop more w = .value () t ∧ CalmSession packet t.log ∧
      t.vars.curVueState = .idle ∧ noSelect t.board.flagLatch = true ∧
      deliveredOf (sinceAccept t.log) = bytesOf packet cartridge

/-- What has been committed is a beginning of what has been given. -/
theorem delivered_of_gives {log : List Event} (history : History Prompt log)
    (accepted : (acceptedCommand log).isSome = true) (lasting : Lasting (sinceAccept log)) :
    deliveredOf (sinceAccept log) <+: givesOf (sinceAccept log) := by
  induction log with
  | nil => exact nomatch accepted
  | cons e log ih =>
      cases isAccept : e.accepted with
      | some c =>
          have none_ : sinceAccept (e :: log) = [] := by
            rw [sinceAccept, List.takeWhile_cons, isAccept]
            rfl
          rw [none_]
          exact List.nil_prefix
      | none =>
          rw [acceptedCommand_cons isAccept] at accepted
          rw [sinceAccept_cons isAccept] at lasting ⊢
          have more : givesOf (sinceAccept log) <+: givesOf (e :: sinceAccept log) := by
            show _ <+: occurrences Event.given (e :: sinceAccept log)
            rw [occurrences_cons]
            exact List.prefix_append _ _
          cases committed : e.committed with
          | none =>
              have same : deliveredOf (e :: sinceAccept log) = deliveredOf (sinceAccept log) := by
                rw [deliveredOf, commitsOf, occurrences_cons, committed]
                exact congrArg List.flatten (List.append_nil _)
              rw [same]
              exact (ih history.2 accepted lasting.past).trans more
          | some data =>
              have taken : deliveredOf (e :: sinceAccept log) =
                  deliveredOf (sinceAccept log) ++ data := by
                rw [deliveredOf, commitsOf, occurrences_cons, committed, List.flatten_append]
                exact congrArg (deliveredOf _ ++ ·) List.flatten_singleton
              rw [taken, history.1 data committed accepted lasting.past]
              exact more

section Delivers

variable {packet : Vector Byte 32} {cartridge : Cartridge} {mid old : List Event}

/-- A session that begins after the log had a length has all its events after that. -/
theorem beforeAccept_length (accepted : acceptedCommand mid ≠ none) :
    old.length ≤ (beforeAccept (mid ++ old)).length := by
  obtain ⟨c, found⟩ := Option.ne_none_iff_exists'.mp accepted
  obtain ⟨past, eq⟩ := accepted_split found
  have whole := since_append_before mid
  rw [eq] at whole
  rw [← whole, List.append_assoc, beforeAccept_append accepted_of_since]
  show old.length ≤ (Event.accept c :: (past ++ old)).length
  rw [List.length_cons, List.length_append]
  omega

/-- What a read has given is a beginning of what is asked for. -/
theorem gives_of_asked (read : WholeRead packet)
    (accounted : History (Account (some ⟨cartridge, old.length⟩)) (mid ++ old))
    (accepted : acceptedCommand mid ≠ none) (session : CalmSession packet (mid ++ old)) :
    givesOf (sinceAccept (mid ++ old)) <+: bytesOf packet cartridge := by
  have command := session.command accounted
  refine occurrences_prefix fun late e early x split given => ?_
  obtain ⟨here, since, found⟩ := since_split split command
  obtain ⟨c, found', next⟩ := (accounted.split here).give x given
  obtain rfl : .ofPacket packet = c := Option.some.inj (found.symm.trans found')
  have calm := session.calm
  have sound := session.sound
  rw [split] at calm sound
  have calm : Calm early := (Calm.append.mp (show Calm ((late ++ [e]) ++ early) by
    rwa [List.append_assoc])).2
  have sound : Sound early := (Sound.append.mp (show Sound ((late ++ [e]) ++ early) by
    rwa [List.append_assoc])).2
  rw [← since] at calm sound
  have inside := next.inside sound
  have content := next.content _ rfl (by
    rw [List.length_append]
    exact le_trans (beforeAccept_length accepted) (Nat.le_add_left _ _)) calm.undisturbed sound
  rw [since, VueCommand.ofPacket_length] at inside
  rw [since, read.readOut cartridge inside] at content
  rw [bytesOf, List.getElem?_map, List.getElem?_range inside]
  exact content

/-- What is known of a run while the cartridge is plugged in. -/
theorem mainLoop_plugged {before : World} (held : Stocked none before) {i : Input}
    {rest : List Input} (plugged : ∀ j ∈ i :: rest, j.cartridge = cartridge) :
    wp (mainLoop (i :: rest))
      (fun _ t => Stocked (some ⟨cartridge, before.log.length⟩) t)
      (Dispatched (some ⟨cartridge, before.log.length⟩)) before := by
  have here : i.cartridge = cartridge := plugged i (List.mem_cons_self ..)
  have stocked := held.plug i
  rw [here] at stocked
  refine mainLoop_stocked (i :: rest) (fun j member p found => ?_) (before.offer i) stocked
  obtain rfl : ⟨cartridge, before.log.length⟩ = p := Option.some.inj found
  exact plugged j member

/-- In a calm session what has been delivered is a beginning of what is asked for. -/
theorem CalmSession.delivers (session : CalmSession packet (mid ++ old)) (read : WholeRead packet)
    (accounted : History (Account (some ⟨cartridge, old.length⟩)) (mid ++ old))
    (prompt : History Prompt (mid ++ old)) (honoured : History Honoured (mid ++ old))
    (due : History Due (mid ++ old)) (accepted : acceptedCommand mid ≠ none) :
    deliveredOf (sinceAccept (mid ++ old)) <+: bytesOf packet cartridge := by
  have command := session.command accounted
  have lasting := lasting_of_calm honoured due command session.calm
  refine (delivered_of_gives prompt ?_ lasting).trans
    (gives_of_asked read accounted accepted session)
  rw [command]
  rfl

/-- In a calm session no reset is due. -/
theorem CalmSession.unasked {w : World} (session : CalmSession packet w.log) {c : VueCommand}
    (command : acceptedCommand w.log = some c) (due : ResetsDue w) : w.vars.bulkReset = 0#32 := by
  by_contra set
  have settled := settled_of_calm due.reset.log command session.calm
  rw [since_append_before] at settled
  exact absurd (settled.symm.trans (due.reset.pending.mp set)) Bool.false_ne_true

/-- A session stays calm while nothing goes wrong. -/
theorem CalmSession.later {log new : List Event} (session : CalmSession packet log)
    (smooth : ∀ e ∈ new, e.Smooth) : CalmSession packet (new ++ log) := by
  have none_ : ∀ e ∈ new, e.accepted = none := fun e member => (smooth e member).same
  have since := sinceAccept_append none_ log
  refine ⟨?_, ?_, ?_, ?_⟩
  · rw [acceptedCommand_append none_]
    exact session.accepted
  · rw [heardOf, beforeAccept_append none_]
    exact session.heard
  · rw [since]
    exact Calm.append.mpr ⟨fun e member => (smooth e member).calm, session.calm⟩
  · rw [since]
    exact Sound.append.mpr ⟨fun e member => (smooth e member).sound, session.sound⟩

/-- Between two rounds a session has come to its end, or it goes on. -/
theorem CalmSession.ends {w : World} (session : CalmSession packet w.log)
    (read : WholeRead packet) (log : w.log = mid ++ old) (accepted : acceptedCommand mid ≠ none)
    (stocked : Stocked (some ⟨cartridge, old.length⟩) w) (due : ResetsDue w) :
    (w.vars.curVueState = .idle ∧ .finish ∈ sinceAccept w.log ∧
      noSelect w.board.flagLatch = true ∧
      deliveredOf (sinceAccept w.log) = bytesOf packet cartridge) ∨
    (w.vars.curVueState = .read ∧
      deliveredOf (sinceAccept w.log) ++ w.usb.uncommitted <+: bytesOf packet cartridge ∧
      (deliveredOf (sinceAccept w.log) ++ w.usb.uncommitted).length <
        (lengthOf packet).toNat) := by
  obtain ⟨ledger, delivering⟩ := stocked
  have accounted := ledger.books.history
  have command := session.command accounted
  have lasting := lasting_of_calm due.reset.log due.history command session.calm
  have yielded := delivering.sending.yielded (by rw [command]; rfl) lasting
  have gives : givesOf (sinceAccept w.log) <+: bytesOf packet cartridge := by
    rw [log] at accounted session ⊢
    exact gives_of_asked read accounted accepted session
  by_cases idle : w.vars.curVueState = .idle
  · left
    have finished := (ledger.books.ended idle _ command).resolve_right lasting.2
    refine ⟨idle, finished, ledger.machine.tracked.released idle, ?_⟩
    rw [delivering.drained (by rw [idle]; decide), List.append_nil] at yielded
    rw [yielded]
    refine gives.eq_of_length_le ?_
    obtain ⟨late, early, split⟩ := List.append_of_mem finished
    obtain ⟨here, since, found⟩ := since_split split command
    obtain ⟨c, found', done⟩ := (accounted.split here).finish rfl
    obtain rfl : .ofPacket packet = c := Option.some.inj (found.symm.trans found')
    have sound := session.sound
    rw [split] at sound
    have sound : Sound early := (Sound.append.mp (show Sound ((late ++ [.finish]) ++ early) by
      rwa [List.append_assoc])).2
    rw [← since] at sound
    have exchanged := done.exchanged sound
    rw [VueCommand.exchanged, if_pos read.task, since, VueCommand.ofPacket_length] at exchanged
    rw [bytesOf_length, ← exchanged, split]
    simp only [givesOf, occurrences_append, occurrences_cons, List.length_append]
    omega
  · right
    obtain ⟨c, found, going⟩ := ledger.machine.tracked.progress idle
    obtain rfl : .ofPacket packet = c := Option.some.inj (command.symm.trans found)
    have clear := session.unasked command due
    have exchanged := (ledger.books.kept clear idle _ command).exchanged session.sound
    rw [VueCommand.exchanged, if_pos read.task, VueCommand.moved, VueCommand.ofPacket_length]
      at exchanged
    have positive := going.positive
    have bounded := going.bounded
    rw [VueCommand.ofPacket_length] at bounded
    rw [yielded]
    refine ⟨going.task.trans read.task, gives, ?_⟩
    omega

/-- A session that goes on comes to its end when the host collects. -/
theorem CalmSession.progress {w : World} (session : CalmSession packet w.log)
    (reachable : Reachable w) (read : WholeRead packet) (log : w.log = mid ++ old)
    (accepted : acceptedCommand mid ≠ none) (stocked : Stocked (some ⟨cartridge, old.length⟩) w)
    (due : ResetsDue w) (reading : w.vars.curVueState = .read)
    (configured : w.usb.deviceState = .configured) (unstalled : w.usb.inStalled = false)
    {more : List Input} (serves : ∀ i ∈ more, i.Serves .read ∧ i.cartridge = cartridge)
    (size : more.length = (w.remaining + 63) / 64) :
    ∃ t, mainLoop more w = .value () t ∧ CalmSession packet t.log ∧
      t.vars.curVueState = .idle ∧ noSelect t.board.flagLatch = true ∧
      deliveredOf (sinceAccept t.log) = bytesOf packet cartridge := by
  have clear := session.unasked (session.command stocked.1.books.history) due
  have able : w.usb.Able .read := ⟨fun _ => unstalled, FsmState.noConfusion⟩
  obtain ⟨t, run, ⟨new, grown, smooth⟩, over_, -⟩ := transfer_completes reachable (.inl rfl) reading
    clear configured able more (fun i member => (serves i member).1) (by omega)
  obtain ⟨idle, released⟩ := over_ (by omega)
  have stocked : Stocked (some ⟨cartridge, old.length⟩) t := by
    refine (mainLoop_stocked more (fun j member p found => ?_) w stocked).of_value run
    obtain rfl : ⟨cartridge, old.length⟩ = p := Option.some.inj found
    exact (serves j member).2
  have due := (mainLoop_due more w due).of_value run
  have session : CalmSession packet t.log := by
    rw [grown]
    exact session.later smooth
  have log : t.log = (new ++ mid) ++ old := by rw [grown, log, List.append_assoc]
  have accepted : acceptedCommand (new ++ mid) ≠ none := by
    rwa [acceptedCommand_append fun e member => (smooth e member).same]
  refine ⟨t, run, session, idle, released, ?_⟩
  rcases session.ends read log accepted stocked due with ended | goesOn
  · exact ended.2.2.2
  · rw [idle] at goesOn
    exact absurd goesOn.1 (by decide)

/-- **A read delivers what is asked for**, in every run while one cartridge is plugged in, and
delivers all of it to a host that collects. -/
theorem read_delivers {before : World} (reachable : Reachable before) (inputs : List Input)
    (plugged : ∀ i ∈ inputs, i.cartridge = cartridge) (read : WholeRead packet) :
    Delivers packet cartridge before inputs := by
  have reaches {w : World} (returned : mainLoop inputs before = .value () w) : Reachable w := by
    obtain ⟨start, first, started, reached⟩ := reachable
    exact ⟨start, first ++ inputs, started, (mainLoop_append reached inputs).trans returned⟩
  obtain ⟨start, first, started, reached⟩ := reachable
  have keeps : Stays (Stocked none) (Dispatched none) (mainLoop first) :=
    mainLoop_stocked first fun _ _ _ found => nomatch found
  have stocked := (keeps start started.stocked).of_value reached
  have due := ((mainLoop_due first) start started.resetsDue).of_value reached
  cases inputs with
  | nil =>
      have none_ {later mid : List Event} (log : before.log = later ++ (mid ++ before.log)) :
          mid = [] := by
        have length := congrArg List.length log
        rw [List.length_append, List.length_append] at length
        exact List.eq_nil_of_length_eq_zero (by omega)
      have untaken {w : World} {mid : List Event} (returned : mainLoop [] before = .value () w)
          (log : w.log = mid ++ before.log) : acceptedCommand mid = none := by
        obtain rfl : before = w := (Exit.value.inj returned).2
        rw [none_ (show before.log = [] ++ (mid ++ before.log) from log)]
        rfl
      refine ⟨fun later mid log accepted _ => absurd ?_ accepted,
        fun w mid returned log accepted => absurd (untaken returned log) accepted,
        fun w mid returned log accepted => absurd (untaken returned log) accepted⟩
      rw [none_ log]
      rfl
  | cons i rest =>
      have run := mainLoop_plugged stocked plugged
      have resets := mainLoop_due (i :: rest) before due
      refine ⟨fun later mid log accepted session => ?_,
        fun w mid returned log accepted session =>
          session.ends read log accepted (run.of_value returned) (resets.of_value returned),
        fun w mid returned log accepted session reading configured unstalled more serves size =>
          session.progress (reaches returned) read log accepted (run.of_value returned)
            (resets.of_value returned) reading configured unstalled serves size⟩
      obtain ⟨accounted, prompt⟩ := (run.mono (fun _ _ held =>
        show Dispatched _ _ from ⟨held.1.books.history, held.2.sending.history⟩) fun _ => id).exit
      have due := wp.exit resets
      have honoured := due.reset.log
      have overdue := due.history
      rw [Accounted, log] at accounted
      rw [log] at prompt honoured overdue
      exact session.delivers read accounted.suffix prompt.suffix honoured.suffix overdue.suffix
        accepted

end Delivers

/-! ## A word -/

/-- A cartridge whose words carry the end of their address and a fixed byte. -/
def countedCartridge : Cartridge := fun _ word => (word.setWidth 8, 0xA5#8)

/-- A command to read one word at `0x20`. -/
def readInputs : List Input :=
  [{ configuringInput with cartridge := countedCartridge },
    { packetInput ⟨commandBytes 0#8 0#8 0#8 0x20#32 2#32, by decide⟩ 45 with
      cartridge := countedCartridge }]

def readPacket : Vector Byte 32 :=
  ⟨(commandBytes 0#8 0#8 0#8 0x20#32 2#32).toArray, by decide⟩

def readEnd : World := (mainLoop readInputs wordStart).state

/-- The word is delivered in one round. -/
theorem read_delivers_word : deliveredOf (sinceAccept readEnd.log) = [0x10#8, 0xA5#8] := by
  have read : WholeRead readPacket := ⟨by decide +kernel, by decide +kernel⟩
  have plugged : ∀ i ∈ readInputs, i.cartridge = countedCartridge := by
    intro i member
    simp only [readInputs, List.mem_cons, List.not_mem_nil, or_false] at member
    rcases member with rfl | rfl <;> rfl
  have delivers := read_delivers (show Reachable wordStart from
    ⟨_, [], wordStart_started, rfl⟩) readInputs plugged read
  have session : (acceptedCommand readEnd.log).isSome = true ∧
      takesOf (heardOf readEnd.log) = readPacket.toList ∧ Calm (sinceAccept readEnd.log) ∧
      Sound (sinceAccept readEnd.log) := by decide +kernel
  obtain ⟨accepted, heard, calm, sound⟩ := session
  have accepted := Option.isSome_iff_ne_none.mp accepted
  have idle : readEnd.vars.curVueState = .idle := by decide +kernel
  rcases delivers.ends readEnd readEnd.log (Exit.eq_value (by decide +kernel))
    (List.append_nil _).symm accepted ⟨accepted, heard, calm, sound⟩ with ends | goesOn
  · exact ends.2.2.2.trans (by decide +kernel)
  · exact nomatch idle.symm.trans goesOn.1

end VueCartReader
