import VueCartReader.Transfer.Memory
import VueCartReader.Transfer.Read

/-!
# A write that is read again

The cartridge remembers what is written to it: in every round it holds what all the cycles before
have left there (`Remembers`). Then a read gets back what a write has stored (`write_then_read`),
whatever has been done between the two, if nothing else was written to the same words.
-/

set_option autoImplicit false

namespace VueCartReader

open Program

/-! ## Parts of a run -/

theorem mainLoop_split {first second : List Input} {s t : World}
    (returned : mainLoop (first ++ second) s = .value () t) :
    ∃ u, mainLoop first s = .value () u ∧ mainLoop second u = .value () t := by
  induction first generalizing s with
  | nil => exact ⟨s, rfl, returned⟩
  | cons i rest ih =>
      have opened (inputs : List Input) :
          mainLoop (i :: inputs) s = (mainIteration >>= fun _ => mainLoop inputs) (s.offer i) := rfl
      rw [List.cons_append, opened] at returned
      cases round : mainIteration (s.offer i) with
      | value _ u =>
          rw [bind_of_value round] at returned
          obtain ⟨v, here, there⟩ := ih returned
          exact ⟨v, by rw [opened, bind_of_value round, here], there⟩
      | cut u =>
          have cut :
              (mainIteration >>= fun _ => mainLoop (rest ++ second)) (s.offer i) = .cut u := by
            show andThen mainIteration _ _ = _
            rw [andThen, round]
          cases cut.symm.trans returned

/-- A log only grows. -/
theorem mainLoop_grows {inputs : List Input} {s t : World}
    (returned : mainLoop inputs s = .value () t) : ∃ new, t.log = new ++ s.log := by
  obtain ⟨new, log, -⟩ := (mainLoop_logs inputs s).of_value returned
  exact ⟨new, log⟩

/-! ## A cartridge in a run -/

/-- The cartridge that held `m` at first is plugged in all the time, and remembers. -/
def Remembers (stray : Byte) (m : Cartridge) (start : World) (inputs : List Input) : Prop :=
  ∀ earlier i later w, inputs = earlier ++ i :: later → mainLoop earlier start = .value () w →
    i.cartridge = m.recorded stray w.log

theorem Remembers.of_rounds {stray : Byte} {m : Cartridge} {start : World} {inputs : List Input}
    (each : ∀ k i, inputs[k]? = some i →
      i.cartridge = m.recorded stray (mainLoop (inputs.take k) start).state.log) :
    Remembers stray m start inputs := by
  rintro earlier i later w rfl returned
  have here := each earlier.length i (List.getElem?_append_right (le_refl _) |>.trans (by simp))
  rwa [List.take_left, returned] at here

/-- While nothing may be written the cartridge stays what it is: what has been recorded up to a
round is a part of what is recorded at the end. -/
theorem Remembers.still {stray : Byte} {m : Cartridge} {start u w : World}
    {first second : List Input} {mid : List Event} (started : Started start)
    (remembers : Remembers stray m start (first ++ second))
    (here : mainLoop first start = .value () u) (there : mainLoop second u = .value () w)
    (log : w.log = mid ++ u.log) (still : ∀ c, ¬ MayWrite mid u.log c) :
    ∀ i ∈ second, i.cartridge = m.recorded stray u.log := by
  intro i member
  obtain ⟨earlier, later, rfl⟩ := List.append_of_mem member
  obtain ⟨v, reached, rest⟩ := mainLoop_split there
  have reached' : mainLoop (first ++ earlier) start = .value () v :=
    (mainLoop_append here earlier).trans reached
  rw [remembers (first ++ earlier) i later v (List.append_assoc ..).symm reached']
  obtain ⟨part, grown⟩ := mainLoop_grows reached
  obtain ⟨more, grown'⟩ := mainLoop_grows rest
  have whole : mid = more ++ part := by
    rw [log, grown, ← List.append_assoc] at grown'
    exact List.append_cancel_right grown'
  have upto : (mainLoop (first ++ earlier) start).state.log = [] ++ (part ++ u.log) := by
    rw [reached']
    exact grown
  funext flags word
  rw [grown]
  refine recorded_untouched started upto stray m fun c may => ?_
  refine absurd ⟨may.1, may.2.imp (fun new => ?_) id⟩ (still c)
  rw [whole]
  exact List.mem_append_right _ new

/-! ## What a write leaves -/

theorem selects_flagsOf (target : Byte) : noSelect (flagBits (flagsOf target)) = false := by
  unfold flagsOf selectOf
  split
  · decide
  · split <;> decide

section Stored

variable {packet : Vector Byte 32} {data : List Byte}

/-- A word of the command holds its part of the data. -/
def Stored (packet : Vector Byte 32) (data : List Byte) (m : Cartridge) (k : Nat) : Prop :=
  if modeOf packet = 0#8 then wordAt packet m k = (data.getD (2 * k) 0#8, data.getD (2 * k + 1) 0#8)
  else (wordAt packet m k).1 = data.getD k 0#8

/-- At the end of a write its words hold the data: the last cycles are those of the write, each at
a word of its own. -/
theorem stored_of_finish {start : World} (started : Started start) {inputs : List Input}
    {later past : List Event} (log : (mainLoop inputs start).state.log = later ++ past)
    (stray : Byte) (m : Cartridge) (write : WholeWrite packet)
    (size : data.length = (lengthOf packet).toNat) (session : ChunkSession packet data past)
    (finished : .finish ∈ sinceAccept past)
    (fits : (storesOf packet data).length ≤ 2 ^ 23) {k : Nat}
    (inside : k < (storesOf packet data).length) :
    Stored packet data (m.recorded stray past) k := by
  have complete := (storesExactly_of_inChunks started inputs write size).complete later past log
    session finished
  have only := mainLoop_onlyTasks started inputs
  rw [log] at only
  have recorded := Cartridge.recorded_tasks stray m fun e member =>
    only e (List.mem_append_right later member)
  rw [← since_append_before past, cyclesOf, occurrences_append,
    show occurrences Event.cycle (sinceAccept past) = _ from complete, Cartridge.after_append,
    since_append_before] at recorded
  have run := Cartridge.after_run stray
    (m.after stray (occurrences Event.cycle (beforeAccept past)))
    (selects_flagsOf (targetOf packet)) rfl (((addressOf packet &&& 0xFFFFFF#32) >>> 1).setWidth 23)
    (fun k => (storeOf packet data k).drive) fits inside
  rw [storesOf, List.length_map, List.length_range] at run
  have word : wordAt packet (m.recorded stray past) k = _ :=
    (congrFun (congrFun recorded _) _).trans run
  unfold Stored
  rw [word, storeOf]
  split <;> rfl

/-- What holds the data reads as the data. -/
theorem bytesOf_of_stored {m : Cartridge} (write : WholeWrite packet)
    (size : data.length = (lengthOf packet).toNat)
    (stored : ∀ k < (storesOf packet data).length, Stored packet data m k) :
    bytesOf packet m = data := by
  have byte (j : Nat) (inside : j < data.length) : byteAt packet m j = data.getD j 0#8 := by
    have here (k : Nat) (below : k < (storesOf packet data).length) := stored k below
    simp only [storesOf, List.length_map, List.length_range, Stored] at here
    rcases write.mode with ⟨words, even⟩ | bytes
    · simp only [if_pos words] at here
      rw [byteAt, if_pos words, here (j / 2) (by omega)]
      split
      · rw [show 2 * (j / 2) = j by omega]
      · rw [show 2 * (j / 2) + 1 = j by omega]
    · have other : ¬ modeOf packet = 0#8 := by
        rw [bytes]
        decide
      simp only [if_neg other] at here
      rw [byteAt, if_neg other, if_pos bytes, here j inside]
  refine List.ext_getElem ((bytesOf_length packet m).trans size.symm) fun j _ inside => ?_
  simp only [bytesOf, List.getElem_map, List.getElem_range]
  rw [byte j inside, List.getD_eq_getElem?_getD, List.getElem?_eq_getElem inside, Option.getD_some]

/-- A command for the same bytes of the same chip, whatever it does with them. -/
structure SameBytes (packet packet' : Vector Byte 32) : Prop where
  mode : modeOf packet' = modeOf packet
  target : targetOf packet' = targetOf packet
  address : addressOf packet' = addressOf packet
  length : lengthOf packet' = lengthOf packet

theorem SameBytes.bytesOf {packet packet' : Vector Byte 32} (same : SameBytes packet packet')
    (m : Cartridge) : bytesOf packet' m = bytesOf packet m := by
  have word : wordAt packet' m = wordAt packet m := by
    funext k
    rw [wordAt, wordAt, same.target, same.address]
  have byte : byteAt packet' m = byteAt packet m := by
    funext j
    rw [byteAt, byteAt, same.mode, word]
  rw [VueCartReader.bytesOf, VueCartReader.bytesOf, same.length, byte]

/-- What a read delivers is what the cartridge holds when nothing is written meanwhile. -/
theorem Remembers.delivered {start u w : World} (started : Started start)
    {first second : List Input}
    (here : mainLoop first start = .value () u) (there : mainLoop second u = .value () w)
    {stray : Byte} {m : Cartridge} (remembers : Remembers stray m start (first ++ second))
    (read : WholeRead packet) {mid : List Event} (log : w.log = mid ++ u.log)
    (still : ∀ c, ¬ MayWrite mid u.log c) (accepted : acceptedCommand mid ≠ none)
    (session : CalmSession packet w.log) :
    deliveredOf (sinceAccept w.log) <+: bytesOf packet (m.recorded stray u.log) ∧
      (w.vars.curVueState = .idle → .finish ∈ sinceAccept w.log ∧
        deliveredOf (sinceAccept w.log) = bytesOf packet (m.recorded stray u.log)) := by
  have plugged := remembers.still started here there log still
  have keeps : Stays (Stocked none) (Dispatched none) (mainLoop first) :=
    mainLoop_stocked first fun _ _ _ found => by cases found
  have stocked := (keeps start started.stocked).of_value here
  have due := ((mainLoop_due first) start started.resetsDue).of_value here
  cases second with
  | nil =>
      obtain rfl : u = w := (Exit.value.inj there).2
      have none_ : mid = [] :=
        List.append_cancel_right (show mid ++ u.log = [] ++ u.log from log.symm)
      exact absurd (none_ ▸ rfl) accepted
  | cons i rest =>
      have reading := (mainLoop_plugged stocked plugged).of_value there
      have due' := ((mainLoop_due (i :: rest)) u due).of_value there
      rcases session.ends read log accepted reading due' with ends | goesOn
      · exact ⟨ends.2.2.2 ▸ List.prefix_refl _, fun _ => ⟨ends.2.1, ends.2.2.2⟩⟩
      · exact ⟨(List.prefix_append _ _).trans goesOn.2.1, fun idle =>
          nomatch idle.symm.trans goesOn.1⟩

/-- **What has been written is read again.** A write has come to its end in `past`, whatever came
before it; since then (`later`) nothing has been written to its words, and nothing at all (`mid`)
since the run goes on from `u`. Then a read of the same bytes that begins in `mid` delivers the data
of the write: until it begins, the words hold that data. -/
theorem write_then_read {start u w : World} (started : Started start) {first second : List Input}
    (here : mainLoop first start = .value () u) (there : mainLoop second u = .value () w)
    {stray : Byte} {m : Cartridge} (remembers : Remembers stray m start (first ++ second))
    (write : WholeWrite packet) (size : data.length = (lengthOf packet).toNat)
    (fits : (storesOf packet data).length ≤ 2 ^ 23) {later past : List Event}
    (written : u.log = later ++ past) (session : ChunkSession packet data past)
    (finished : .finish ∈ sinceAccept past)
    (spared : ∀ c, MayWrite later past c → ∀ k < (storesOf packet data).length,
      ¬ c.Covers (storeOf packet data k).flags (storeOf packet data k).address)
    {packet' : Vector Byte 32} (read : WholeRead packet') (same : SameBytes packet packet')
    {mid : List Event} (log : w.log = mid ++ u.log) (still : ∀ c, ¬ MayWrite mid u.log c)
    (accepted : acceptedCommand mid ≠ none) (session' : CalmSession packet' w.log) :
    deliveredOf (sinceAccept w.log) <+: data ∧
      (w.vars.curVueState = .idle → deliveredOf (sinceAccept w.log) = data) := by
  have stored (k : Nat) (inside : k < (storesOf packet data).length) :
      Stored packet data (m.recorded stray u.log) k := by
    have upto : (mainLoop first start).state.log = later ++ past := by rw [here]; exact written
    have stored := stored_of_finish started upto stray m write size session finished fits inside
    have whole : (mainLoop first start).state.log = [] ++ (later ++ past) := upto
    have kept := recorded_untouched started whole stray m fun c may => spared c may k inside
    have word :
        wordAt packet (m.recorded stray u.log) k = wordAt packet (m.recorded stray past) k := by
      rw [written]
      exact kept
    unfold Stored at stored ⊢
    rw [word]
    exact stored
  have bytes : bytesOf packet' (m.recorded stray u.log) = data :=
    (same.bytesOf _).trans (bytesOf_of_stored write size stored)
  have delivered := remembers.delivered started here there read log still accepted session'
  rw [bytes] at delivered
  exact ⟨delivered.1, fun idle => (delivered.2 idle).2⟩

end Stored

/-! ## A word that is stored and fetched -/

/-- What a cartridge is left with by cycles that do not write. -/
theorem Cartridge.recorded_quiet (stray : Byte) (m : Cartridge) {log : List Event}
    (quiet : (occurrences Event.anyCycle log).all (fun y => !y.drive.writes) = true) :
    m.recorded stray log = m := by
  refine after_quiet stray m fun y member => ?_
  simpa using List.all_eq_true.mp quiet y member

/-- A command to read the word that `storeInputs` stores. -/
def fetchInput : Input :=
  { packetInput ⟨commandBytes 0#8 0#8 0#8 2#32 2#32, by simp [commandBytes]⟩ 45 with
    cartridge := Cartridge.recorded 0#8 plainCartridge (storeEnd 2#32 wordData).log }

def fetchPacket : Vector Byte 32 :=
  ⟨(commandBytes 0#8 0#8 0#8 2#32 2#32).toArray, by simp [commandBytes]⟩

def fetchEnd : World := (mainLoop [fetchInput] (storeEnd 2#32 wordData)).state

/-- What has been done after the word is stored. -/
def fetchLog : List Event :=
  fetchEnd.log.take (fetchEnd.log.length - (storeEnd 2#32 wordData).log.length)

/-- The world after some rounds of `storeInputs`. -/
def storeAfter (rounds : Nat) : World :=
  (mainLoop ((storeInputs 2#32 wordData).take rounds) wordStart).state

/-- Up to the round that stores the word nothing is written. -/
theorem storeAfter_quiet {rounds : Nat} (early : rounds < 3) :
    plainCartridge = plainCartridge.recorded 0#8 (storeAfter rounds).log := by
  have quiet : (occurrences Event.anyCycle (storeAfter rounds).log).all
      (fun y => !y.drive.writes) = true := by
    revert rounds
    decide +kernel
  exact (Cartridge.recorded_quiet _ _ quiet).symm

theorem storeInputs_take {rounds : Nat} (upto : rounds ≤ 3) :
    (mainLoop ((storeInputs 2#32 wordData ++ [fetchInput]).take rounds) wordStart).state =
      storeAfter rounds := by
  rw [List.take_append_of_le_length upto, storeAfter]

theorem storeAfter_all : storeAfter 3 = storeEnd 2#32 wordData := by
  have all : (storeInputs 2#32 wordData).take 3 = storeInputs 2#32 wordData := rfl
  rw [storeAfter, all, storeEnd]

theorem remembers_word : Remembers 0#8 plainCartridge wordStart
    (storeInputs 2#32 wordData ++ [fetchInput]) := by
  refine .of_rounds fun k i here => ?_
  have upto : k ≤ 3 := Nat.le_of_lt_succ (List.getElem?_eq_some_iff.mp here).1
  rw [storeInputs_take upto]
  rcases Nat.lt_or_eq_of_le upto with early | rfl
  · rw [← storeAfter_quiet early]
    match k, early with
    | 0, _ | 1, _ | 2, _ =>
        cases here
        rfl
  · have same : fetchInput = i := Option.some.inj here
    rw [← same, storeAfter_all, fetchInput]

theorem storeEnd_returned : mainLoop (storeInputs 2#32 wordData) wordStart =
    .value () (storeEnd 2#32 wordData) :=
  Exit.eq_value (by decide +kernel)

theorem fetchEnd_returned : mainLoop [fetchInput] (storeEnd 2#32 wordData) = .value () fetchEnd :=
  Exit.eq_value (by decide +kernel)

theorem fetchEnd_log : fetchEnd.log = fetchLog ++ (storeEnd 2#32 wordData).log := by
  obtain ⟨new, log⟩ := mainLoop_grows fetchEnd_returned
  rw [fetchLog, log, List.length_append, Nat.add_sub_cancel, List.take_left]

theorem wholeWrite_word : WholeWrite (storePacket 2#32) :=
  ⟨by decide +kernel, by decide +kernel, .inl (by decide +kernel)⟩

theorem wholeRead_word : WholeRead fetchPacket := ⟨by decide +kernel, by decide +kernel⟩

theorem storeSession_word :
    FullSession (storePacket 2#32) wordData.val (storeEnd 2#32 wordData).log ∧
      .finish ∈ sinceAccept (storeEnd 2#32 wordData).log := by
  decide +kernel

theorem fetchSession_word : CalmSession fetchPacket fetchEnd.log :=
  ⟨by decide +kernel, by decide +kernel, by decide +kernel, by decide +kernel⟩

/-- The word of `storeInputs` is read again. -/
theorem write_then_read_word : deliveredOf (sinceAccept fetchEnd.log) = [1#8, 2#8] := by
  have same : SameBytes (storePacket 2#32) fetchPacket :=
    ⟨by decide +kernel, by decide +kernel, by decide +kernel, by decide +kernel⟩
  have fits : (storesOf (storePacket 2#32) wordData.val).length ≤ 2 ^ 23 := by decide +kernel
  have size : wordData.val.length = (lengthOf (storePacket 2#32)).toNat := by decide +kernel
  have still (c : VueCommand) : ¬ MayWrite fetchLog (storeEnd 2#32 wordData).log c := by
    rintro ⟨writes, new | ⟨-, going⟩⟩
    · have none_ : ∀ e ∈ fetchLog, ∀ c ∈ e.accepted, c.task ≠ .write := by decide +kernel
      exact none_ _ new c rfl writes
    · exact going storeSession_word.2
  have none_ (c : VueCommand) : ¬ MayWrite [] (storeEnd 2#32 wordData).log c := by
    rintro ⟨-, new | ⟨-, going⟩⟩
    · cases new
    · exact going storeSession_word.2
  have accepted : acceptedCommand fetchLog ≠ none := by decide +kernel
  have reads := write_then_read wordStart_started storeEnd_returned fetchEnd_returned remembers_word
    wholeWrite_word size fits (List.nil_append _).symm storeSession_word.1.inChunks
    storeSession_word.2 (fun c may => (none_ c may).elim) wholeRead_word same fetchEnd_log still
    accepted fetchSession_word
  exact reads.2 (by decide +kernel)

end VueCartReader
