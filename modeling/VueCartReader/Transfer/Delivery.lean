import VueCartReader.Transfer.Parse

/-!
# How the data of a write arrives

The host sends the data of a write in packets, and the firmware moves it in chunks of 64
bytes. After every chunk the OUT bank is freed, whatever is left in it. As long as no packet
reaches over the end of a chunk (`WellCut`) nothing is left in it then, and what is taken
from the bank is what the host has sent.

`Fed` carries this through the main loop, for a session in which nothing goes wrong
(`Smooth`): every cycle of a write comes after so many bytes as it needs have been sent, and
they are the ones that were taken (`Faithful`).
-/

set_option autoImplicit false

namespace VueCartReader

open Program

/-! ## Smooth sessions -/

/-- No packet of the data reaches over the end of a chunk, or over the end of the data. -/
def WellCut (length : Nat) (packets : List (List Byte)) : Prop :=
  ∀ earlier data later, packets = earlier ++ data :: later → earlier.flatten.length < length →
    earlier.flatten.length % 64 + data.length ≤ 64 ∧
      earlier.flatten.length + data.length ≤ length

theorem WellCut.prefix {length : Nat} {first second : List (List Byte)}
    (cut : WellCut length (first ++ second)) : WellCut length first := by
  intro earlier data later eq less
  refine cut earlier data (later ++ second) ?_ less
  rw [eq, List.append_assoc]
  rfl

/-- The log up to the acceptance of the last command. -/
def beforeAccept (log : List Event) : List Event := log.dropWhile fun e => e.accepted.isNone

/-- What was recorded while the last accepted command was received. -/
def heardOf (log : List Event) : List Event := sinceCommand (beforeAccept log)

theorem beforeAccept_append {new : List Event} (none_ : ∀ e ∈ new, e.accepted = none)
    (log : List Event) : beforeAccept (new ++ log) = beforeAccept log := by
  rw [beforeAccept, List.dropWhile_append_of_pos fun e member => by rw [none_ e member]; rfl]
  rfl

theorem since_append_before (log : List Event) : sinceAccept log ++ beforeAccept log = log :=
  List.takeWhile_append_dropWhile

theorem accepted_of_since {log : List Event} : ∀ e ∈ sinceAccept log, e.accepted = none := by
  intro e member
  simpa using List.all_eq_true.mp List.all_takeWhile e member

/-- The log up to the acceptance of the last command ends with it. -/
theorem accepted_split {log : List Event} {c : VueCommand} (found : acceptedCommand log = some c) :
    ∃ past, beforeAccept log = .accept c :: past := by
  induction log with
  | nil => cases found
  | cons e log ih =>
      cases isAccept : e.accepted with
      | none =>
          rw [acceptedCommand_cons isAccept] at found
          obtain ⟨past, eq⟩ := ih found
          refine ⟨past, ?_⟩
          rw [← eq]
          have alone : ∀ f ∈ [e], f.accepted = none := fun f member => by
            rwa [List.mem_singleton.mp member]
          exact beforeAccept_append alone log
      | some d =>
          rw [acceptedCommand, List.findSome?_cons, isAccept] at found
          obtain rfl : d = c := Option.some.inj found
          cases e with
          | accept d =>
              cases isAccept
              exact ⟨log, rfl⟩
          | _ => cases isAccept

/-- The last command came with all its bytes, and since it was accepted no control request has
been served, no stream call has failed, no bank has refused access, and the host has cut its
data well. -/
structure Smooth (length : Nat) (log : List Event) : Prop where
  heard : (takesOf (heardOf log)).length = 32
  calm : Calm (sinceAccept log)
  sound : Sound (sinceAccept log)
  unrefused : .refuse ∉ sinceAccept log
  cut : WellCut length (packetsOf (sinceAccept log))

/-- What was smooth was smooth before. -/
theorem Smooth.past {length : Nat} {new log : List Event} (smooth : Smooth length (new ++ log))
    (none_ : ∀ e ∈ new, e.accepted = none) : Smooth length log ∧ Calm new ∧ .refuse ∉ new := by
  have since := sinceAccept_append none_ log
  have calm := smooth.calm
  have sound := smooth.sound
  have unrefused := smooth.unrefused
  have cut := smooth.cut
  rw [since, Calm.append] at calm
  rw [since, Sound.append] at sound
  rw [since, List.mem_append, not_or] at unrefused
  rw [since, packetsOf, occurrences_append] at cut
  have heard := smooth.heard
  rw [heardOf, beforeAccept_append none_] at heard
  exact ⟨⟨heard, calm.2, sound.2, unrefused.2, cut.prefix⟩, calm.1, unrefused.1⟩

theorem Smooth.past_cons {length : Nat} {e : Event} {log : List Event}
    (smooth : Smooth length (e :: log)) (none_ : e.accepted = none) : Smooth length log :=
  (Smooth.past (show Smooth length ([e] ++ log) from smooth) fun _ member => by
    rwa [List.mem_singleton.mp member]).1

/-! ## The bank and the chunk -/

/-- What is unread of a packet is what has been sent and not taken, and no more than is still
to come of a chunk of `n` bytes of which `p` have been taken. -/
structure Fitting (n p : Nat) (seg : List Event) (u : Usb) : Prop where
  unstalled : u.outStalled = false
  sent : sentOf seg = takesOf seg ++ u.outBank.getD []
  fits : p + (u.outBank.getD []).length ≤ n

/-- A chunk of a command of some length, after whole chunks. -/
structure ChunkOf (length moved n : Nat) : Prop where
  whole : 64 ∣ moved
  size : n = min (length - moved) 64

theorem takesOf_append_of_none {new seg : List Event} (none_ : takesOf new = []) :
    takesOf (new ++ seg) = takesOf seg := by
  rw [takesOf, occurrences_append, show occurrences _ new = [] from none_, List.append_nil]

/-- A packet that is accepted in the middle of a chunk fits it. -/
theorem Fitting.listens {length moved n p : Nat} {seg new : List Event} {u v : Usb}
    (held : Fitting n p seg u) (chunk : ChunkOf length moved n) (less : p < n)
    (count : (takesOf seg).length = moved + p)
    (cut : WellCut length (packetsOf (new ++ seg)))
    (listened : Filled u.outBank (packetsOf new) v.outBank ∧ takesOf new = [] ∧
      v.outStalled = u.outStalled) : Fitting n p (new ++ seg) v := by
  obtain ⟨filled, silent, stalled⟩ := listened
  have packets : packetsOf (new ++ seg) = packetsOf seg ++ packetsOf new :=
    occurrences_append _ _ _
  have sent := held.sent
  have fits := held.fits
  rw [packets] at cut
  have both : (packetsOf seg).flatten ++ (packetsOf new).flatten =
      takesOf seg ++ v.outBank.getD [] ∧ p + (v.outBank.getD []).length ≤ n := by
    rw [sentOf] at sent
    generalize packetsOf new = brought at filled cut ⊢
    generalize u.outBank = before at filled sent fits
    generalize v.outBank = after at filled ⊢
    cases filled with
    | same => exact ⟨by rw [List.flatten_nil, List.append_nil, sent], fits⟩
    | packet data =>
        simp only [Option.getD_none, List.append_nil] at sent
        refine ⟨by rw [sent]; simp, ?_⟩
        have size := chunk.size
        have bounds := cut (packetsOf seg) data [] rfl
        rw [sent, count] at bounds
        obtain ⟨k, rfl⟩ := chunk.whole
        have inside := bounds (by omega)
        simp only [Option.getD_some]
        omega
  refine ⟨stalled.trans held.unstalled, ?_, both.2⟩
  rw [sentOf_append, takesOf_append_of_none silent]
  exact both.1

/-! ## A chunk is received -/

/-- So many bytes of a chunk have been taken from the OUT bank, and what is in it fits the
rest. -/
structure Poised (moved n p : Nat) (t : World) : Prop where
  selected : t.usb.selected = vueCartReaderOutEpAddr
  fitting : Fitting n p (sinceAccept t.log) t.usb
  count : (takesOf (sinceAccept t.log)).length = moved + p

/-- While the bank is open, a packet is in it. -/
structure Opened (moved n p : Nat) (t : World) : Prop where
  poised : Poised moved n p t
  bank : t.usb.outBank.isSome = true

section Chunk

variable {length moved n p : Nat} {t u : World}

/-- What the task sees of the endpoint leaves the position alone. -/
theorem Poised.listens (chunk : ChunkOf length moved n) (less : p < n) {new : List Event}
    (log : u.log = new ++ t.log) (none_ : ∀ e ∈ new, e.accepted = none)
    (listens : Listens t u) (selected : SameSelected t u)
    (smooth : Smooth length u.log) (held : Poised moved n p t) :
    Poised moved n p u ∧ (t.usb.outBank.isSome = true → u.usb.outBank.isSome = true) := by
  obtain ⟨same, log', listened⟩ := listens
  obtain rfl := List.append_cancel_right (log'.symm.trans log)
  obtain ⟨also, log'', kept⟩ := selected
  obtain rfl := List.append_cancel_right (log''.symm.trans log)
  have since : sinceAccept u.log = also ++ sinceAccept t.log := by
    rw [log, sinceAccept_append none_]
  have cut := smooth.cut
  rw [since] at cut
  have calm : Calm also := by
    rw [log] at smooth
    exact (smooth.past none_).2.1
  have listened := listened calm
  have awake : .interrupt .endOfReset ∉ also := fun member => nomatch calm _ member
  refine ⟨⟨(kept awake).trans held.selected, ?_, ?_⟩, fun some_ => ?_⟩
  · rw [since]
    exact held.fitting.listens chunk less held.count cut listened
  · rw [since, takesOf_append_of_none listened.2.1]
    exact held.count
  · obtain ⟨data, bank⟩ := Option.isSome_iff_exists.mp some_
    have filled := listened.1
    rw [bank] at filled
    rw [filled.of_some.2]
    rfl

/-- What is recorded and moves nothing leaves the position alone. -/
theorem Poised.noted {e : Event} (quiet : e.accepted = none ∧ e.taken = none ∧ e.sent = none)
    (held : Poised moved n p t) : Poised moved n p { t with log := e :: t.log } := by
  have takes : takesOf (e :: sinceAccept t.log) = takesOf (sinceAccept t.log) := by
    rw [takesOf, occurrences_cons, quiet.2.1]
    exact List.append_nil _
  have sent : sentOf (e :: sinceAccept t.log) = sentOf (sinceAccept t.log) := by
    rw [sentOf, packetsOf, occurrences_cons, quiet.2.2]
    exact congrArg List.flatten (List.append_nil _)
  refine ⟨held.selected, ⟨held.fitting.unstalled, ?_, held.fitting.fits⟩, ?_⟩
  · show sentOf (sinceAccept (e :: t.log)) = takesOf (sinceAccept (e :: t.log)) ++ _
    rw [sinceAccept_cons quiet.1, takes, sent]
    exact held.fitting.sent
  · show (takesOf (sinceAccept (e :: t.log))).length = _
    rw [sinceAccept_cons quiet.1, takes]
    exact held.count

theorem quiet_of_goesOn {e : Event} (ok : e.goesOn = true) :
    e.accepted = none ∧ e.taken = none ∧ e.sent = none := by
  cases e <;> first | exact ⟨rfl, rfl, rfl⟩ | exact nomatch ok

theorem accepted_of_served {s t : World} (served : Served s t) :
    Logs (fun e => e.accepted = none) s t := by
  obtain ⟨new, log, all, -⟩ := served.log
  refine ⟨new, log, fun e member => accepted_of_stream ?_⟩
  have ok := all e member
  cases e <;> first | rfl | exact ok

/-- What only looks at the endpoint leaves both positions alone. -/
theorem listens_keeps {α : Type} {m : Fw α} (chunk : ChunkOf length moved n) (less : p < n)
    (listens : Moves Listens m) (selected : ∀ s, wp m (fun _ t => SameSelected s t) Anywhere s)
    (served : Moves Served m) :
    Stays (fun t => Smooth length t.log → Poised moved n p t) Anywhere m ∧
      Stays (fun t => Smooth length t.log → Opened moved n p t) Anywhere m := by
  have later {t u : World} (served : Served t u) (listens : Listens t u)
      (selected : SameSelected t u) (smooth : Smooth length u.log) : Smooth length t.log ∧
        (Poised moved n p t → Poised moved n p u ∧
          (t.usb.outBank.isSome = true → u.usb.outBank.isSome = true)) := by
    obtain ⟨new, log, none_⟩ := accepted_of_served served
    refine ⟨?_, Poised.listens chunk less log none_ listens selected smooth⟩
    rw [log] at smooth
    exact (smooth.past none_).1
  refine ⟨fun t held => ?_, fun t held => ?_⟩
  · refine (((served t).and (listens t)).and (selected t)).mono
      (fun _ u ⟨⟨served, listens⟩, selected⟩ smooth => ?_) fun _ _ => trivial
    obtain ⟨before, step⟩ := later served listens selected smooth
    exact (step (held before)).1
  · refine (((served t).and (listens t)).and (selected t)).mono
      (fun _ u ⟨⟨served, listens⟩, selected⟩ smooth => ?_) fun _ _ => trivial
    obtain ⟨before, step⟩ := later served listens selected smooth
    have opened := held before
    exact ⟨(step opened.poised).1, (step opened.poised).2 opened.bank⟩

end Chunk

/-! ## Freeing the bank -/

/-- The bank of a packet is freed, and nothing arrives meanwhile. -/
structure Dropped (new : List Event) (u : World) : Prop where
  selected : u.usb.selected = vueCartReaderOutEpAddr
  unstalled : u.usb.outStalled = false
  bank : u.usb.outBank = none
  packets : packetsOf new = []
  takes : takesOf new = []

theorem endpointClearOut_dropped (by_ : Actor) (t : World) :
    wp (endpointClearOut by_) (fun _ u => ∃ new, Operated t new u ∧
      (t.Holding → Calm new → Dropped new u)) Anywhere t := by
  rw [endpointClearOut]
  refine wp.bind (((moment_sameSelected t).and (moment_listens t)).and (moment_framed t) |>.mono
    (fun _ _ ends => ends) fun _ _ => trivial) fun _ v ends => ?_
  obtain ⟨⟨⟨new, log, selected⟩, same, log', listened⟩, framed⟩ := ends
  obtain ⟨all, log'', usb⟩ := framed.log
  obtain rfl := List.append_cancel_right (log'.symm.trans log)
  obtain rfl := List.append_cancel_right (log''.symm.trans log)
  -- the packet is still there after the moment
  have still (holding : t.Holding) (calm : Calm all) :
      v.usb.selected = vueCartReaderOutEpAddr ∧ v.usb.outStalled = false ∧
        v.usb.outBank.isSome = true ∧ packetsOf all = [] ∧ takesOf all = [] := by
    obtain ⟨filled, silent, stalled⟩ := listened calm
    obtain ⟨data, bank⟩ := Option.isSome_iff_exists.mp holding.bank
    rw [bank] at filled
    have calmly : .interrupt .endOfReset ∉ all := fun member => by cases calm _ member
    refine ⟨(selected calmly).trans holding.selected,
      stalled.trans holding.unstalled, ?_, filled.of_some.1, silent⟩
    rw [filled.of_some.2]
    rfl
  rw [wp_bind, wp_state, wp_whenever]
  refine ⟨fun _ => ?_, fun other => ⟨all, ⟨log, usb⟩, fun holding calm =>
    absurd (still holding calm).1 other⟩⟩
  rw [freeOut, wp_modify]
  cases bank : v.usb.outBank with
  | none =>
      refine ⟨all, ⟨log, usb⟩, fun holding calm => ?_⟩
      have there := (still holding calm).2.2.1
      rw [bank] at there
      exact absurd there Bool.false_ne_true
  | some unread =>
      have noted : Operated v [.free by_ unread]
          { v with usb := { v.usb with outBank := none }, log := .free by_ unread :: v.log } :=
        ⟨rfl, fun e member => by rw [List.mem_singleton.mp member]; rfl⟩
      refine ⟨_, Operated.trans ⟨log, usb⟩ noted, fun holding calm => ?_⟩
      obtain ⟨selected, unstalled, -, packets, takes⟩ := still holding (Calm.append.mp calm).2
      refine ⟨selected, unstalled, rfl, ?_, ?_⟩
      · rw [packetsOf, occurrences_append, show occurrences _ all = [] from packets]
        rfl
      · rw [takesOf, occurrences_append, show occurrences _ all = [] from takes]
        rfl

/-! ## A chunk in its loop -/

section Stream

variable {length moved n : Nat}

/-- A byte is taken from the bank. -/
theorem transferByte_opened {p : Nat} {t : World}
    (held : Smooth length t.log → Opened moved n p t) (open_ : t.usb.readWriteAllowed = true) :
    wp ((readStream storeBuffer).transferByte p)
      (fun _ u => Smooth length u.log → Opened moved n (p + 1) u) Anywhere t := by
  show wp (endpointRead8 >>= fun x => onVars (storeBuffer p x)) _ _ t
  rw [endpointRead8, wp_bind, wp_bind, wp_state]
  have passed (x : Byte) (smooth : Smooth length (.take x :: t.log)) : Opened moved n p t :=
    held (smooth.past_cons rfl)
  have some_ (opened : Opened moved n p t) : ∃ x rest, t.usb.outBank = some (x :: rest) := by
    simp only [Usb.readWriteAllowed, opened.poised.selected, if_true, Bool.and_eq_true,
      bne_iff_ne, ne_eq] at open_
    cases bank : t.usb.outBank with
    | none => simp [bank] at open_
    | some data =>
        cases data with
        | nil => simp [bank] at open_
        | cons x rest => exact ⟨x, rest, rfl⟩
  split
  · rename_i x rest bank
    simp only [onUsb, note, onVars, wp_bind, wp_modify, wp_pure]
    intro smooth
    have opened := passed x smooth
    have sent := opened.poised.fitting.sent
    have fits := opened.poised.fitting.fits
    have count := opened.poised.count
    rw [bank, Option.getD_some] at sent fits
    have since : sinceAccept (.take x :: t.log) = .take x :: sinceAccept t.log :=
      sinceAccept_cons rfl _
    have takes : takesOf (.take x :: sinceAccept t.log) = takesOf (sinceAccept t.log) ++ [x] :=
      occurrences_cons Event.taken (.take x) _
    refine ⟨⟨opened.poised.selected, ⟨opened.poised.fitting.unstalled, ?_, ?_⟩, ?_⟩, rfl⟩
    · show sentOf (sinceAccept (.take x :: t.log)) =
        takesOf (sinceAccept (.take x :: t.log)) ++ rest
      rw [since, takes, List.append_assoc]
      exact sent
    · show p + 1 + rest.length ≤ n
      rw [List.length_cons] at fits
      omega
    · show (takesOf (sinceAccept (.take x :: t.log))).length = _
      rw [since, takes, List.length_append, count]
      rfl
  · rename_i none_
    rw [wp_pure, onVars, wp_modify]
    intro smooth
    obtain ⟨x, rest, bank⟩ := some_ (held smooth)
    exact absurd bank (none_ x rest)

/-- A bank that allows no access any more is empty, and is freed. -/
theorem clearEndpoint_poised {p : Nat} {t : World}
    (held : Smooth length t.log → Opened moved n p t)
    (shut : t.usb.readWriteAllowed = false ∨ ∃ past, t.log = .refuse :: past) :
    wp (endpointClearOut .task)
      (fun _ u => Smooth length u.log → Poised moved n p u) Anywhere t := by
  refine (endpointClearOut_dropped .task t).mono (fun _ u ⟨new, ⟨log, usb⟩, dropped⟩ smooth => ?_)
    fun _ _ => trivial
  have none_ : ∀ e ∈ new, e.accepted = none := fun e member => by
    have ok := usb e member
    cases e <;> first | rfl | exact nomatch ok
  have past := smooth
  rw [log] at past
  obtain ⟨before, calm, -⟩ := past.past none_
  have opened := held before
  have empty : t.usb.outBank = some [] := by
    obtain ⟨data, bank⟩ := Option.isSome_iff_exists.mp opened.bank
    rcases shut with shut | ⟨past, refused⟩
    · simp only [Usb.readWriteAllowed, opened.poised.selected, opened.poised.fitting.unstalled,
        bank, if_true, Bool.not_false, Bool.true_and, bne_eq_false_iff_eq, Option.getD_some,
        List.length_eq_zero_iff] at shut
      rw [bank, shut]
    · refine absurd ?_ before.unrefused
      rw [refused, sinceAccept_cons rfl]
      exact List.mem_cons_self ..
  have ends := dropped ⟨opened.poised.selected, opened.poised.fitting.unstalled, opened.bank⟩ calm
  have since : sinceAccept u.log = new ++ sinceAccept t.log := by rw [log, sinceAccept_append none_]
  have sent := opened.poised.fitting.sent
  have fits := opened.poised.fitting.fits
  rw [empty] at sent fits
  refine ⟨ends.selected, ⟨ends.unstalled, ?_, ?_⟩, ?_⟩
  · rw [since, sentOf_append, takesOf_append_of_none ends.takes, sent, sentOf,
      ends.packets, ends.bank]
    simp
  · rw [ends.bank]
    exact fits
  · rw [since, takesOf_append_of_none ends.takes]
    exact opened.poised.count

theorem receiving_phases (chunk : ChunkOf length moved n) :
    StreamPhases (readStream storeBuffer) n
      (fun p t => Smooth length t.log → Poised moved n p t)
      (fun p t => Smooth length t.log → Opened moved n p t) Anywhere := by
  have noted {t : World} {e : Event} (quiet : e.accepted = none ∧ e.taken = none ∧ e.sent = none)
      (smooth : Smooth length (e :: t.log)) : Smooth length t.log :=
    smooth.past_cons quiet.1
  have looks {p : Nat} (less : p < n) {α : Type} {m : Fw α} (framed : Moves (Framed OfUsb) m)
      (listens : Moves Listens m) (selected : Moves SameSelected m) :=
    listens_keeps chunk less listens
      (fun s => (selected s).mono (fun _ _ same => same) fun _ _ => trivial)
        (served_of_framed framed)
  exact
    { weaker := fun _ _ _ _ => trivial
      noted := fun p t e held ok smooth =>
        (held (noted (quiet_of_goesOn ok) smooth)).noted (quiet_of_goesOn ok)
      ended := fun t held smooth =>
        ⟨(held (noted ⟨rfl, rfl, rfl⟩ smooth)).poised.noted ⟨rfl, rfl, rfl⟩,
          (held (noted ⟨rfl, rfl, rfl⟩ smooth)).bank⟩
      ready := fun p less t held =>
        (((looks less endpointWaitUntilReady_framed endpointWaitUntilReady_listens
          endpointWaitUntilReady_sameSelected).1 t held).and (endpointWaitUntilReady_found t)).mono
          (fun _ u ⟨poised, found⟩ => ⟨fun ready smooth =>
            ⟨poised smooth, found ready (poised smooth).selected⟩, fun _ => poised⟩)
          fun _ _ => trivial
      allowed := fun p less => (looks less endpointIsReadWriteAllowed_framed
        endpointIsReadWriteAllowed_listens endpointIsReadWriteAllowed_sameSelected).2
      transfer := fun p less t held open_ => transferByte_opened held open_
      clear := fun p less t held shut => clearEndpoint_poised held shut
      task := fun p less => (listens_keeps chunk less usbUsbTask_listens usbUsbTask_sameSelected
        usbUsbTask_served).1 }

/-- **A chunk is received**, and with its last byte the bank is empty. -/
theorem receiveChunk_poised (chunk : ChunkOf length moved n) (some_ : 0 < n) {s : World}
    (held : Smooth length s.log → Poised moved n 0 s) :
    wp (stream (readStream storeBuffer) n)
      (fun ok t => ok = true → Smooth length t.log →
        t.Holding ∧ sentOf (sinceAccept t.log) = takesOf (sinceAccept t.log)) Anywhere s := by
  refine (stream_phases (receiving_phases chunk) some_ s held).mono
    (fun ok t ⟨done, _⟩ yes smooth => ?_) fun _ _ => trivial
  rcases done yes with opened | ⟨p, _, r, u, error, _, rfl⟩
  · have opened := opened smooth
    obtain ⟨data, bank⟩ := Option.isSome_iff_exists.mp opened.bank
    have fits := opened.poised.fitting.fits
    have sent := opened.poised.fitting.sent
    rw [bank, Option.getD_some] at fits sent
    have empty : data = [] := List.eq_nil_of_length_eq_zero (by omega)
    rw [empty, List.append_nil] at sent
    exact ⟨⟨opened.poised.selected, opened.poised.fitting.unstalled, opened.bank⟩, sent⟩
  · have sound := smooth.sound
    rw [sinceAccept_cons rfl] at sound
    exact absurd ((sound _ (List.mem_cons_self ..)).symm.trans error) nofun

end Stream

/-! ## The invariant -/

/-- When a cycle of a write or its end is recorded in a smooth session, what has been sent has
been taken. -/
def Faithful (e : Event) (past : List Event) : Prop :=
  e.cycle ≠ none ∨ e = .finish → ∀ c, acceptedCommand past = some c → c.task = .write →
    Smooth c.length.toNat past → sentOf (sinceAccept past) = takesOf (sinceAccept past)

/-- What neither is a cycle nor ends or begins anything. -/
structure Event.Passing (e : Event) : Prop where
  cycle : e.cycle = none
  accepted : e.accepted = none
  going : e ≠ .finish
  lasting : e ≠ .resetBegin

theorem Event.Plain.passing {e : Event} (plain : e.Plain) (lasting : e ≠ .resetBegin) :
    e.Passing := ⟨plain.cycle, plain.accepted, plain.other, lasting⟩

theorem faithful_of_silent {e : Event} (silent : e.cycle = none) (going : e ≠ .finish)
    (past : List Event) : Faithful e past := by
  rintro (cycle | finish)
  · exact absurd silent cycle
  · exact absurd finish going

/-- What the log says so far, and that a calm session is not reset. -/
structure Recorded (w : World) : Prop where
  history : History Faithful w.log
  calm : ∀ c, acceptedCommand w.log = some c → Calm (sinceAccept w.log) →
    w.vars.bulkReset = 0#32 ∧ .resetBegin ∉ sinceAccept w.log

/-- Between two calls of the sub-task, what is in the OUT bank fits the next chunk. -/
structure Fed (w : World) : Prop where
  recorded : Recorded w
  feeding : w.vars.bulkReset = 0#32 → w.vars.curVueState = .write →
    ∀ c, acceptedCommand w.log = some c → Smooth c.length.toNat w.log →
      Fitting (chunkLength w.vars).toNat 0 (sinceAccept w.log) w.usb

/-- At the end of a call all that was sent has been taken, and the bank is still to be freed. -/
structure Emptied (w : World) : Prop where
  recorded : Recorded w
  taken : w.vars.bulkReset = 0#32 → w.vars.curVueState = .write →
    ∀ c, acceptedCommand w.log = some c → Smooth c.length.toNat w.log →
      w.Holding ∧ sentOf (sinceAccept w.log) = takesOf (sinceAccept w.log)

section Carry

variable {s t : World} {new : List Event}

theorem Recorded.quiet (held : Recorded s) (log : t.log = new ++ s.log)
    (quiet : ∀ e ∈ new, e.Passing) (reset : Calm new → t.vars.bulkReset = s.vars.bulkReset) :
    Recorded t := by
  have none_ : ∀ e ∈ new, e.accepted = none := fun e member => (quiet e member).accepted
  refine ⟨?_, fun c accepted calm => ?_⟩
  · rw [log]
    exact held.history.append_of_forall fun e member past =>
      faithful_of_silent (quiet e member).cycle (quiet e member).going past
  · rw [log, acceptedCommand_append none_] at accepted
    rw [log, sinceAccept_append none_] at calm ⊢
    obtain ⟨clear, unreset⟩ := held.calm c accepted (Calm.append.mp calm).2
    refine ⟨(reset (Calm.append.mp calm).1).trans clear, fun member => ?_⟩
    rcases List.mem_append.mp member with late | early
    · exact (quiet _ late).lasting rfl
    · exact unreset early

/-- Before a chunk is complete there is room for as much as is to come. -/
theorem InProgress.chunk {c : VueCommand} (going : InProgress c 0 s) :
    ChunkOf c.length.toNat (c.moved s) (chunkLength s.vars).toNat := by
  have bounded := going.bounded
  refine ⟨going.whole, ?_⟩
  rw [chunkLength_toNat, VueCommand.moved]
  omega

theorem Kept.taken {c : VueCommand} (kept : Kept c s) (writing : c.task = .write)
    (sound : Sound (sinceAccept s.log)) : (takesOf (sinceAccept s.log)).length = c.moved s := by
  have exchanged := kept.exchanged sound
  rw [VueCommand.exchanged, if_neg (by rw [writing]; decide)] at exchanged
  exact exchanged

theorem Fed.quiet (ledger : Ledger none s) (held : Fed s) (unmoved : Unmoved s t)
    (listens : Listens s t) (log : t.log = new ++ s.log) (quiet : ∀ e ∈ new, e.Passing)
    (reset : Calm new → t.vars.bulkReset = s.vars.bulkReset) : Fed t := by
  have none_ : ∀ e ∈ new, e.accepted = none := fun e member => (quiet e member).accepted
  refine ⟨held.recorded.quiet log quiet reset, fun clear writing c accepted smooth => ?_⟩
  obtain ⟨_, _, _, _, vars⟩ := unmoved.vars
  have state : t.vars.curVueState = s.vars.curVueState := by rw [vars]
  rw [state] at writing
  rw [unmoved.accepted] at accepted
  obtain ⟨d, found, going⟩ := ledger.machine.tracked.progress (by rw [writing]; exact nofun)
  obtain rfl : c = d := Option.some.inj (accepted.symm.trans found)
  have past := smooth
  rw [log] at past
  obtain ⟨before, calm, -⟩ := past.past none_
  have cut := smooth.cut
  rw [log, sinceAccept_append none_] at cut
  obtain ⟨same, log', listened⟩ := listens
  obtain rfl := List.append_cancel_right (log'.symm.trans log)
  have task : c.task = .write := going.task.symm.trans writing
  rw [chunkLength_unmoved unmoved, log, sinceAccept_append none_]
  refine (held.feeding (unmoved.reset clear) writing c accepted before).listens going.chunk
    (chunkLength_pos going) ?_ cut (listened calm)
  exact (ledger.books.kept (unmoved.reset clear) (by rw [writing]; exact nofun) c accepted).taken
    task before.sound

theorem passing_of_stream {e : Event} (ok : e.ofStream = true) (none_ : e.given = none) :
    e.Passing := by
  refine (plain_of_stream ok none_).passing ?_
  rintro rfl
  exact nomatch ok

theorem passing_of_usb {e : Event} (ok : e.ofUsb = true) : e.Passing :=
  passing_of_stream (by cases e <;> first | exact ok | rfl | exact nomatch ok)
    (by cases e <;> first | rfl | exact nomatch ok)

/-- In a calm session `bulk_reset` is left alone. -/
theorem Streamed.calm {s t : World} (streamed : Streamed s t) :
    ∃ new, t.log = new ++ s.log ∧ (∀ e ∈ new, e.ofStream = true) ∧
      (Calm new → t.vars.bulkReset = s.vars.bulkReset) := by
  obtain ⟨new, log, all, reset⟩ := streamed.log
  refine ⟨new, log, all, fun calm => ?_⟩
  rw [reset, resetRequested_eq_false fun e member request => by
    have quiet := calm e member
    rw [request] at quiet
    exact nomatch quiet]
  rfl

theorem Fed.served (ledger : Ledger none s) (held : Fed s) (served : Served s t)
    (listens : Listens s t) : Fed t := by
  obtain ⟨new, log, all, reset⟩ := (Streamed.of_served served).calm
  obtain ⟨same, log', control, -⟩ := served.log
  obtain rfl := List.append_cancel_right (log'.symm.trans log)
  exact held.quiet ledger (.of_served served) listens log
    (fun e member =>
      passing_of_stream (all e member) (Event.idle_of_control (control e member)).2.1)
    reset

end Carry

/-! ## Work on the bus -/

/-- What a sub-task records while it works on the bus. -/
def Event.ofWork : Event → Bool
  | .port .task _ _ | .access _ _ | .finish | .undefined => true
  | _ => false

/-- The bus is worked on, and the endpoints are left alone. -/
structure Works (s t : World) : Prop where
  usb : t.usb = s.usb
  reset : t.vars.bulkReset = s.vars.bulkReset
  log : Logs (fun e => e.ofWork = true) s t

namespace Works

theorem refl (s : World) : Works s s := ⟨rfl, rfl, .refl s⟩

theorem trans {s t u : World} (one : Works s t) (two : Works t u) : Works s u :=
  ⟨two.usb.trans one.usb, two.reset.trans one.reset, one.log.trans two.log⟩

instance : IsPreorder World Works where
  refl := refl
  trans _ _ _ := trans

end Works

theorem portEvents_work (start : Board) (trace : List Board) :
    ∀ e ∈ portEvents .task start trace, e.ofWork = true := fun e member => by
  obtain ⟨_, _, rfl⟩ := portEvents_kind .task start trace e member
  rfl

theorem noteWork_works {e : Event} (ok : e.ofWork = true) : Moves Works (note e) :=
  Moves.modify fun _ => ⟨rfl, rfl, .one rfl ok⟩

theorem onVars_works {f : Vars → Vars} (same : ∀ v, (f v).bulkReset = v.bulkReset) :
    Moves Works (onVars f) := Moves.modify fun w => ⟨rfl, same w.vars, .none rfl⟩

theorem onBus_works (f : Rig → Rig) : Moves Works (onBus .task f) :=
  Moves.modify fun _ => ⟨rfl, rfl, _, rfl, portEvents_work _ _⟩

theorem undefinedBehaviour_works {α : Type} : Moves Works (undefinedBehaviour : Fw α) :=
  (noteWork_works rfl).bind fun _ => .stop

theorem bulkAccess_works (length : BitVec 32) : Moves Works (bulkAccess length) := by
  refine .bind .state fun w => ?_
  cases w.vars.bulkAccessFunc with
  | none => exact undefinedBehaviour_works
  | some func =>
      refine (noteWork_works rfl).bind fun _ => ?_
      dsimp only
      split
      · exact undefinedBehaviour_works
      · exact Moves.modify fun _ => ⟨rfl, rfl, _, rfl, portEvents_work _ _⟩

theorem deselect_works : Moves Works deselect :=
  (noteWork_works rfl).bind fun _ => .bind .state fun _ => onBus_works _

theorem enterIdle_works : Moves Works enterIdle := onVars_works fun _ => rfl

theorem shortenCommand_works (length : BitVec 32) : Moves Works (shortenCommand length) :=
  onVars_works fun _ => rfl

theorem finishWrite_works : Moves Works finishWrite := deselect_works.bind fun _ => enterIdle_works

/-- A chunk that has been received goes over the bus, and is counted. -/
theorem storeChunk_works (length : BitVec 32) : Moves Works (do
    bulkAccess length
    shortenCommand length
    whenever ((← state).vars.curCommand.length = 0#32) finishWrite) :=
  (bulkAccess_works length).bind fun _ => (shortenCommand_works length).bind fun _ =>
    .bind .state fun _ => .whenever fun _ => finishWrite_works

/-- By work on the bus nothing is sent or taken. -/
theorem quiet_of_work {e : Event} (ok : e.ofWork = true) :
    e.accepted = none ∧ e.taken = none ∧ e.sent = none ∧ e ≠ .resetBegin := by
  refine ⟨?_, ?_, ?_, ?_⟩
  · cases e <;> first | rfl | exact nomatch ok
  · cases e <;> first | rfl | exact nomatch ok
  · cases e <;> first | rfl | exact nomatch ok
  · rintro rfl
    exact nomatch ok

section Work

variable {s t : World}

/-- What work on the bus leaves as it was. -/
theorem Works.since {new : List Event} (all : ∀ e ∈ new, e.ofWork = true) (log : List Event) :
    acceptedCommand (new ++ log) = acceptedCommand log ∧
      sinceAccept (new ++ log) = new ++ sinceAccept log ∧
      sentOf (sinceAccept (new ++ log)) = sentOf (sinceAccept log) ∧
      takesOf (sinceAccept (new ++ log)) = takesOf (sinceAccept log) := by
  have none_ : ∀ e ∈ new, e.accepted = none := fun e member => (quiet_of_work (all e member)).1
  refine ⟨acceptedCommand_append none_ log, sinceAccept_append none_ log, ?_, ?_⟩
  · rw [sinceAccept_append none_, sentOf_append,
      sentOf_of_none fun e member => (quiet_of_work (all e member)).2.2.1, List.append_nil]
  · rw [sinceAccept_append none_]
    exact takesOf_append_of_none
      (occurrences_eq_nil _ fun e member => (quiet_of_work (all e member)).2.1)

/-- Work on the bus is done when all that was sent has been taken. -/
theorem Recorded.works (held : Recorded s) (works : Works s t)
    (taken : ∀ c, acceptedCommand s.log = some c → c.task = .write →
      Smooth c.length.toNat s.log → sentOf (sinceAccept s.log) = takesOf (sinceAccept s.log)) :
    Recorded t := by
  obtain ⟨new, log, all⟩ := works.log
  have none_ : ∀ e ∈ new, e.accepted = none := fun e member => (quiet_of_work (all e member)).1
  refine ⟨?_, fun c accepted calm => ?_⟩
  · rw [log]
    refine held.history.append fun later e earlier split _ c accepted writing smooth => ?_
    have before : ∀ f ∈ earlier, f.ofWork = true := fun f member => all f <| by
      rw [split]
      exact List.mem_append_right _ (List.mem_cons_of_mem _ member)
    obtain ⟨command, -, sent, takes⟩ := Works.since before s.log
    rw [command] at accepted
    rw [sent, takes]
    exact taken c accepted writing
      (smooth.past fun f member => (quiet_of_work (before f member)).1).1
  · rw [log, acceptedCommand_append none_] at accepted
    rw [log, sinceAccept_append none_] at calm ⊢
    obtain ⟨clear, unreset⟩ := held.calm c accepted (Calm.append.mp calm).2
    refine ⟨works.reset.trans clear, fun member => ?_⟩
    rcases List.mem_append.mp member with late | early
    · exact (quiet_of_work (all _ late)).2.2.2 rfl
    · exact unreset early

end Work

/-! ## The tasks -/

/-- What is known of a run wherever it is cut. -/
def Reported (w : World) : Prop := Accounted none w ∧ History Faithful w.log

section Tasks

variable {s : World}

/-- What is recorded while bytes are received passes. -/
theorem received_passing {t : World} (streamed : Streamed s t)
    (given : Logs (fun e => e.given = none) s t) :
    ∃ new, t.log = new ++ s.log ∧ (∀ e ∈ new, e.Passing) ∧
      (Calm new → t.vars.bulkReset = s.vars.bulkReset) := by
  obtain ⟨new, log, all, reset⟩ := streamed.calm
  obtain ⟨same, log', none_⟩ := given
  obtain rfl := List.append_cancel_right (log'.symm.trans log)
  exact ⟨same, log, fun e member => passing_of_stream (all e member) (none_ e member), reset⟩

theorem vueBulkWriteTask_emptied (ledger : Ledger none s) (held : Fed s) (found : s.OutFound)
    (writing : s.vars.curVueState = .write) :
    wp vueBulkWriteTask (fun _ t => Emptied t) (fun t => History Faithful t.log) s := by
  have busy : s.vars.curVueState ≠ .idle := by rw [writing]; decide
  obtain ⟨c, accepted, going⟩ := ledger.machine.tracked.progress busy
  have task : c.task = .write := going.task.symm.trans writing
  have kept := ledger.books.kept found.clear busy c accepted
  have selected := found.selected
  rw [vueBulkWriteTask, wp_bind, wp_state, if_neg (by rw [going.phase]; decide), if_pos going.phase]
  have poised := receiveChunk_poised going.chunk (chunkLength_pos going) (s := s) fun smooth =>
    ⟨selected, held.feeding found.clear writing c accepted smooth, kept.taken task smooth.sound⟩
  have streamed := readStream_streamed storeBuffer (fun _ _ _ => ⟨_, _, rfl⟩)
    (chunkLength s.vars).toNat s
  have plain := readStream_plain storeBuffer (chunkLength s.vars).toNat s
  have reset := readStream_reset storeBuffer (fun _ _ _ => rfl) (chunkLength s.vars).toNat s
  have recorded {t : World} (streamed : Streamed s t) (given : Logs (fun e => e.given = none) s t) :
      Recorded t ∧ acceptedCommand t.log = some c := by
    obtain ⟨new, log, passing, same⟩ := received_passing streamed given
    refine ⟨held.recorded.quiet log passing same, ?_⟩
    rw [log, acceptedCommand_append fun e member => (passing e member).accepted]
    exact accepted
  refine wp.bind (((streamed.and plain).and (poised.and reset)).mono (fun _ _ ends => ends)
    fun t cut => (recorded cut.1.1 cut.1.2).1.history) fun ok t ends => ?_
  obtain ⟨⟨streamed, given⟩, emptied, reset⟩ := ends
  obtain ⟨known, accepted⟩ := recorded streamed given
  rw [wp_ite]
  refine ⟨fun yes => ?_, fun no => ⟨known, fun clear => ?_⟩⟩
  · -- the chunk goes over the bus
    have taken (d : VueCommand) (same : acceptedCommand t.log = some d)
        (smooth : Smooth d.length.toNat t.log) :
        t.Holding ∧ sentOf (sinceAccept t.log) = takesOf (sinceAccept t.log) := by
      obtain rfl : c = d := Option.some.inj (accepted.symm.trans same)
      exact emptied yes smooth
    have worked {u : World} (works : Works t u) : Recorded u :=
      known.works works fun d same _ smooth => (taken d same smooth).2
    refine (storeChunk_works (chunkLength s.vars) t).mono (fun _ u works => ⟨worked works,
      fun _ _ d same smooth => ?_⟩) fun u works => (worked works).history
    obtain ⟨new, log, all⟩ := works.log
    obtain ⟨command, -, sent, takes⟩ := Works.since all t.log
    rw [log] at same smooth ⊢
    rw [command] at same
    obtain ⟨holding, equal⟩ := taken d same
      (smooth.past fun e member => (quiet_of_work (all e member)).1).1
    exact ⟨holding.of_usb works.usb, by rw [sent, takes, equal]⟩
  · exact absurd clear (reset.2 (by simpa using no))

/-- What was heard of a command that is accepted. -/
theorem takesOf_heardOf {ports heard : List Event} (none_ : ∀ e ∈ ports, e.accepted = none)
    (same : ∀ e ∈ heard, ∀ old, e ≠ .command old) (c old : VueCommand) (log : List Event) :
    takesOf (heardOf (ports ++ .accept c :: (heard ++ .command old :: log))) = takesOf heard := by
  have before : beforeAccept (ports ++ .accept c :: (heard ++ .command old :: log)) =
      .accept c :: (heard ++ .command old :: log) := beforeAccept_append none_ _
  have since : sinceCommand ((.accept c :: heard) ++ .command old :: log) = .accept c :: heard :=
    sinceCommand_command (fun e member old => by
      rcases List.mem_cons.mp member with rfl | early
      · exact nofun
      · exact same e early old) old log
  rw [heardOf, before, show Event.accept c :: (heard ++ .command old :: log) =
    (.accept c :: heard) ++ .command old :: log from rfl, since, takesOf, occurrences_cons]
  exact List.append_nil _

/-- A command is accepted, with the packet it came in still in the bank. -/
theorem judgeCommand_emptied (ready : s.BusReady) (held : Recorded s)
    (idle : s.vars.curVueState = .idle) (clear : s.vars.bulkReset = 0#32) {heard past : List Event}
    {old : VueCommand} (log : s.log = heard ++ .command old :: past)
    (same : ∀ e ∈ heard, ∀ old, e ≠ .command old)
    (whole : (takesOf heard).length = 32 → s.Holding) :
    wp judgeCommand (fun _ t => Emptied t) (fun t => History Faithful t.log) s := by
  have still {t : World} (known : Recorded t) (vars : t.vars.curVueState = .idle) : Emptied t :=
    ⟨known, fun _ writing => absurd (vars.symm.trans writing) (by decide)⟩
  have one {t : World} {e : Event} (log : t.log = e :: s.log) (passing : e.Passing)
      (reset : t.vars.bulkReset = s.vars.bulkReset) : Recorded t :=
    held.quiet (show t.log = [e] ++ s.log from log)
      (fun _ member => by rwa [List.mem_singleton.mp member]) fun _ => reset
  rw [judgeCommand, wp_bind, onVars, wp_modify, wp_bind, wp_state, wp_ite, wp_ite]
  refine ⟨fun defined => ⟨fun zero => ?_, fun positive => ?_⟩, fun undefined_ => ?_⟩
  · exact still (one rfl ⟨rfl, rfl, by simp, by simp⟩ rfl) idle
  · rw [wp_of_value (startCommand_eq defined)]
    have silent := vueWriteAddressFull_cycles ready.resting s.vars.curCommand.correct.start
    have plain := portEvents_plain silent
    obtain ⟨c, eq⟩ : ∃ c, c = s.vars.curCommand.correct := ⟨_, rfl⟩
    obtain ⟨u, world⟩ : ∃ u : World,
      u = World.begun { s with vars := { s.vars with curCommand := c } } c := ⟨_, rfl⟩
    obtain ⟨ports, ports_⟩ : ∃ ports, ports = portEvents .task s.board
      (vueWriteAddressFull s.vars.curCommand.correct.start ⟨s.board, []⟩).seen := ⟨_, rfl⟩
    have work : ∀ e ∈ ports, e.ofWork = true := by
      rw [ports_]
      exact portEvents_work _ _
    have none_ : ∀ e ∈ ports, e.accepted = none := fun e member => (quiet_of_work (work e member)).1
    rw [← ports_] at plain
    have begun : u.log = ports ++ .accept c :: s.log := by rw [world, ports_, ← eq]; rfl
    have reset : u.vars.bulkReset = 0#32 := by rw [world]; exact clear
    have usb : u.usb = s.usb := by rw [world]; rfl
    rw [← eq, ← world]
    have since : sinceAccept u.log = ports := by rw [begun, sinceAccept_accept none_]
    refine ⟨⟨?_, fun d _ _ => ⟨reset, fun member => ?_⟩⟩, fun _ _ d _ smooth => ⟨?_, ?_⟩⟩
    · have accepted : History Faithful (.accept c :: s.log) :=
        ⟨faithful_of_silent (e := .accept c) rfl (by simp) _, held.history⟩
      rw [begun]
      exact accepted.append_of_forall fun e member past =>
        faithful_of_silent (plain e member).cycle (plain e member).other past
    · rw [since] at member
      cases work _ member
    · have heard_ := smooth.heard
      rw [begun, log, takesOf_heardOf none_ same] at heard_
      exact (whole heard_).of_usb usb
    · rw [since, sentOf_of_none fun e member => (quiet_of_work (work e member)).2.2.1]
      exact (occurrences_eq_nil _ fun e member => (quiet_of_work (work e member)).2.1).symm
  · rw [wp_bind, note, wp_modify]
    have rejected := one (t := { s with
      vars := { s.vars with curCommand := s.vars.curCommand.correct }
      log := .reject s.vars.curCommand.correct :: s.log }) rfl ⟨rfl, rfl, by simp, by simp⟩ rfl
    have later {t : World} (framed : Framed OfUsb { s with
        vars := { s.vars with curCommand := s.vars.curCommand.correct }
        log := .reject s.vars.curCommand.correct :: s.log } t) : Recorded t := by
      obtain ⟨more, log', all⟩ := framed.log
      exact rejected.quiet log' (fun e member => passing_of_usb (all e member)) fun _ => by
        rw [framed.vars]
    exact (refuseOut_framed _).mono (fun _ t framed => still (later framed) (by
      rw [framed.vars]
      exact idle)) fun t framed => (later framed).history

theorem vueCommandTask_emptied (ledger : Ledger none s) (held : Fed s) (found : s.OutFound)
    (idle : s.vars.curVueState = .idle) :
    wp vueCommandTask (fun _ t => Emptied t) (fun t => History Faithful t.log) s := by
  have there : s.At vueCartReaderOutEpAddr := .inl found.selected
  rw [vueCommandTask, wp_bind, wp_state, wp_bind, note, wp_modify]
  obtain ⟨u, eq⟩ : ∃ u : World, u = { s with log := .command s.vars.curCommand :: s.log } :=
    ⟨_, rfl⟩
  have log : u.log = .command s.vars.curCommand :: s.log := by rw [eq]
  have vars : u.vars = s.vars := by rw [eq]
  have ready : u.BusReady := by
    rw [eq]
    exact ⟨ledger.machine.bus.ready.resting, ledger.machine.bus.ready.selects,
      ledger.machine.bus.ready.header⟩
  have at_ : u.At vueCartReaderOutEpAddr := by
    rw [eq]
    exact there
  have known : Recorded u := held.recorded.quiet
    (show u.log = [.command s.vars.curCommand] ++ s.log from log) (fun e member => by
      rw [List.mem_singleton.mp member]
      exact ⟨rfl, rfl, by simp, by simp⟩) fun _ => by rw [vars]
  rw [← eq]
  have streamed := readStream_streamed storeCommand (fun _ _ _ => ⟨_, _, rfl⟩) 32 u
  have plain := readStream_plain storeCommand 32 u
  have whole := readStream_whole (n := 32) command_memory (by decide) at_ (by simp)
  have reset := readStream_reset storeCommand (fun _ _ _ => rfl) 32 u
  refine wp.bind (((streamed.and plain).and (whole.and reset)).mono (fun _ _ ends => ends)
    fun t cut => ?_) fun ok t ends => ?_
  · obtain ⟨new, log', passing, same⟩ := received_passing cut.1.1 cut.1.2
    exact (known.quiet log' passing same).history
  obtain ⟨⟨streamed, given⟩, ⟨same, log', whole⟩, reset⟩ := ends
  obtain ⟨new, added, passing, calm⟩ := received_passing streamed given
  obtain rfl := List.append_cancel_right (added.symm.trans log')
  have known := known.quiet added passing calm
  have state : t.vars.curVueState = .idle := by
    obtain ⟨_, _, _, _, _, vars'⟩ := streamed.vars
    rw [vars', vars]
    exact idle
  have heard : ∀ e ∈ new, ∀ old, e ≠ .command old := by
    obtain ⟨all, grown, stream, -⟩ := streamed.log
    obtain rfl := List.append_cancel_right (grown.symm.trans added)
    rintro e member old rfl
    cases stream _ member
  rw [wp_ite]
  refine ⟨fun yes => ?_, fun _ => ⟨known, fun _ writing =>
    absurd (state.symm.trans writing) (by decide)⟩⟩
  refine judgeCommand_emptied (streamed.ready ready) known state
    (reset.1 yes (by rw [vars]; exact found.clear)) (by rw [added, log]) heard fun all =>
      (whole all).2

/-! ## Reading -/

/-- While a command to read is in progress, nothing is promised of writes. -/
theorem Recorded.reading {t : World} {c : VueCommand} (held : Recorded s)
    (accepted : acceptedCommand s.log = some c) (reading : c.task = .read) {new : List Event}
    (log : t.log = new ++ s.log) (all : ∀ e ∈ new, e.accepted = none ∧ e ≠ .resetBegin)
    (reset : Calm new → t.vars.bulkReset = s.vars.bulkReset) : Recorded t := by
  have none_ : ∀ e ∈ new, e.accepted = none := fun e member => (all e member).1
  refine ⟨?_, fun d command calm => ?_⟩
  · rw [log]
    refine held.history.append fun later e earlier split _ d command writing => ?_
    have before : ∀ f ∈ earlier, f.accepted = none := fun f member => none_ f <| by
      rw [split]
      exact List.mem_append_right _ (List.mem_cons_of_mem _ member)
    rw [acceptedCommand_append before] at command
    obtain rfl : c = d := Option.some.inj (accepted.symm.trans command)
    exact nomatch reading.symm.trans writing
  · rw [log, acceptedCommand_append none_] at command
    rw [log, sinceAccept_append none_] at calm ⊢
    obtain ⟨clear, unreset⟩ := held.calm d command (Calm.append.mp calm).2
    refine ⟨(reset (Calm.append.mp calm).1).trans clear, fun member => ?_⟩
    rcases List.mem_append.mp member with late | early
    · exact (all _ late).2 rfl
    · exact unreset early

/-- No command is accepted and no reset begun, and in a calm session `bulk_reset` is left
alone. -/
def Steady (s t : World) : Prop :=
  ∃ new, t.log = new ++ s.log ∧ (∀ e ∈ new, e.accepted = none ∧ e ≠ .resetBegin) ∧
    (Calm new → t.vars.bulkReset = s.vars.bulkReset)

namespace Steady

theorem refl (s : World) : Steady s s := ⟨[], rfl, List.forall_mem_nil _, fun _ => rfl⟩

theorem trans {s t u : World} (one : Steady s t) (two : Steady t u) : Steady s u := by
  obtain ⟨first, log, all, reset⟩ := one
  obtain ⟨second, log', all', reset'⟩ := two
  refine ⟨second ++ first, by rw [log', log, List.append_assoc], fun e member => ?_, fun calm => ?_⟩
  · rcases List.mem_append.mp member with late | early
    · exact all' e late
    · exact all e early
  · rw [Calm.append] at calm
    exact (reset' calm.1).trans (reset calm.2)

instance : IsPreorder World Steady where
  refl := refl
  trans _ _ _ := trans

theorem of_works {s t : World} (works : Works s t) : Steady s t := by
  obtain ⟨new, log, all⟩ := works.log
  exact ⟨new, log, fun e member =>
    ⟨(quiet_of_work (all e member)).1, (quiet_of_work (all e member)).2.2.2⟩, fun _ => works.reset⟩

theorem of_streamed {s t : World} (streamed : Streamed s t) : Steady s t := by
  obtain ⟨new, log, all, reset⟩ := streamed.calm
  refine ⟨new, log, fun e member => ⟨accepted_of_stream (all e member), ?_⟩, reset⟩
  rintro rfl
  exact nomatch all _ member

end Steady

theorem beginTransfer_works (func : Byte → AccessFunc) : Moves Works (beginTransfer func) := by
  refine .bind .state fun w => ?_
  dsimp only
  split
  · exact undefinedBehaviour_works
  · refine .bind ?_ fun _ => (onBus_works _).bind fun _ => ?_
    · exact onVars_works fun _ => rfl
    · exact onVars_works fun _ => rfl

theorem vueBulkReadTask_steady : Moves Steady vueBulkReadTask := by
  have works {α : Type} {m : Fw α} (works : Moves Works m) : Moves Steady m :=
    works.mono fun _ _ => .of_works
  have finish : Moves Steady finishRead :=
    (works deselect_works).bind fun _ =>
      (taskClearIn_framed.mono fun _ _ framed => .of_streamed (.of_framed framed)).bind fun _ =>
        works enterIdle_works
  refine .bind .state fun w => .ite (fun _ => works (beginTransfer_works _)) fun _ =>
    .ite (fun _ => ?_) fun _ => finish
  refine (works (bulkAccess_works _)).bind fun _ =>
    ((writeStream_streamed loadBuffer _).mono fun _ _ => .of_streamed).bind fun _ =>
      .ite (fun _ => ?_) fun _ => .pure _
  exact (works (shortenCommand_works _)).bind fun _ => .bind .state fun _ =>
    .whenever fun _ => finish

theorem vueBulkReadTask_fed (ledger : Ledger none s) (held : Fed s)
    (clear : s.vars.bulkReset = 0#32) (reading : s.vars.curVueState = .read)
    (selected : s.At vueCartReaderInEpAddr) :
    wp vueBulkReadTask (fun _ t => Ledger none t ∧ Fed t) Reported s := by
  obtain ⟨c, accepted, going⟩ :=
    ledger.machine.tracked.progress (by rw [reading]; exact nofun)
  have task : c.task = .read := going.task.symm.trans reading
  have known {t : World} (steady : Steady s t) :
      Recorded t ∧ acceptedCommand t.log = some c := by
    obtain ⟨new, log, all, reset⟩ := steady
    refine ⟨held.recorded.reading accepted task log all reset, ?_⟩
    rw [log, acceptedCommand_append fun e member => (all e member).1]
    exact accepted
  refine (((ledger_tasks none).read s ledger clear reading selected).and
    (vueBulkReadTask_steady s)).mono (fun _ t ⟨ledger, steady⟩ => ⟨ledger, (known steady).1,
      fun _ writing _ _ _ => ?_⟩) fun _ ⟨accounted, steady⟩ => ⟨accounted, (known steady).1.history⟩
  -- the command is still the same, and it does not write
  obtain ⟨e, found, going⟩ := ledger.machine.tracked.progress (by rw [writing]; exact nofun)
  obtain rfl : c = e := Option.some.inj ((known steady).2.symm.trans found)
  exact nomatch task.symm.trans (going.task.symm.trans writing)

/-! ## Runs -/

theorem refuseOut_emptied (held : Fed s) (other : s.vars.curVueState ≠ .write) :
    wp refuseOut (fun _ t => Emptied t) (fun t => History Faithful t.log) s := by
  have known {t : World} (framed : Framed OfUsb s t) : Recorded t := by
    obtain ⟨new, log, all⟩ := framed.log
    exact held.recorded.quiet log (fun e member => passing_of_usb (all e member)) fun _ => by
      rw [framed.vars]
  exact (refuseOut_framed s).mono (fun _ t framed => ⟨known framed, fun _ writing =>
    absurd (by rw [← writing, framed.vars]) other⟩) fun t framed => (known framed).history

/-- The bank is freed at the end of a call, and the next chunk can come. -/
theorem endpointClearOut_fed (held : Emptied s) (x : Nat) :
    wp (endpointClearOut .task) (fun _ t => Fed t) (fun t => History Faithful t.log)
      { s with log := .operate .clearOut x :: s.log } := by
  obtain ⟨u, eq⟩ : ∃ u : World, u = { s with log := .operate .clearOut x :: s.log } := ⟨_, rfl⟩
  have log : u.log = [.operate .clearOut x] ++ s.log := by rw [eq]; rfl
  have vars : u.vars = s.vars := by rw [eq]
  have noted : ∀ e ∈ [Event.operate .clearOut x], e.ofUsb = true := fun e member => by
    rw [List.mem_singleton.mp member]
    rfl
  have known : Recorded u := held.recorded.quiet log
    (fun e member => passing_of_usb (noted e member)) fun _ => by rw [vars]
  have later {t : World} (framed : Framed OfUsb u t) : Recorded t := by
    obtain ⟨new, log, all⟩ := framed.log
    exact known.quiet log (fun e member => passing_of_usb (all e member)) fun _ => by
      rw [framed.vars]
  rw [← eq]
  refine ((endpointClearOut_dropped .task u).and (endpointClearOut_framed .task u)).mono
    (fun _ t ⟨⟨new, ⟨log', usb⟩, dropped⟩, framed⟩ => ⟨later framed,
      fun clear writing c accepted smooth => ?_⟩) fun t ⟨_, framed⟩ => (later framed).history
  have none_ : ∀ e ∈ new ++ [.operate .clearOut x], e.accepted = none := fun e member => by
    rcases List.mem_append.mp member with late | early
    · exact (passing_of_usb (usb e late)).accepted
    · exact (passing_of_usb (noted e early)).accepted
  have grown : t.log = (new ++ [.operate .clearOut x]) ++ s.log := by
    rw [log', log, List.append_assoc]
  rw [framed.vars, vars] at clear writing
  rw [grown, acceptedCommand_append none_] at accepted
  rw [grown] at smooth ⊢
  obtain ⟨before, calm, -⟩ := smooth.past none_
  obtain ⟨holding, sent⟩ := held.taken clear writing c accepted before
  have usb_ : u.usb = s.usb := by rw [eq]
  have ends := dropped (holding.of_usb usb_) (Calm.append.mp calm).1
  rw [sinceAccept_append none_]
  refine ⟨ends.unstalled, ?_, ?_⟩
  · have silent : takesOf (new ++ [.operate .clearOut x]) = [] := by
      rw [takesOf, occurrences_append, show occurrences _ new = [] from ends.takes]
      rfl
    have unsent : sentOf (new ++ [.operate .clearOut x]) = [] := by
      rw [sentOf_append, sentOf, sentOf, ends.packets]
      rfl
    rw [sentOf_append, unsent, takesOf_append_of_none silent, sent, ends.bank]
    rfl
  · rw [ends.bank]
    exact Nat.zero_le _

/-- Both invariants. -/
def Supplied (w : World) : Prop := Ledger none w ∧ Fed w

theorem Supplied.reported {w : World} (held : Supplied w) : Reported w :=
  ⟨held.1.books.history, held.2.recorded.history⟩

/-- What serves a request or looks at the endpoint keeps both invariants. -/
theorem supplied_stays {α : Type} {m : Fw α} (served : Moves Served m) (listens : Moves Listens m)
    (ledger : Stays (Ledger none) (Accounted none) m) : Stays Supplied Reported m := fun s held =>
  (((served s).and (listens s)).and (ledger s held.1)).mono
    (fun _ _ ⟨⟨served, listens⟩, ledger⟩ => ⟨ledger, held.2.served held.1 served listens⟩)
    fun _ ⟨⟨served, listens⟩, ledger⟩ =>
      ⟨ledger, (held.2.served held.1 served listens).recorded.history⟩

theorem supplied_endpoints : EndpointsKeep Supplied Reported := by
  have keep := ledger_endpoints none
  have looks {α : Type} {m : Fw α} (framed : Moves (Framed OfUsb) m) (listens : Moves Listens m)
      (ledger : Stays (Ledger none) (Accounted none) m) : Stays Supplied Reported m :=
    supplied_stays (served_of_framed framed) listens ledger
  refine
    { note := fun e ok s held => ?_
      select := fun address other => looks (endpointSelectEndpoint_framed address)
        (endpointSelectEndpoint_listens address) (keep.select address other)
      outReceived :=
        looks endpointIsOutReceived_framed endpointIsOutReceived_listens keep.outReceived
      inReady := looks endpointIsInReady_framed endpointIsInReady_listens keep.inReady
      allowed := looks endpointIsReadWriteAllowed_framed endpointIsReadWriteAllowed_listens
        keep.allowed
      ready := looks endpointWaitUntilReady_framed endpointWaitUntilReady_listens keep.ready
      clearIn := looks endpointClearIn_framed endpointClearIn_listens keep.clearIn }
  have quiet : e.Passing ∧ e.sent = none ∧ e.taken = none := by
    cases e with
    | outReceived s => exact ⟨⟨rfl, rfl, nofun, nofun⟩, rfl, rfl⟩
    | inReady s => exact ⟨⟨rfl, rfl, nofun, nofun⟩, rfl, rfl⟩
    | operate o x => exact ⟨⟨rfl, rfl, nofun, nofun⟩, rfl, rfl⟩
    | _ => exact nomatch ok
  have unmoved : Unmoved s { s with log := e :: s.log } :=
    ⟨⟨_, _, _, _, rfl⟩, acceptedCommand_cons quiet.1.accepted s.log, id, fun _ => .inl rfl⟩
  have log : ({ s with log := e :: s.log } : World).log = [e] ++ s.log := rfl
  exact ⟨keep.noted ok held.1, held.2.quiet held.1 unmoved (.of_one rfl quiet.2 rfl rfl) log
    (fun _ member => by rw [List.mem_singleton.mp member]; exact quiet.1) fun _ => rfl⟩

theorem supplied_tasks :
    TasksKeep Supplied (fun w => Ledger none w ∧ Emptied w) Reported := by
  have tasks := ledger_tasks none
  exact
    { command := fun s held found idle => (tasks.command s held.1 found idle).and
        (vueCommandTask_emptied held.1 held.2 found idle)
      write := fun s held found writing => (tasks.write s held.1 found writing).and
        (vueBulkWriteTask_emptied held.1 held.2 found writing)
      refuse := fun s held found notIdle notWriting =>
        (tasks.refuse s held.1 found notIdle notWriting).and (refuseOut_emptied held.2 notWriting)
      free := fun s x held => (tasks.free s x held.1).and (endpointClearOut_fed held.2 x)
      read := fun s held clear reading selected =>
        vueBulkReadTask_fed held.1 held.2 clear reading selected }

/-- What the reset block records promises nothing, and it ends idle. -/
theorem resetBlock_plain {s : World} (ready : s.BusReady) :
    wp resetBlock (fun _ t => (∃ new, t.log = new ++ s.log ∧ ∀ e ∈ new, e.Plain) ∧
        t.vars.curVueState = .idle)
      (fun t => ∃ new, t.log = new ++ s.log ∧ ∀ e ∈ new, e.Plain) s := by
  have quiet (e : Event) (kind : e = .resetBegin ∨ e = .resetEnd) : e.Plain := by
    rcases kind with rfl | rfl <;> exact ⟨rfl, rfl, rfl, nofun⟩
  obtain ⟨u, eq⟩ : ∃ u : World, u = { s with log := .resetBegin :: s.log } := ⟨_, rfl⟩
  have begun : u.log = .resetBegin :: s.log := by rw [eq]
  have grown {t : World} (moved : InBlock u t) :
      ∃ new, t.log = new ++ s.log ∧ ∀ e ∈ new, e.Plain := by
    obtain ⟨new, log, all⟩ := moved.log
    refine ⟨new ++ [.resetBegin], by rw [log, begun, List.append_assoc]; rfl, fun e member => ?_⟩
    rcases List.mem_append.mp member with late | early
    · exact plain_of_reset (all e late)
    · exact quiet e (.inl (List.mem_singleton.mp early))
  rw [resetBlock, note, wp_bind, wp_modify, ← eq]
  have ready : u.BusReady := by
    rw [eq]
    exact ⟨ready.resting, ready.selects, ready.header⟩
  refine wp.bind (((restoreDefaultState_inBlock u).and (restoreDefaultState_board ready)).mono
    (fun _ _ ends => ends) fun t cut => grown cut.1) fun _ t ends => ?_
  obtain ⟨moved, idle, -⟩ := ends
  obtain ⟨new, log, plain⟩ := grown moved
  refine ⟨⟨.resetEnd :: new, congrArg (Event.resetEnd :: ·) log, fun e member => ?_⟩, idle⟩
  rcases List.mem_cons.mp member with end_ | early
  · exact quiet e (.inr end_)
  · exact plain e early

theorem resetBlock_supplied (s : World) (held : Supplied s) (set : s.vars.bulkReset ≠ 0#32) :
    wp resetBlock (fun _ t => Supplied t) Reported s := by
  refine ((resetBlock_keepsLedger none s held.1).and
      (resetBlock_plain held.1.machine.bus.ready)).mono
    (fun _ t ⟨ledger, ⟨new, log, plain⟩, idle⟩ => ?_) fun t ⟨accounted, new, log, plain⟩ => ?_
  · have none_ : ∀ e ∈ new, e.accepted = none := fun e member => (plain e member).accepted
    refine ⟨ledger, ⟨?_, fun c accepted calm => ?_⟩, fun _ writing =>
      nomatch idle.symm.trans writing⟩
    · rw [log]
      exact held.2.recorded.history.append_of_forall fun e member past =>
        faithful_of_silent (plain e member).cycle (plain e member).other past
    · -- a calm session is not reset
      rw [log, acceptedCommand_append none_] at accepted
      rw [log, sinceAccept_append none_, Calm.append] at calm
      exact absurd (held.2.recorded.calm c accepted calm.2).1 set
  · refine ⟨accounted, ?_⟩
    rw [log]
    exact held.2.recorded.history.append_of_forall fun e member past =>
      faithful_of_silent (plain e member).cycle (plain e member).other past

theorem usbUsbTask_supplied : Stays Supplied Reported usbUsbTask :=
  supplied_stays usbUsbTask_served usbUsbTask_listens (usbUsbTask_keepsLedger none)

theorem mainIteration_supplied : Stays Supplied Reported mainIteration :=
  mainIteration_stays usbUsbTask_supplied (vueTask_stays supplied_endpoints supplied_tasks)
    resetBlock_supplied

theorem Supplied.offer {w : World} (held : Supplied w) (i : Input) : Supplied (w.offer i) :=
  ⟨held.1.offer nofun, ⟨⟨held.2.recorded.history, held.2.recorded.calm⟩, held.2.feeding⟩⟩

/-- **What is sent is taken.** In every run, as long as a session goes smoothly, a write uses
the bus only when all that was sent for it has been taken. -/
theorem mainLoop_supplied (inputs : List Input) : Stays Supplied Reported (mainLoop inputs) :=
  mainLoop_stays inputs (fun i _ _ held => held.offer i) mainIteration_supplied

theorem Started.supplied {w : World} (started : Started w) : Supplied w := by
  have ledger := started.ledger
  obtain ⟨_, _, _, _, _, rfl⟩ := started
  exact ⟨ledger, ⟨trivial, nofun⟩, fun _ writing => nomatch writing⟩

end Tasks

end VueCartReader
