import VueCartReader.Device.Loop

/-!
# What a stream call moves

A rule for statements `J p` about the world after `p` bytes of a stream have been
moved (`stream_rule`): the loop ends with all bytes moved, or with an error and fewer,
or abandoned with fewer. Its instances say which bytes were taken from the host and
stored (`Received`), and which were given to it (`Sent`).
-/

set_option autoImplicit false

namespace VueCartReader

open Program

/-! ## The rule -/

/-- A result other than success and a transfer to be continued. -/
def StreamResult.isError : StreamResult → Bool
  | .noError | .incompleteTransfer => false
  | _ => true

/-- The events of a loop that has not failed. -/
def Event.goesOn : Event → Bool
  | .operate _ _ | .abandon _ => true
  | .stream r => !r.isError
  | _ => false

/-- What the parts of a stream call over `n` bytes do to a statement about the number
of bytes moved. -/
structure StreamKeeps (d : Direction) (n : Nat) (J : Nat → World → Prop) (C : World → Prop) :
    Prop where
  weaker : ∀ p t, p ≤ n → J p t → C t
  noted : ∀ p t e, J p t → e.goesOn = true → J p { t with log := e :: t.log }
  ready : ∀ p < n, Stays (J p) C endpointWaitUntilReady
  allowed : ∀ p < n, Stays (J p) C endpointIsReadWriteAllowed
  transfer : ∀ p < n, ∀ t, J p t → t.usb.readWriteAllowed = true →
    wp (d.transferByte p) (fun _ u => J (p + 1) u) C t
  /-- The bank is cleared when it allows no access. -/
  clear : ∀ p < n, ∀ t, J p t →
    (t.usb.readWriteAllowed = false ∨ ∃ past, t.log = .refuse :: past) →
    wp d.clearEndpoint (fun _ u => J p u) C t
  task : ∀ p < n, Stays (J p) C usbUsbTask

/-- The same for a statement `J` about the world between two calls and a statement `K`
about the world while the bank is open. -/
structure StreamPhases (d : Direction) (n : Nat) (J K : Nat → World → Prop) (C : World → Prop) :
    Prop where
  weaker : ∀ p t, p ≤ n → J p t → C t
  noted : ∀ p t e, J p t → e.goesOn = true → J p { t with log := e :: t.log }
  ended : ∀ t, K n t → K n { t with log := .stream .noError :: t.log }
  ready : ∀ p < n, ∀ t, J p t → wp endpointWaitUntilReady
    (fun r u => (r = .noError → K p u) ∧ (r ≠ .noError → J p u)) C t
  allowed : ∀ p < n, Stays (K p) C endpointIsReadWriteAllowed
  transfer : ∀ p < n, ∀ t, K p t → t.usb.readWriteAllowed = true →
    wp (d.transferByte p) (fun _ u => K (p + 1) u) C t
  clear : ∀ p < n, ∀ t, K p t →
    (t.usb.readWriteAllowed = false ∨ ∃ past, t.log = .refuse :: past) →
    wp d.clearEndpoint (fun _ u => J p u) C t
  task : ∀ p < n, Stays (J p) C usbUsbTask

theorem StreamKeeps.phases {d : Direction} {n : Nat} {J : Nat → World → Prop} {C : World → Prop}
    (keeps : StreamKeeps d n J C) : StreamPhases d n J J C where
  weaker := keeps.weaker
  noted := keeps.noted
  ended t held := keeps.noted n t (.stream .noError) held rfl
  ready p less t held := (keeps.ready p less t held).mono
    (fun _ _ held => ⟨fun _ => held, fun _ => held⟩) fun _ cut => cut
  allowed := keeps.allowed
  transfer := keeps.transfer
  clear := keeps.clear
  task := keeps.task

theorem endpointIsReadWriteAllowed_found (s : World) :
    wp endpointIsReadWriteAllowed
      (fun allowed t => (allowed = true → t.usb.readWriteAllowed = true) ∧
        (allowed = false → t.usb.readWriteAllowed = false ∨ ∃ past, t.log = .refuse :: past))
      Anywhere s := by
  refine wp.bind (wp_trivial _) fun m t _ => ?_
  rw [wp_ite]
  exact ⟨fun _ => ⟨nofun, fun _ => .inr ⟨t.log, rfl⟩⟩, fun _ => ⟨id, .inl⟩⟩

section Rule

variable {d : Direction} {n : Nat} {J K : Nat → World → Prop} {C : World → Prop}

theorem transferBytes_rule (keeps : StreamPhases d n J K C) (processed left : Nat) :
    ∀ (moved : Nat) (t : World), processed + moved + left = n → K (processed + moved) t →
      wp (transferBytes d processed left moved)
        (fun r u => (r.1 = .noError ∧ K n u) ∨
          (r.1 = .incompleteTransfer ∧ r.2 < n ∧ J r.2 u)) C t := by
  induction left with
  | zero =>
      intro moved t all held
      have done : processed + moved = n := by omega
      exact .inl ⟨rfl, done ▸ held⟩
  | succ left ih =>
      intro moved t all held
      have more : processed + moved < n := by omega
      refine wp.bind (((keeps.allowed _ more t held).and
        (endpointIsReadWriteAllowed_found t)).mono (fun _ _ ends => ends) fun _ cut => cut.1)
        fun allowed u ⟨held, open_, shut⟩ => ?_
      rw [wp_ite]
      refine ⟨fun yes => ?_, fun no => ?_⟩
      · refine wp.bind (keeps.transfer _ more u held (open_ yes)) fun _ v held => ?_
        exact ih (moved + 1) v (by omega) (by rwa [← Nat.add_assoc])
      · refine wp.bind (keeps.clear _ more u held (shut (by simpa using no))) fun _ v held => ?_
        exact wp.bind (keeps.task _ more v held) fun _ x held => .inr ⟨rfl, more, held⟩

theorem endpointStream_rule (keeps : StreamPhases d n J K C) {processed : Nat}
    (more : processed < n) (t : World) (held : J processed t) :
    wp (endpointStream d n processed)
      (fun r u => (r.1 = .noError ∧ K n u) ∨ (r.1 = .incompleteTransfer ∧ r.2 < n ∧ J r.2 u) ∨
        (r.1.isError = true ∧ J processed u)) C t := by
  rw [endpointStream, wp_bind, wp_state, wp_bind, note, wp_modify]
  have held := keeps.noted _ _ (.operate d.operation t.usb.selected) held rfl
  refine wp.bind (keeps.ready _ more _ held) fun result u waited => ?_
  obtain ⟨opened, still⟩ := waited
  cases result with
  | noError =>
      refine (transferBytes_rule keeps processed (n - processed) 0 u (by omega)
        (opened rfl)).mono (fun r v ends => ?_) fun _ cut => cut
      rcases ends with done | partly
      · exact .inl done
      · exact .inr (.inl partly)
  | incompleteTransfer => exact .inr (.inl ⟨rfl, more, still (by decide)⟩)
  | _ => exact .inr (.inr ⟨rfl, still (by decide)⟩)

/-- How a retry loop ends: with all bytes moved, or after an error with fewer. -/
def StreamEnds (n : Nat) (J : Nat → World → Prop) (t : World) : Prop :=
  J n t ∨ ∃ p < n, ∃ r u, r.isError = true ∧ J p u ∧ t = { u with log := .stream r :: u.log }

/-- How a retry loop with two phases ends. -/
def PhasesEnd (n : Nat) (J K : Nat → World → Prop) (t : World) : Prop :=
  K n t ∨ ∃ p < n, ∃ r u, r.isError = true ∧ J p u ∧ t = { u with log := .stream r :: u.log }

theorem retryStream_rule (keeps : StreamPhases d n J K C) (calls : Nat) :
    ∀ (processed : Nat) (t : World), processed < n → J processed t →
      wp (retryStream d n calls processed)
        (fun ok u => (ok = true → PhasesEnd n J K u) ∧ (ok = false → ∃ p < n, J p u)) C t := by
  induction calls with
  | zero => exact fun processed t more held => keeps.weaker _ t more.le held
  | succ calls ih =>
      intro processed t more held
      refine wp.bind (endpointStream_rule keeps more t held) fun r u ends => ?_
      simp only [note, wp_bind, wp_modify, wp_ite, wp_state, wp_pure]
      rcases ends with ⟨done, held⟩ | ⟨partly, more, held⟩ | ⟨failed, held⟩
      · rw [done]
        exact ⟨fun partly => absurd partly (by decide), fun _ =>
          ⟨fun _ => .inl (keeps.ended _ held), fun no => absurd no (by decide)⟩⟩
      · rw [partly]
        have noted := keeps.noted _ _ (.stream .incompleteTransfer) held rfl
        refine ⟨fun _ => ⟨fun _ => ⟨fun no => absurd no (by decide), fun _ => ⟨r.2, more, ?_⟩⟩,
          fun _ => ih _ _ more noted⟩, fun other => absurd rfl other⟩
        exact keeps.noted _ _ (.abandon u.vars.curVueState) noted rfl
      · refine ⟨fun partly => ?_, fun _ =>
          ⟨fun _ => .inr ⟨processed, more, r.1, u, failed, held, rfl⟩,
          fun no => absurd no (by decide)⟩⟩
        rw [partly] at failed
        exact absurd failed (by decide)

/-- **The rule for a stream call in its retry loop**, with a statement for each phase. -/
theorem stream_phases (keeps : StreamPhases d n J K C) (some_ : 0 < n) (s : World)
    (held : J 0 s) :
    wp (stream d n)
      (fun ok t => (ok = true → PhasesEnd n J K t) ∧ (ok = false → ∃ p < n, J p t)) C s := by
  rw [stream, wp_bind, wp_state]
  exact retryStream_rule keeps _ 0 s some_ held

/-- **The rule for a stream call in its retry loop.** -/
theorem stream_rule (keeps : StreamKeeps d n J C) (some_ : 0 < n) (s : World) (held : J 0 s) :
    wp (stream d n)
      (fun ok t => (ok = true → StreamEnds n J t) ∧ (ok = false → ∃ p < n, J p t)) C s :=
  stream_phases keeps.phases some_ s held

end Rule

/-! ## Kinds of events -/

def Event.taken : Event → Option Byte
  | .take x => some x
  | _ => none

def Event.given : Event → Option Byte
  | .give x => some x
  | _ => none

/-- A stream call has failed. -/
def Event.failed : Event → Bool
  | .stream r => r.isError
  | _ => false

/-- No stream call has failed. -/
def Sound (log : List Event) : Prop := ∀ e ∈ log, e.failed = false

instance (log : List Event) : Decidable (Sound log) :=
  inferInstanceAs (Decidable (∀ e ∈ log, e.failed = false))

theorem Sound.append {newer older : List Event} :
    Sound (newer ++ older) ↔ Sound newer ∧ Sound older := List.forall_mem_append

/-- Neither a byte moved nor a failure. -/
def Event.Idle (e : Event) : Prop := e.taken = none ∧ e.given = none ∧ e.failed = false

theorem Event.idle_of_control {e : Event} (ok : e.ofControl = true) : e.Idle := by
  cases e with
  | take _ => exact nomatch ok
  | give _ => exact nomatch ok
  | stream _ => exact nomatch ok
  | _ => exact ⟨rfl, rfl, rfl⟩

theorem Event.idle_of_goesOn {e : Event} (ok : e.goesOn = true) : e.Idle := by
  cases e with
  | stream r => exact ⟨rfl, rfl, by simpa [Event.goesOn, Event.failed] using ok⟩
  | operate _ _ => exact ⟨rfl, rfl, rfl⟩
  | abandon _ => exact ⟨rfl, rfl, rfl⟩
  | _ => exact nomatch ok

theorem served_idle {s t : World} (served : Served s t) :
    ∃ new, t.log = new ++ s.log ∧ ∀ e ∈ new, e.Idle := by
  obtain ⟨new, log, all, -⟩ := served.log
  exact ⟨new, log, fun e member => Event.idle_of_control (all e member)⟩

/-! ## Receiving -/

/-- A piece of memory that a stream is stored into, byte by byte. -/
structure Memory (store : Nat → Byte → Vars → Vars) (bytes : Vars → List Byte) : Prop where
  stored : ∀ i x v, bytes (store i x v) = (bytes v).set i x
  apart : ∀ v reset address myBuffer,
    bytes { v with bulkReset := reset, address := address, myBuffer := myBuffer } = bytes v

theorem buffer_memory : Memory storeBuffer fun v => v.bulkBuffer.toList where
  stored i x v := by simp [storeBuffer]
  apart _ _ _ _ := rfl

theorem command_memory : Memory storeCommand fun v => v.curCommand.toBytes.toList where
  stored i x v := by
    by_cases inside : i < 32
    · simp only [storeCommand, VueCommand.toBytes_store inside]
      exact Vector.toList_set inside
    · rw [List.set_eq_of_length_le (by simpa using inside)]
      simp [storeCommand, VueCommand.store, inside]
  apart _ _ _ _ := rfl

/-- Some bytes have been taken from the host into memory. -/
structure Received (bytes : Vars → List Byte) (s : World) (new : List Event)
    (t : World) : Prop where
  log : t.log = new ++ s.log
  memory : bytes t.vars = occurrences Event.taken new ++
    (bytes s.vars).drop (occurrences Event.taken new).length

/-- So many bytes have been taken, without a failure. -/
def Taken (bytes : Vars → List Byte) (s : World) (p : Nat) (t : World) : Prop :=
  ∃ new, Received bytes s new t ∧ (occurrences Event.taken new).length = p ∧ Sound new

theorem Taken.quiet {bytes : Vars → List Byte} {s t u : World} {p : Nat} (held : Taken bytes s p t)
    (more : List Event) (log : u.log = more ++ t.log) (idle : ∀ e ∈ more, e.Idle)
    (memory : bytes u.vars = bytes t.vars) : Taken bytes s p u := by
  obtain ⟨new, received, count, sound⟩ := held
  have same : occurrences Event.taken (more ++ new) = occurrences Event.taken new := by
    rw [occurrences_append, occurrences_eq_nil _ fun e member => (idle e member).1, List.append_nil]
  refine ⟨more ++ new, ⟨by rw [log, received.log, List.append_assoc], ?_⟩, by rw [same, count],
    Sound.append.mpr ⟨fun e member => (idle e member).2.2, sound⟩⟩
  rw [same, memory, received.memory]

theorem set_append_drop {l xs : List Byte} (inside : xs.length < l.length) (x : Byte) :
    (xs ++ l.drop xs.length).set xs.length x = (xs ++ [x]) ++ l.drop (xs ++ [x]).length := by
  rw [List.set_append_right _ _ (le_refl _), Nat.sub_self, List.append_assoc, List.length_append,
    List.drop_eq_getElem_cons inside]
  rfl

/-- One more byte is taken and stored. -/
theorem Taken.next {store : Nat → Byte → Vars → Vars} {bytes : Vars → List Byte}
    (memory : Memory store bytes) {s t : World} {p : Nat} (held : Taken bytes s p t)
    (inside : p < (bytes s.vars).length) (x : Byte) {u : World} (log : u.log = .take x :: t.log)
    (vars : u.vars = store p x t.vars) : Taken bytes s (p + 1) u := by
  obtain ⟨new, received, rfl, sound⟩ := held
  have grown : occurrences Event.taken (.take x :: new) = occurrences Event.taken new ++ [x] :=
    occurrences_cons Event.taken (.take x) new
  refine ⟨.take x :: new, ⟨by rw [log, received.log]; rfl, ?_⟩, by simp [grown],
    fun e member => ?_⟩
  · rw [grown, vars, memory.stored, received.memory, set_append_drop inside]
  · rcases List.mem_cons.mp member with rfl | old
    · rfl
    · exact sound e old

/-- What is known when a run is cut while it receives. -/
def Reception (bytes : Vars → List Byte) (n : Nat) (s t : World) : Prop :=
  ∃ p ≤ n, Taken bytes s p t

theorem receiving_keeps {store : Nat → Byte → Vars → Vars} {bytes : Vars → List Byte}
    (memory : Memory store bytes) (s : World) {n : Nat} (fits : n ≤ (bytes s.vars).length) :
    StreamKeeps (readStream store) n
      (fun p t => Taken bytes s p t ∧ t.At vueCartReaderOutEpAddr) (Reception bytes n s) := by
  have kept {α : Type} {m : Fw α} (served : Moves Served m)
      (selected : Stays (World.At vueCartReaderOutEpAddr) Anywhere m) {p : Nat} (less : p < n) :
      Stays (fun t => Taken bytes s p t ∧ t.At vueCartReaderOutEpAddr) (Reception bytes n s) m := by
    intro t ⟨held, at_⟩
    have quiet {u : World} (moved : Served t u) : Taken bytes s p u := by
      obtain ⟨more, log, idle⟩ := served_idle moved
      obtain ⟨_, _, _, vars⟩ := moved.vars
      exact held.quiet more log idle (by rw [vars, memory.apart])
    exact ((served t).and (selected t at_)).mono (fun _ u ends => ⟨quiet ends.1, ends.2⟩)
      fun u cut => ⟨p, less.le, quiet cut.1⟩
  have framed {α : Type} {m : Fw α} (framed : Moves (Framed OfUsb) m) := served_of_framed framed
  refine
    { weaker := fun p t less held => ⟨p, less, held.1⟩
      noted := fun p t e held ok => ⟨held.1.quiet [e] rfl
        (fun _ member => by rw [List.mem_singleton.mp member]; exact Event.idle_of_goesOn ok) rfl,
          held.2⟩
      ready :=
        fun p less => kept (framed endpointWaitUntilReady_framed) endpointWaitUntilReady_at less
      allowed := fun p less =>
        kept (framed endpointIsReadWriteAllowed_framed) endpointIsReadWriteAllowed_at less
      transfer := fun p less t held open_ => ?_
      clear := fun p less t held _ =>
        kept (framed (endpointClearOut_framed .task)) (endpointClearOut_at .task) less t held
      task := fun p less => kept usbUsbTask_served usbUsbTask_at less }
  -- the bank that allows access is the OUT bank, and holds a byte
  obtain ⟨x, rest, bank⟩ : ∃ x rest, t.usb.outBank = some (x :: rest) := by
    have selected : t.usb.selected = vueCartReaderOutEpAddr := by
      rcases held.2 with out | control
      · exact out
      · simp [Usb.readWriteAllowed, control] at open_
    simp only [Usb.readWriteAllowed, selected, if_true, Bool.and_eq_true, bne_iff_ne,
      ne_eq] at open_
    cases bank : t.usb.outBank with
    | none => simp [bank] at open_
    | some data =>
        cases data with
        | nil => simp [bank] at open_
        | cons x rest => exact ⟨x, rest, rfl⟩
  show wp (endpointRead8 >>= fun x => onVars (store p x)) _ _ t
  rw [endpointRead8, wp_bind, wp_bind, wp_state, bank]
  simp only [onUsb, note, onVars, wp_bind, wp_modify, wp_pure]
  exact ⟨held.1.next memory (by omega) x rfl rfl, held.2⟩

/-- The end of a stream: all bytes and no failure, or a failure and fewer bytes. -/
def Ended (n moved : Nat) (new : List Event) : Prop :=
  (Sound new ∧ moved = n) ∨ (¬ Sound new ∧ moved < n)

/-- **Receiving.** The loop stores the bytes it takes, in order, from the first on; it
has taken all of them, or it has failed or been abandoned. -/
theorem readStream_spec {store : Nat → Byte → Vars → Vars} {bytes : Vars → List Byte}
    (memory : Memory store bytes) {n : Nat} (some_ : 0 < n) {s : World}
    (at_ : s.At vueCartReaderOutEpAddr) (fits : n ≤ (bytes s.vars).length) :
    wp (stream (readStream store) n)
      (fun ok t => ∃ new, Received bytes s new t ∧
        (ok = true → Ended n (occurrences Event.taken new).length new) ∧
        (ok = false → Sound new ∧ (occurrences Event.taken new).length < n))
      (Reception bytes n s) s := by
  have start : Taken bytes s 0 s := ⟨[], ⟨rfl, by simp⟩, rfl, List.forall_mem_nil _⟩
  refine (stream_rule (receiving_keeps memory s fits) some_ s ⟨start, at_⟩).mono
    (fun ok t ends => ?_) fun _ cut => cut
  obtain ⟨done, abandoned⟩ := ends
  cases ok with
  | false =>
      obtain ⟨p, less, ⟨new, received, count, sound⟩, -⟩ := abandoned rfl
      exact ⟨new, received, nofun, fun _ => ⟨sound, by omega⟩⟩
  | true =>
      rcases done rfl with ⟨⟨new, received, count, sound⟩, -⟩ | ⟨p, less, r, u, error, held, rfl⟩
      · exact ⟨new, received, fun _ => .inl ⟨sound, count⟩, nofun⟩
      · obtain ⟨⟨new, received, count, -⟩, -⟩ := held
        have same : occurrences Event.taken (.stream r :: new) = occurrences Event.taken new := by
          simp [occurrences_cons, Event.taken]
        refine ⟨.stream r :: new, ⟨by rw [received.log]; rfl, by rw [same]; exact received.memory⟩,
          fun _ => .inr ⟨fun sound => ?_, by rw [same]; omega⟩, nofun⟩
        exact absurd ((sound _ (List.mem_cons_self ..)).symm.trans error) nofun

/-! ## Sending -/

/-- So many bytes of the buffer have been given, without a failure. -/
def Given (s : World) (p : Nat) (t : World) : Prop :=
  ∃ new, t.log = new ++ s.log ∧ t.vars.bulkBuffer = s.vars.bulkBuffer ∧
    occurrences Event.given new = s.vars.bulkBuffer.toList.take p ∧ Sound new

theorem Given.quiet {s t u : World} {p : Nat} (held : Given s p t) (more : List Event)
    (log : u.log = more ++ t.log) (idle : ∀ e ∈ more, e.Idle)
    (buffer : u.vars.bulkBuffer = t.vars.bulkBuffer) : Given s p u := by
  obtain ⟨new, before, same, given, sound⟩ := held
  refine ⟨more ++ new, by rw [log, before, List.append_assoc], buffer.trans same, ?_,
    Sound.append.mpr ⟨fun e member => (idle e member).2.2, sound⟩⟩
  rw [occurrences_append, given, occurrences_eq_nil _ fun e member => (idle e member).2.1,
    List.append_nil]

/-- One more byte of the buffer is given. -/
theorem Given.next {s t : World} {p : Nat} (held : Given s p t) (inside : p < 64) {u : World}
    (log : u.log = .give (loadBuffer p t.vars) :: t.log) (vars : u.vars = t.vars) :
    Given s (p + 1) u := by
  obtain ⟨new, before, same, given, sound⟩ := held
  refine ⟨.give (loadBuffer p t.vars) :: new, by rw [log, before]; rfl, by rw [vars, same], ?_,
    fun e member => ?_⟩
  · have loaded : loadBuffer p t.vars = s.vars.bulkBuffer[p] := by
      rw [loadBuffer, same]
      simp [inside]
    rw [occurrences_cons, given, loaded, List.take_succ_eq_append_getElem (by simpa using inside)]
    rfl
  · rcases List.mem_cons.mp member with rfl | old
    · rfl
    · exact sound e old

theorem giving_keeps (s : World) {n : Nat} (fits : n ≤ 64) :
    StreamKeeps (writeStream loadBuffer) n (Given s) (fun t => ∃ p ≤ n, Given s p t) := by
  have kept {α : Type} {m : Fw α} (served : Moves Served m) {p : Nat} (less : p < n) :
      Stays (Given s p) (fun t => ∃ p ≤ n, Given s p t) m := by
    intro t held
    have quiet {u : World} (moved : Served t u) : Given s p u := by
      obtain ⟨more, log, idle⟩ := served_idle moved
      obtain ⟨_, _, _, vars⟩ := moved.vars
      exact held.quiet more log idle (by rw [vars])
    exact (served t).mono (fun _ u moved => quiet moved) fun u moved => ⟨p, less.le, quiet moved⟩
  exact
    { weaker := fun p t less held => ⟨p, less, held⟩
      noted := fun p t e held ok => held.quiet [e] rfl
        (fun _ member => by rw [List.mem_singleton.mp member]; exact Event.idle_of_goesOn ok) rfl
      ready := fun p less => kept (served_of_framed endpointWaitUntilReady_framed) less
      allowed := fun p less => kept (served_of_framed endpointIsReadWriteAllowed_framed) less
      transfer := fun p less t held _ => held.next (by omega) rfl rfl
      clear := fun p less t held _ => kept (served_of_framed endpointClearIn_framed) less t held
      task := fun p less => kept usbUsbTask_served less }

/-- **Sending.** The loop gives the bytes of the buffer, in order, from the first on; it
has given all of them, or it has failed or been abandoned. -/
theorem writeStream_spec {n : Nat} (some_ : 0 < n) (fits : n ≤ 64) (s : World) :
    wp (stream (writeStream loadBuffer) n)
      (fun ok t => ∃ new p, t.log = new ++ s.log ∧ t.vars.bulkBuffer = s.vars.bulkBuffer ∧
        occurrences Event.given new = s.vars.bulkBuffer.toList.take p ∧
        (ok = true → Ended n p new) ∧ (ok = false → Sound new ∧ p < n))
      (fun t => ∃ p ≤ n, Given s p t) s := by
  have start : Given s 0 s := ⟨[], rfl, rfl, by simp, List.forall_mem_nil _⟩
  refine (stream_rule (giving_keeps s fits) some_ s start).mono (fun ok t ends => ?_)
    fun _ cut => cut
  obtain ⟨done, abandoned⟩ := ends
  cases ok with
  | false =>
      obtain ⟨p, less, new, log, buffer, given, sound⟩ := abandoned rfl
      exact ⟨new, p, log, buffer, given, nofun, fun _ => ⟨sound, less⟩⟩
  | true =>
      rcases done rfl with ⟨new, log, buffer, given, sound⟩ | ⟨p, less, r, u, error, held, rfl⟩
      · exact ⟨new, n, log, buffer, given, fun _ => .inl ⟨sound, rfl⟩, nofun⟩
      · obtain ⟨new, log, buffer, given, -⟩ := held
        refine ⟨.stream r :: new, p, by rw [log]; rfl, buffer, ?_, fun _ => .inr ⟨fun sound => ?_,
          less⟩, nofun⟩
        · rw [← given]
          simp [occurrences_cons, Event.given]
        · exact absurd ((sound _ (List.mem_cons_self ..)).symm.trans error) nofun

end VueCartReader
