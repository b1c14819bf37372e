import VueCartReader.Device.Serene
import VueCartReader.Transfer.Marks
import VueCartReader.Transfer.Sending

/-!
# The packets of a read

A read of `n` bytes is to be sent in packets of 64 bytes, with one shorter packet at the end
when 64 does not divide `n` (`packetSizes`). Every poll commits what it has written, so that
between two polls the IN bank holds nothing that is not committed (`Paced`).

After the last chunk the bank is committed twice: by `VUE_BulkRead_Task`, and again by
`VUE_Task`, which has looked at the bank and found it busy. The second time nothing happens,
unless the host collects the packet in between: then the bank is free and empty when it is
committed, and an empty packet follows the read. The packets are right in every run in which the
host does not do that (`Unraced`).
-/

set_option autoImplicit false

namespace VueCartReader

open Program

/-! ## The sizes of packets -/

/-- The sizes of the packets that carry so many bytes. -/
def packetSizes (n : Nat) : List Nat :=
  List.replicate (n / 64) 64 ++ if n % 64 = 0 then [] else [n % 64]

theorem packetSizes_of_whole {n : Nat} (whole : 64 ∣ n) :
    packetSizes n = List.replicate (n / 64) 64 := by
  rw [packetSizes, if_pos (Nat.mod_eq_zero_of_dvd whole), List.append_nil]

/-- Full packets are followed by one more packet. -/
theorem packetSizes_add {n k : Nat} (whole : 64 ∣ n) (some_ : 0 < k) (fits : k ≤ 64) :
    packetSizes (n + k) = packetSizes n ++ [k] := by
  rw [packetSizes_of_whole whole]
  rcases Nat.lt_or_eq_of_le fits with less | rfl
  · have quotient : (n + k) / 64 = n / 64 := by omega
    have rest : (n + k) % 64 = k := by omega
    rw [packetSizes, quotient, rest, if_neg (by omega)]
  · have quotient : (n + 64) / 64 = n / 64 + 1 := by omega
    rw [packetSizes_of_whole (by omega), quotient, List.replicate_succ']

/-- Full packets are a beginning of the packets of more bytes. -/
theorem packetSizes_prefix {m n : Nat} (whole : 64 ∣ m) (le : m ≤ n) :
    packetSizes m <+: packetSizes n := by
  have more : n / 64 = m / 64 + (n / 64 - m / 64) := by omega
  rw [packetSizes_of_whole whole, packetSizes, more, List.replicate_add, List.append_assoc]
  exact List.prefix_append _ _

/-! ## The packets of a command -/

/-- The packets since the last command are a beginning of those that carry so many bytes. -/
structure Emitting (n : Nat) (log : List Event) : Prop where
  sizes : (commitsOf (sinceAccept log)).map List.length <+: packetSizes n
  bytes : deliveredOf (sinceAccept log) <+: givesOf (sinceAccept log)

/-- The packets since the last command carry so many bytes: all that have been written into the
bank since then, and no others. -/
structure Emitted (n : Nat) (log : List Event) : Prop where
  sizes : (commitsOf (sinceAccept log)).map List.length = packetSizes n
  bytes : deliveredOf (sinceAccept log) = givesOf (sinceAccept log)

/-- No empty packet is committed, the packets of a read come as they are to, and when the next
command is accepted they have all come. -/
structure Parcelled (e : Event) (past : List Event) : Prop where
  nonempty : e.committed ≠ some []
  order : ∀ c, acceptedCommand (e :: past) = some c → c.task = .read →
    Emitting c.length.toNat (e :: past)
  whole : ∀ d, e.accepted = some d → ∀ c, acceptedCommand past = some c → c.task = .read →
    Emitted c.length.toNat past

/-- What a log says of the last command, if anything, is what it says after an event that
neither accepts a command nor sends. -/
theorem Emitting.unsent {n : Nat} {e : Event} {log : List Event} (unsent : e.Unsent)
    (held : Emitting n log) : Emitting n (e :: log) := by
  have since : sinceAccept (e :: log) = e :: sinceAccept log := sinceAccept_cons unsent.accepted log
  have commits : commitsOf (e :: sinceAccept log) = commitsOf (sinceAccept log) := by
    rw [commitsOf, occurrences_cons, unsent.committed]
    exact List.append_nil _
  have gives : givesOf (e :: sinceAccept log) = givesOf (sinceAccept log) := by
    rw [givesOf, occurrences_cons, unsent.given]
    exact List.append_nil _
  refine ⟨?_, ?_⟩
  · rw [since, commits]
    exact held.sizes
  · rw [since, deliveredOf, commits, gives]
    exact held.bytes

theorem emitting_of_history {log : List Event} (history : History Parcelled log) {c : VueCommand}
    (accepted : acceptedCommand log = some c) (reads : c.task = .read) :
    Emitting c.length.toNat log := by
  cases log with
  | nil => cases accepted
  | cons e past => exact history.1.order c accepted reads

theorem parcelled_unsent {log new : List Event} (history : History Parcelled log)
    (unsent : ∀ e ∈ new, e.Unsent) : History Parcelled (new ++ log) := by
  induction new with
  | nil => exact history
  | cons e new ih =>
      have rest := ih fun f member => unsent f (List.mem_cons_of_mem _ member)
      have here := unsent e (List.mem_cons_self ..)
      refine ⟨⟨?_, fun c accepted reads => ?_, fun d accepts => ?_⟩, rest⟩
      · rw [here.committed]
        exact (Option.some_ne_none _).symm
      · rw [acceptedCommand_cons here.accepted] at accepted
        exact (emitting_of_history rest accepted reads).unsent here
      · cases here.accepted.symm.trans accepts

/-! ## Runs from some log on -/

/-- Since the log `base` the packets have come as they are to; those of the last command carry
`n` bytes, and what has been written since then and is not committed is in the bank. -/
def Emission (base : List Event) (n : VueCommand → Nat) (w : World) : Prop :=
  ∃ mid, w.log = mid ++ base ∧ History Parcelled mid ∧
    ∀ c, acceptedCommand mid = some c → c.task = .read →
      (commitsOf (sinceAccept mid)).map List.length = packetSizes (n c) ∧
      deliveredOf (sinceAccept mid) ++ w.usb.uncommitted = givesOf (sinceAccept mid)

/-- What is known of a run wherever it is cut. -/
def Parcels (base : List Event) (w : World) : Prop :=
  ∃ mid, w.log = mid ++ base ∧ History Parcelled mid

theorem acceptedCommand_extend {mid base : List Event} {c : VueCommand}
    (accepted : acceptedCommand mid = some c) : acceptedCommand (mid ++ base) = some c := by
  rw [acceptedCommand, List.findSome?_append, ← acceptedCommand, accepted]
  rfl

section Emission

variable {base : List Event} {n n' : VueCommand → Nat} {s t : World}

theorem Emission.parcels (held : Emission base n s) : Parcels base s := by
  obtain ⟨mid, log, history, -⟩ := held
  exact ⟨mid, log, history⟩

theorem Parcels.unsent (held : Parcels base s) (unsent : Logs Event.Unsent s t) :
    Parcels base t := by
  obtain ⟨mid, log, history⟩ := held
  obtain ⟨new, grown, all⟩ := unsent
  exact ⟨new ++ mid, by rw [grown, log, List.append_assoc], parcelled_unsent history all⟩

/-- Nothing is accepted or sent. -/
theorem Emission.unsent (held : Emission base n s) (unsent : Logs Event.Unsent s t)
    (bank : t.usb.uncommitted = s.usb.uncommitted)
    (count : ∀ c, acceptedCommand s.log = some c → c.task = .read → n' c = n c) :
    Emission base n' t := by
  obtain ⟨mid, log, history, state⟩ := held
  obtain ⟨new, grown, all⟩ := unsent
  have none_ : ∀ e ∈ new, e.accepted = none := fun e member => (all e member).accepted
  refine ⟨new ++ mid, by rw [grown, log, List.append_assoc], parcelled_unsent history all,
    fun c accepted reads => ?_⟩
  rw [acceptedCommand_append none_] at accepted
  obtain ⟨sizes, bytes⟩ := state c accepted reads
  have commits : commitsOf (new ++ sinceAccept mid) = commitsOf (sinceAccept mid) := by
    rw [commitsOf, occurrences_append, occurrences_eq_nil _ fun e member =>
      (all e member).committed,
      List.append_nil]
  have gives : givesOf (new ++ sinceAccept mid) = givesOf (sinceAccept mid) := by
    rw [givesOf, occurrences_append, occurrences_eq_nil _ fun e member => (all e member).given,
      List.append_nil]
  rw [sinceAccept_append none_, deliveredOf, commits, gives, bank,
    count c (by rw [log]; exact acceptedCommand_extend accepted) reads]
  exact ⟨sizes, bytes⟩

/-- A byte is written into the free bank. -/
theorem Emission.give (held : Emission base n s) {x : Byte} (log : t.log = .give x :: s.log)
    (bank : t.usb.uncommitted = s.usb.uncommitted ++ [x]) : Emission base n t := by
  obtain ⟨mid, before, history, state⟩ := held
  have commits : commitsOf (.give x :: sinceAccept mid) = commitsOf (sinceAccept mid) := by
    rw [commitsOf, occurrences_cons]
    exact List.append_nil _
  have gives : givesOf (.give x :: sinceAccept mid) = givesOf (sinceAccept mid) ++ [x] := by
    rw [givesOf, occurrences_cons]
    rfl
  have since : sinceAccept (.give x :: mid) = .give x :: sinceAccept mid := sinceAccept_cons rfl mid
  have order (c : VueCommand) (accepted : acceptedCommand (.give x :: mid) = some c)
      (reads : c.task = .read) : Emitting c.length.toNat (.give x :: mid) := by
    have old := emitting_of_history history accepted reads
    refine ⟨?_, ?_⟩
    · rw [since, commits]
      exact old.sizes
    · rw [since, deliveredOf, commits, gives]
      exact old.bytes.trans (List.prefix_append _ _)
  refine ⟨.give x :: mid, by rw [log, before]; rfl,
    ⟨⟨(Option.some_ne_none _).symm, order, fun d accepts => by cases accepts⟩, history⟩,
    fun c accepted reads => ?_⟩
  obtain ⟨sizes, bytes⟩ := state c accepted reads
  rw [since, deliveredOf, commits, gives, bank, ← List.append_assoc, ← deliveredOf, bytes]
  exact ⟨sizes, rfl⟩

/-- The bank is committed: a full packet, or the last one. -/
theorem Emission.commit (held : Emission base n s) (free : s.usb.inBusy = false)
    (some_ : 0 < s.usb.inBank.length) (fits : s.usb.inBank.length ≤ 64)
    (log : t.log = .commit s.usb.inBank :: s.log) (busy : t.usb.inBusy = true)
    (count : ∀ c, acceptedCommand s.log = some c → c.task = .read →
      64 ∣ n c ∧ n' c = n c + s.usb.inBank.length ∧
        (64 ∣ n' c ∧ n' c ≤ c.length.toNat ∨ n' c = c.length.toNat)) :
    Emission base n' t := by
  obtain ⟨mid, before, history, state⟩ := held
  have bank : s.usb.uncommitted = s.usb.inBank := by
    rw [Usb.uncommitted, free]
    rfl
  have empty : t.usb.uncommitted = [] := by
    rw [Usb.uncommitted, busy]
    rfl
  obtain ⟨data, same⟩ : ∃ data, data = s.usb.inBank := ⟨_, rfl⟩
  rw [← same] at some_ fits log count bank
  have commits : commitsOf (.commit data :: sinceAccept mid) =
      commitsOf (sinceAccept mid) ++ [data] := by
    rw [commitsOf, occurrences_cons]
    rfl
  have gives : givesOf (.commit data :: sinceAccept mid) = givesOf (sinceAccept mid) := by
    rw [givesOf, occurrences_cons]
    exact List.append_nil _
  have since : sinceAccept (.commit data :: mid) = .commit data :: sinceAccept mid :=
    sinceAccept_cons rfl mid
  have after (c : VueCommand) (accepted : acceptedCommand (.commit data :: mid) = some c)
      (reads : c.task = .read) :
      (commitsOf (sinceAccept (.commit data :: mid))).map List.length = packetSizes (n' c) ∧
        deliveredOf (sinceAccept (.commit data :: mid)) =
          givesOf (sinceAccept (.commit data :: mid)) := by
    obtain ⟨sizes, bytes⟩ := state c accepted reads
    obtain ⟨whole, sum, -⟩ := count c (by rw [before]; exact acceptedCommand_extend accepted) reads
    rw [since, deliveredOf, commits, gives, List.map_append, sizes, sum,
      packetSizes_add whole some_ fits, List.flatten_append, ← deliveredOf, ← bytes, bank]
    exact ⟨rfl, congrArg _ List.flatten_singleton⟩
  refine ⟨.commit data :: mid, by rw [log, before]; rfl,
    ⟨⟨fun none_ => ?_, fun c accepted reads => ?_, fun d accepts => by cases accepts⟩, history⟩,
    fun c accepted reads => ?_⟩
  · rw [Option.some.inj none_] at some_
    cases some_
  · obtain ⟨sizes, bytes⟩ := after c accepted reads
    obtain ⟨-, -, ends⟩ := count c (by rw [before]; exact acceptedCommand_extend accepted) reads
    refine ⟨?_, by rw [bytes]⟩
    rw [sizes]
    rcases ends with ⟨whole, le⟩ | all
    · exact packetSizes_prefix whole le
    · rw [all]
  · rw [empty, List.append_nil]
    exact after c accepted reads

/-- A command is accepted when all packets of the one before have come. -/
theorem Emission.accept (held : Emission base n s) (empty : s.usb.uncommitted = [])
    (whole : ∀ c, acceptedCommand s.log = some c → c.task = .read → n c = c.length.toNat)
    {d : VueCommand} (log : t.log = .accept d :: s.log) (usb : t.usb = s.usb)
    (count : d.task = .read → n' d = 0) : Emission base n' t := by
  obtain ⟨mid, before, history, state⟩ := held
  have since : sinceAccept (.accept d :: mid) = [] :=
    sinceAccept_accept (List.forall_mem_nil _) d mid
  refine ⟨.accept d :: mid, by rw [log, before]; rfl,
    ⟨⟨(Option.some_ne_none _).symm, fun c _ _ => ?_, fun _ _ c accepted reads => ?_⟩, history⟩,
    fun c accepted reads => ?_⟩
  · refine ⟨?_, ?_⟩
    · rw [since]
      exact List.nil_prefix
    · rw [since]
      exact List.nil_prefix
  · obtain ⟨sizes, bytes⟩ := state c accepted reads
    rw [whole c (by rw [before]; exact acceptedCommand_extend accepted) reads] at sizes
    rw [empty, List.append_nil] at bytes
    exact ⟨sizes, bytes⟩
  · obtain rfl : d = c := Option.some.inj accepted
    rw [since, usb, empty, count reads]
    exact ⟨rfl, rfl⟩

end Emission

/-! ## Between two polls -/

/-- The bytes of a command that have been moved, in the state the firmware is in. -/
def VueCommand.emitted (c : VueCommand) (w : World) : Nat :=
  if w.vars.curVueState = .read then c.moved w else c.length.toNat

/-- The packets have come for all bytes that have been moved, and the bank holds no others. -/
structure Paced (base : List Event) (w : World) : Prop where
  emission : Emission base (fun c => c.emitted w) w
  committed : w.usb.uncommitted = []

/-- A chunk is being written into the free bank, of which so many bytes are there. -/
structure Filling (base : List Event) (n : VueCommand → Nat) (bytes : Nat) (w : World) : Prop where
  serene : Serene vueCartReaderInEpAddr w
  free : w.usb.inBusy = false
  length : w.usb.inBank.length = bytes
  emission : Emission base n w

theorem Spares.accepted {s t : World} (spares : Spares s t) :
    acceptedCommand s.log = acceptedCommand t.log := by
  obtain ⟨new, log, all⟩ := spares.empty.log
  rw [log, acceptedCommand_append fun e member => (all e member).accepted]

theorem uncommitted_of_free {u : Usb} (free : u.inBusy = false) : u.uncommitted = u.inBank := by
  rw [Usb.uncommitted, free]
  rfl

theorem KeepsFree.uncommitted {s t : World} (kept : KeepsFree s t) (free : s.usb.inBusy = false) :
    t.usb.uncommitted = s.usb.uncommitted := by
  obtain ⟨still, same⟩ := kept free
  rw [uncommitted_of_free still, uncommitted_of_free free, same]

section Chunk

variable {base : List Event} {n : VueCommand → Nat} {bytes : Nat} {s t : World}

/-- Code that does not touch the USB side. -/
theorem Filling.unsent (held : Filling base n bytes s) (unsent : Logs Event.Unsent s t)
    (script : t.script = s.script) (setups : t.setups = s.setups)
    (reset : t.vars.bulkReset = s.vars.bulkReset) (usb : t.usb = s.usb) :
    Filling base n bytes t where
  serene := held.serene.congr script setups reset (by rw [usb]) (by rw [usb])
  free := by
    rw [usb]
    exact held.free
  length := by
    rw [usb]
    exact held.length
  emission := held.emission.unsent unsent (by rw [usb]) fun _ _ _ => rfl

/-- A look at the hardware. -/
theorem Filling.look {α : Type} {m : Fw α} {Q : α → World → Prop} (held : Filling base n bytes s)
    (spares : Moves Spares m)
    (looks : wp m (fun a t => Serene vueCartReaderInEpAddr t ∧ KeepsFree s t ∧ Q a t) Anywhere s) :
    wp m (fun a t => Filling base n bytes t ∧ Q a t) (Parcels base) s := by
  refine ((spares s).and looks).mono (fun a t ends => ?_) fun t cut =>
    held.emission.parcels.unsent cut.1.empty.log
  obtain ⟨spares, serene, kept, found⟩ := ends
  obtain ⟨free, same⟩ := kept held.free
  refine ⟨⟨serene, free, by rw [same]; exact held.length, ?_⟩, found⟩
  exact held.emission.unsent spares.empty.log (kept.uncommitted held.free) fun _ _ _ => rfl

/-- A byte goes into the bank. -/
theorem Filling.write (held : Filling base n bytes s) (x : Byte) :
    wp (endpointWrite8 x) (fun _ t => Filling base n (bytes + 1) t) (Parcels base) s := by
  rw [endpointWrite8, onUsb, note, wp_bind, wp_modify, wp_modify]
  refine ⟨held.serene.congr rfl rfl rfl rfl rfl, held.free, ?_, held.emission.give rfl ?_⟩
  · show (s.usb.inBank ++ [x]).length = bytes + 1
    rw [List.length_append, held.length]
    rfl
  · have free : Usb.inBusy { s.usb with inBank := s.usb.inBank ++ [x] } = false := held.free
    rw [uncommitted_of_free held.free]
    exact uncommitted_of_free free

/-- A bank that is not full takes all bytes of a chunk. -/
theorem transferBytes_fills (load : Nat → Vars → Byte) (processed left : Nat) :
    ∀ (moved : Nat) (s : World), processed + moved + left ≤ 64 →
      Filling base n (processed + moved) s →
      wp (transferBytes (writeStream load) processed left moved)
        (fun r t => r.1 = .noError ∧ Filling base n (processed + moved + left) t) (Parcels base)
        s := by
  induction left with
  | zero => exact fun moved s _ held => ⟨rfl, held⟩
  | succ left ih =>
      intro moved s fits held
      have looked := held.look endpointIsReadWriteAllowed_spares
        (endpointIsReadWriteAllowed_looks held.serene)
      refine looked.bind fun allowed t ends => ?_
      obtain ⟨held, found⟩ := ends
      have room : t.usb.inBank.length < vueCartReaderEpSize := by
        rw [held.length]
        exact Nat.lt_of_lt_of_le (by omega) fits
      rw [held.free, decide_eq_true room] at found
      replace found : allowed = true := found
      rw [if_pos found]
      have written : wp ((writeStream load).transferByte (processed + moved))
          (fun _ u => Filling base n (processed + moved + 1) u) (Parcels base) t := by
        show wp (state >>= fun w : World => endpointWrite8 (load (processed + moved) w.vars)) _ _ t
        rw [wp_bind, wp_state]
        exact held.write _
      refine written.bind fun _ u held => ?_
      have rest := ih (moved + 1) u (by omega) held
      rwa [show processed + moved + (left + 1) = processed + (moved + 1) + left by omega]

/-- **A chunk goes into a free, empty bank in one call.** -/
theorem writeStream_fills (load : Nat → Vars → Byte) {length : Nat} (fits : length ≤ 64)
    (held : Filling base n 0 s) :
    wp (stream (writeStream load) length)
      (fun ok t => ok = true ∧ Filling base n length t) (Parcels base) s := by
  have noted {e : Event} {bytes : Nat} {s : World} (held : Filling base n bytes s)
      (unsent : e.Unsent) : Filling base n bytes { s with log := e :: s.log } :=
    held.unsent (.one rfl unsent) rfl rfl rfl rfl
  have call : wp (endpointStream (writeStream load) length 0)
      (fun r t => r.1 = .noError ∧ Filling base n length t) (Parcels base) s := by
    rw [endpointStream, wp_bind, wp_state, note, wp_bind, wp_modify]
    have begun := noted held (e := .operate .writeStream s.usb.selected) ⟨rfl, rfl, rfl⟩
    have waited := begun.look endpointWaitUntilReady_spares
      ((endpointWaitUntilReady_looks begun.serene begun.free).mono
        (fun r t ends => ⟨ends.2.1, fun _ => ends.2.2, ends.1⟩) fun _ cut => cut)
    refine waited.bind fun result t ends => ?_
    obtain ⟨held, rfl⟩ := ends
    have moved := transferBytes_fills load 0 length 0 t (by omega) held
    rwa [Nat.zero_add] at moved
  rw [stream, wp_bind, wp_state, retryStream, wp_bind]
  refine call.mono (fun r t ends => ?_) fun _ cut => cut
  obtain ⟨result, progress⟩ := r
  obtain ⟨rfl, held⟩ := ends
  dsimp only
  rw [note, wp_bind, wp_modify, if_neg (by decide)]
  exact ⟨rfl, noted held ⟨rfl, rfl, rfl⟩⟩

/-- ClearIN on a bank with some bytes sends them. -/
theorem Filling.clear (n' : VueCommand → Nat) (held : Filling base n bytes s) (some_ : 0 < bytes)
    (fits : bytes ≤ 64)
    (count : ∀ c, acceptedCommand s.log = some c → c.task = .read →
      64 ∣ n c ∧ n' c = n c + bytes ∧
        (64 ∣ n' c ∧ n' c ≤ c.length.toNat ∨ n' c = c.length.toNat)) :
    wp taskClearIn (fun _ t => Emission base n' t ∧ t.usb.uncommitted = [] ∧
      Serene vueCartReaderInEpAddr t) (Parcels base) s := by
  rw [taskClearIn, wp_bind, wp_state, note, wp_bind, wp_modify]
  have noted : Filling base n bytes { s with log := .operate .clearIn s.usb.selected :: s.log } :=
    held.unsent (.one rfl ⟨rfl, rfl, rfl⟩) rfl rfl rfl rfl
  have looked : wp moment (fun _ t => Filling base n bytes t ∧ True) (Parcels base)
      { s with log := .operate .clearIn s.usb.selected :: s.log } :=
    noted.look moment_spares ((moment_looks noted.serene).mono
      (fun m t ends => ⟨ends.2.1, ends.2.2, trivial⟩) fun _ cut => cut)
  refine wp.bind ((looked.and (moment_spares _)).mono (fun _ _ ends => ends) fun _ cut => cut.1)
    fun m t ends => ?_
  obtain ⟨⟨held, -⟩, spares⟩ := ends
  have commits : (decide (t.usb.selected = vueCartReaderInEpAddr) && !t.usb.inBusy) = true := by
    rw [held.serene.selected, held.free]
    rfl
  rw [wp_modify, if_pos commits]
  refine ⟨?_, rfl, held.serene.congr rfl rfl rfl rfl rfl⟩
  refine held.emission.commit held.free (by rw [held.length]; exact some_)
    (by rw [held.length]; exact fits) rfl rfl fun c accepted reads => ?_
  rw [held.length]
  refine count c ?_ reads
  rw [← spares.accepted] at accepted
  exact accepted

end Chunk

/-! ## A poll that reads -/

/-- A full chunk is in the bank, and more is to come. -/
structure Chunked (base : List Event) (n : VueCommand → Nat) (w : World) : Prop where
  filling : Filling base n 64 w
  reading : w.vars.curVueState = .read
  count : ∀ c, acceptedCommand w.log = some c → c.task = .read →
    64 ∣ n c ∧ c.moved w = n c + 64 ∧ 64 ∣ c.moved w ∧ c.moved w ≤ c.length.toNat

/-- Work on the bus sends nothing. -/
theorem Works.unsent {s t : World} (works : Works s t) : Logs Event.Unsent s t :=
  works.spares.empty.log

section Poll

variable {base : List Event} {n : VueCommand → Nat} {bytes : Nat} {s t : World}

theorem finishRead_paced (held : Filling base n bytes s) (some_ : 0 < bytes) (fits : bytes ≤ 64)
    (count : ∀ c, acceptedCommand s.log = some c → c.task = .read →
      64 ∣ n c ∧ c.length.toNat = n c + bytes) :
    wp finishRead (fun _ t => Paced base t ∧ Serene vueCartReaderInEpAddr t) (Parcels base) s := by
  obtain ⟨t, eq⟩ : ∃ t, deselect s = .value () t := ⟨_, deselect_eq s⟩
  have parts : t.script = s.script ∧ t.setups = s.setups := by
    rw [deselect_eq] at eq
    cases eq
    exact ⟨rfl, rfl⟩
  have works := deselect_works s
  rw [wp_of_value eq] at works
  have held := held.unsent works.unsent parts.1 parts.2 works.reset works.usb
  rw [finishRead, wp_bind, wp_of_value eq, wp_bind]
  refine (held.clear (fun c => c.length.toNat) some_ fits fun c accepted reads => ?_).mono
    (fun _ u ends => ?_) fun _ cut => cut
  · rw [← works.spares.accepted] at accepted
    obtain ⟨whole, sum⟩ := count c accepted reads
    exact ⟨whole, sum, .inr rfl⟩
  · obtain ⟨emission, empty, serene⟩ := ends
    have other : FsmState.idle ≠ .read := by decide
    exact ⟨⟨emission.unsent (.none rfl) rfl fun c _ _ => if_neg other, empty⟩,
      serene.congr rfl rfl rfl rfl rfl⟩

/-- **A poll in state READ** fills the bank with a chunk, and commits it if it is the last. -/
theorem vueBulkReadTask_paced (machine : Machine s) (reading : s.vars.curVueState = .read)
    (held : Filling base (fun c => c.moved s) 0 s) :
    wp vueBulkReadTask
      (fun _ t => Chunked base (fun c => c.moved s) t ∨
        (Paced base t ∧ Serene vueCartReaderInEpAddr t)) (Parcels base) s := by
  obtain ⟨c, accepted, going⟩ := machine.tracked.progress (by rw [reading]; exact nofun)
  have task : c.task = .read := going.task.symm.trans reading
  rw [vueBulkReadTask, wp_bind, wp_state, if_neg (by rw [going.phase]; decide), if_pos going.phase]
  obtain ⟨a, run, -, ahead⟩ := bulkAccess_machine machine.bus going
  have works := bulkAccess_works (chunkLength s.vars) s
  rw [wp_of_value run] at works
  have parts : (s.accessed c.func (chunkLength s.vars) a).script = s.script ∧
      (s.accessed c.func (chunkLength s.vars) a).setups = s.setups ∧
      (s.accessed c.func (chunkLength s.vars) a).vars.curCommand = s.vars.curCommand :=
    ⟨rfl, rfl, rfl⟩
  rw [wp_bind, wp_of_value run]
  generalize s.accessed c.func (chunkLength s.vars) a = t at works parts ahead ⊢
  obtain ⟨script, setups, command⟩ := parts
  have fits : (chunkLength s.vars).toNat ≤ 64 := by
    rw [chunkLength_toNat]
    exact Nat.min_le_right _ _
  have held := held.unsent works.unsent script setups works.reset works.usb
  have sent := (writeStream_fills loadBuffer fits held).and
    (sendChunk_unmoved (chunkLength s.vars).toNat t)
  refine wp.bind (sent.mono (fun _ _ ends => ends) fun _ cut => cut.1) fun ok u ends => ?_
  obtain ⟨⟨rfl, held⟩, unmoved⟩ := ends
  have accepted : acceptedCommand u.log = some c :=
    unmoved.accepted.trans (works.spares.accepted.symm.trans accepted)
  have chunk : chunkLength u.vars = chunkLength s.vars :=
    (chunkLength_unmoved unmoved).trans (by rw [chunkLength, command, ← chunkLength])
  have before : c.moved u = c.moved s := by
    obtain ⟨_, _, _, _, vars⟩ := unmoved.vars
    rw [VueCommand.moved, vars, command, VueCommand.moved]
  have going := ahead.unmoved unmoved
  rw [← chunk] at going held ⊢
  -- what is left when the chunk is counted
  have size := chunkLength_toNat u.vars
  have left := shortened_length u
  have positive := going.positive
  have bounded := going.bounded
  have whole : 64 ∣ c.moved s := before ▸ going.whole
  have moved : c.moved u = c.length.toNat - u.vars.curCommand.length.toNat := rfl
  rw [if_pos rfl, wp_bind, shortenCommand, onVars, wp_modify, wp_bind, wp_state, wp_whenever]
  have held : Filling base (fun c => c.moved s) (chunkLength u.vars).toNat
      (u.shortened (chunkLength u.vars)) := held.unsent (.none rfl) rfl rfl rfl rfl
  refine ⟨fun ended => ?_, fun more => .inl ?_⟩
  · have ended : (u.shortened (chunkLength u.vars)).vars.curCommand.length = 0#32 := ended
    rw [ended, BitVec.toNat_zero] at left
    refine (finishRead_paced held (by omega) (by omega) fun d found _ => ?_).mono
      (fun _ _ ends => .inr ends) fun _ cut => cut
    obtain rfl : c = d := Option.some.inj (accepted.symm.trans found)
    exact ⟨whole, by omega⟩
  · have next := going.shortened more
    have positive := next.positive
    have full : (chunkLength u.vars).toNat = 64 := by omega
    rw [full] at held
    have moved : c.moved (u.shortened (chunkLength u.vars)) =
        c.length.toNat - (u.shortened (chunkLength u.vars)).vars.curCommand.length.toNat := rfl
    have chunked : Chunked base (fun c => c.moved s) (u.shortened (chunkLength u.vars)) := by
      refine ⟨held, next.task.trans task, fun d found _ => ?_⟩
      obtain rfl : c = d := Option.some.inj (accepted.symm.trans found)
      exact ⟨whole, by omega, next.whole, by omega⟩
    exact chunked

end Poll

/-! ## The OUT endpoint -/

section Out

variable {base : List Event} {s t : World}

/-- Nothing is sent or accepted, and the state is as before. -/
theorem Paced.spares (held : Paced base s) (spares : Spares s t)
    (state : t.vars.curVueState = s.vars.curVueState)
    (command : s.vars.curVueState = .read → t.vars.curCommand = s.vars.curCommand) :
    Paced base t := by
  have empty := spares.empty.empty held.committed
  refine ⟨held.emission.unsent spares.empty.log (empty.trans held.committed.symm)
    fun c _ _ => ?_, empty⟩
  rw [VueCommand.emitted, state, VueCommand.emitted]
  by_cases reading : s.vars.curVueState = .read
  · rw [if_pos reading, if_pos reading, VueCommand.moved, command reading, VueCommand.moved]
  · rw [if_neg reading, if_neg reading]

theorem Paced.same (held : Paced base s) (spares : Spares s t) (vars : t.vars = s.vars) :
    Paced base t := held.spares spares (by rw [vars]) fun _ => by rw [vars]

theorem Paced.parcels (held : Paced base s) : Parcels base s := held.emission.parcels

/-- Code that works on the endpoints other than the IN endpoint. -/
theorem Paced.framed {α : Type} {m : Fw α} (held : Paced base s) (spares : Moves Spares m)
    (framed : Moves (Framed OfUsb) m) : wp m (fun _ t => Paced base t) (Parcels base) s :=
  ((spares s).and (framed s)).mono (fun _ _ ends => held.same ends.1 ends.2.vars)
    fun _ cut => held.parcels.unsent cut.1.empty.log

theorem judgeCommand_paced (held : Paced base s) (idle : s.vars.curVueState = .idle) :
    wp judgeCommand (fun _ t => Paced base t) (Parcels base) s := by
  have other : s.vars.curVueState ≠ .read := by
    rw [idle]
    decide
  rw [judgeCommand, wp_bind, onVars, wp_modify, wp_bind, wp_state, wp_ite, wp_ite]
  refine ⟨fun defined => ⟨fun _ => ?_, fun _ => ?_⟩, fun _ => ?_⟩
  · exact held.spares (.of_one rfl ⟨rfl, rfl, rfl⟩ rfl) rfl fun reading => absurd reading other
  · rw [wp_of_value (startCommand_eq defined)]
    let c := s.vars.curCommand.correct
    have accepted : Emission base (fun d => if c.task = .read then 0 else d.length.toNat)
        { s with log := .accept c :: s.log } := by
      refine held.emission.accept held.committed (fun d _ _ => if_neg other) rfl rfl fun reads => ?_
      exact if_pos reads
    refine ⟨accepted.unsent ⟨_, rfl, fun e member => ?_⟩ rfl fun d found _ => ?_, held.committed⟩
    · obtain ⟨_, _, rfl⟩ := portEvents_kind _ _ _ e member
      exact ⟨rfl, rfl, rfl⟩
    · obtain rfl : c = d := Option.some.inj found
      by_cases reads : c.task = .read
      · rw [if_pos reads]
        exact (if_pos reads).trans (Nat.sub_self _)
      · rw [if_neg reads]
        exact if_neg reads
  · rw [wp_bind, note, wp_modify]
    have rejected : Paced base { s with
        vars := { s.vars with curCommand := s.vars.curCommand.correct }
        log := .reject s.vars.curCommand.correct :: s.log } :=
      held.spares (.of_one rfl ⟨rfl, rfl, rfl⟩ rfl) rfl fun reading => absurd reading other
    exact rejected.framed refuseOut_spares refuseOut_framed

theorem vueCommandTask_paced (held : Paced base s) (idle : s.vars.curVueState = .idle) :
    wp vueCommandTask (fun _ t => Paced base t) (Parcels base) s := by
  have other : s.vars.curVueState ≠ .read := by
    rw [idle]
    decide
  rw [vueCommandTask, wp_bind, wp_state, note, wp_bind, wp_modify]
  have noted : Paced base { s with log := .command s.vars.curCommand :: s.log } :=
    held.same (.of_one rfl ⟨rfl, rfl, rfl⟩ rfl) rfl
  have received := (readStream_spares storeCommand 32
    { s with log := .command s.vars.curCommand :: s.log }).and
    (readStream_streamed storeCommand (fun _ _ _ => ⟨_, _, rfl⟩) 32 _)
  refine wp.bind (received.mono (fun _ _ ends => ends) fun _ cut =>
    noted.parcels.unsent cut.1.empty.log) fun ok t ends => ?_
  obtain ⟨spares, streamed⟩ := ends
  obtain ⟨_, _, _, _, _, vars⟩ := streamed.vars
  have still : t.vars.curVueState = .idle := by
    rw [vars]
    exact idle
  have held := noted.spares spares (still.trans idle.symm) fun reading => absurd reading other
  rw [wp_ite]
  exact ⟨fun _ => judgeCommand_paced held still, fun _ => held⟩

theorem outTask_paced (machine : Machine s) (held : Paced base s) :
    wp (outTask s.vars.curVueState) (fun _ t => Paced base t) (Parcels base) s := by
  cases state : s.vars.curVueState with
  | idle => exact vueCommandTask_paced held state
  | write =>
      obtain ⟨c, accepted, going⟩ := machine.tracked.progress (by rw [state]; decide)
      -- the last command is no read, so that nothing is said of its packets
      refine (vueBulkWriteTask_spares s).mono (fun _ t spares => ?_) fun _ spares =>
        held.parcels.unsent spares.empty.log
      have empty := spares.empty.empty held.committed
      refine ⟨held.emission.unsent spares.empty.log (empty.trans held.committed.symm)
        fun d found reads => ?_, empty⟩
      obtain rfl : c = d := Option.some.inj (accepted.symm.trans found)
      cases reads.symm.trans (going.task.symm.trans state)
  | read => exact held.framed refuseOut_spares refuseOut_framed
  | other raw => exact held.framed refuseOut_spares refuseOut_framed

theorem serveOut_paced (machine : Machine s) (held : Paced base s) :
    wp serveOut (fun _ t => Paced base t) (Parcels base) s := by
  have looked :
    wp (endpointSelectEndpoint vueCartReaderOutEpAddr >>= fun _ => endpointIsOutReceived)
      (fun _ t => Machine t ∧ Paced base t) (Parcels base) s := by
    have spares := (endpointSelectEndpoint_spares vueCartReaderOutEpAddr).bind fun _ =>
      endpointIsOutReceived_spares
    have framed := (endpointSelectEndpoint_framed vueCartReaderOutEpAddr).bind fun _ =>
      endpointIsOutReceived_framed
    exact ((held.framed spares framed).and (framed s)).mono
      (fun _ t ends => ⟨machine_of_framed s t ends.2 machine, ends.1⟩) fun _ cut => cut.1
  rw [wp_bind] at looked
  rw [serveOut, wp_bind]
  refine looked.mono (fun _ t looked => looked.bind fun found u ends => ?_) fun _ cut => cut
  obtain ⟨machine, held⟩ := ends
  rw [wp_ite]
  refine ⟨fun _ => ?_, fun _ => held⟩
  simp only [note, wp_bind, wp_state, wp_modify]
  have noted := (machine_endpoints.note (.outReceived u.vars.curVueState) rfl u machine)
  refine (outTask_paced noted (held.same (.of_one rfl ⟨rfl, rfl, rfl⟩ rfl) rfl)).mono
    (fun _ v held => ?_) fun _ cut => cut
  have noted : Paced base { v with log := .operate .clearOut v.usb.selected :: v.log } :=
    held.same (.of_one rfl ⟨rfl, rfl, rfl⟩ rfl) rfl
  exact noted.framed (endpointClearOut_spares _) (endpointClearOut_framed _)

end Out

/-! ## Up to the last look -/

/-- The half of `VUE_Task` for the IN endpoint up to the last look at the bank: whether the bank
is to be cleared once more. -/
def serveInToLastLook : Fw Bool := do
  endpointSelectEndpoint vueCartReaderInEpAddr
  if ← endpointIsInReady then
    note (.inReady (← state).vars.curVueState)
    if ← flushIn then
      whenever ((← state).vars.curVueState = .read) vueBulkReadTask
      return !(← endpointIsReadWriteAllowed)
    else
      return false
  else
    return false

/-- `VUE_Task` up to the last look at the bank. -/
def vueTaskToLastLook : Fw Bool := do
  let w ← state
  if w.usb.deviceState ≠ .configured then
    return false
  else if w.vars.bulkReset ≠ 0#32 then
    return false
  else
    serveOut
    serveInToLastLook

theorem serveIn_eq :
    serveIn = serveInToLastLook >>= fun again => whenever (again = true) taskClearIn := by
  simp only [serveIn, serveInToLastLook, bind_assoc]
  refine bind_congr fun _ => bind_congr fun ready => ?_
  by_cases there : ready = true
  · simp only [if_pos there, bind_assoc]
    refine bind_congr fun w => bind_congr fun _ => bind_congr fun flushed => ?_
    by_cases empty : flushed = true
    · simp only [if_pos empty, bind_assoc, pure_bind]
      refine bind_congr fun w => bind_congr fun _ => bind_congr fun allowed => ?_
      cases allowed <;> rfl
    · simp only [if_neg empty, pure_bind]
      rfl
  · simp only [if_neg there, pure_bind]
    rfl

/-- `VUE_Task` is what comes before the last look, and another ClearIN if the bank was found
full or busy. -/
theorem vueTask_eq :
    vueTask = vueTaskToLastLook >>= fun again => whenever (again = true) taskClearIn := by
  simp only [vueTask, vueTaskToLastLook, bind_assoc]
  refine bind_congr fun w => ?_
  by_cases away : w.usb.deviceState ≠ .configured
  · rw [if_pos away, if_pos away]
    rfl
  · rw [if_neg away, if_neg away]
    by_cases set : w.vars.bulkReset ≠ 0#32
    · rw [if_pos set, if_pos set]
      rfl
    · rw [if_neg set, if_neg set, bind_assoc, serveIn_eq]

/-- What is known at the last look: where the bank is to be cleared once more, it holds a full
chunk, or it is busy with the packet that `VUE_BulkRead_Task` has committed. -/
structure LastLook (base : List Event) (again : Bool) (w : World) : Prop where
  ended : again = false → Paced base w ∧ Serene vueCartReaderInEpAddr w
  again : again = true → (∃ n, Chunked base n w) ∨
    (Paced base w ∧ Serene vueCartReaderInEpAddr w ∧ w.usb.inBusy = true)

section In

variable {base : List Event} {endpoint : Nat} {s t : World}

/-- A full bank allows no access. -/
theorem Chunked.lastLook {n : VueCommand → Nat} (held : Chunked base n s) :
    wp endpointIsReadWriteAllowed (fun allowed t => LastLook base (!allowed) t)
      (Parcels base) s := by
  have looked := held.filling.look endpointIsReadWriteAllowed_spares
    (endpointIsReadWriteAllowed_looks held.filling.serene)
  refine ((looked.and (endpointIsReadWriteAllowed_framed s)).and
    (endpointIsReadWriteAllowed_spares s)).mono (fun allowed t ends => ?_) fun _ cut => cut.1.1
  obtain ⟨⟨⟨filling, found⟩, framed⟩, spares⟩ := ends
  have full : decide (t.usb.inBank.length < vueCartReaderEpSize) = false := by
    rw [filling.length]
    rfl
  rw [full, Bool.and_false] at found
  refine ⟨fun ended => ?_, fun _ => .inl ⟨n, filling, ?_, fun c accepted reads => ?_⟩⟩
  · rw [found] at ended
    cases ended
  · rw [framed.vars]
    exact held.reading
  · rw [← spares.accepted] at accepted
    have moved : c.moved t = c.moved s := by rw [VueCommand.moved, framed.vars, VueCommand.moved]
    rw [moved]
    exact held.count c accepted reads

/-- A bank without uncommitted bytes allows access unless it is busy. -/
theorem Paced.lastLook (held : Paced base s) (serene : Serene vueCartReaderInEpAddr s) :
    wp endpointIsReadWriteAllowed (fun allowed t => LastLook base (!allowed) t)
      (Parcels base) s := by
  have looked := (held.framed endpointIsReadWriteAllowed_spares
    endpointIsReadWriteAllowed_framed).and (endpointIsReadWriteAllowed_looks serene)
  refine looked.mono (fun allowed t ends => ?_) fun _ cut => cut.1
  obtain ⟨held, serene, -, found⟩ := ends
  refine ⟨fun _ => ⟨held, serene⟩, fun again => .inr ⟨held, serene, ?_⟩⟩
  by_contra free
  have free : t.usb.inBusy = false := Bool.not_eq_true _ |>.mp free
  have empty := held.committed
  rw [uncommitted_of_free free] at empty
  rw [free, empty] at found
  rw [found] at again
  cases again

/-- A free bank without uncommitted bytes has nothing to flush. -/
theorem Filling.flush {n : VueCommand → Nat} (held : Filling base n 0 s) :
    wp flushIn (fun ok t => ok = true ∧ Filling base n 0 t ∧ t.vars = s.vars) (Parcels base) s := by
  have looked := (held.look endpointIsReadWriteAllowed_spares
    (endpointIsReadWriteAllowed_looks held.serene)).and (endpointIsReadWriteAllowed_framed s)
  refine wp.bind (looked.mono (fun _ _ ends => ends) fun _ cut => cut.1) fun allowed t ends => ?_
  obtain ⟨⟨held, found⟩, framed⟩ := ends
  rw [held.free, held.length] at found
  replace found : allowed = true := found
  rw [if_pos found]
  exact ⟨rfl, held, framed.vars⟩

theorem serveInToLastLook_paced (machine : Machine s) (held : Paced base s)
    (serene : Serene endpoint s) :
    wp serveInToLastLook (LastLook base) (Parcels base) s := by
  have selected := ((serene.select vueCartReaderInEpAddr).and
    (endpointSelectEndpoint_framed vueCartReaderInEpAddr s)).and
    (endpointSelectEndpoint_spares vueCartReaderInEpAddr s)
  refine wp.bind (selected.mono (fun _ _ ends => ends) fun _ cut =>
    held.parcels.unsent cut.2.empty.log) fun _ t ends => ?_
  obtain ⟨⟨serene, framed⟩, spares⟩ := ends
  have machine := machine_of_framed s t framed machine
  have held := held.same spares framed.vars
  have looked := (held.framed endpointIsInReady_spares endpointIsInReady_framed).and
    ((endpointIsInReady_looks serene).and (endpointIsInReady_framed t))
  refine wp.bind (looked.mono (fun _ _ ends => ends) fun _ cut => cut.1) fun ready u ends => ?_
  obtain ⟨held, ⟨serene, -, found⟩, framed⟩ := ends
  have machine := machine_of_framed t u framed machine
  rw [wp_ite]
  refine ⟨fun there => ?_, fun _ => ⟨fun _ => ⟨held, serene⟩, fun again => by cases again⟩⟩
  have free : u.usb.inBusy = false := by
    rw [there] at found
    exact Bool.not_eq_true' _ |>.mp found.symm
  have empty := held.committed
  rw [uncommitted_of_free free] at empty
  rw [wp_bind, wp_state, note, wp_bind, wp_modify]
  have noted := machine_endpoints.note (.inReady u.vars.curVueState) rfl u machine
  have filling : Filling base (fun c => c.emitted u) 0
      { u with log := .inReady u.vars.curVueState :: u.log } :=
    ⟨serene.congr rfl rfl rfl rfl rfl, free, congrArg List.length empty,
      held.emission.unsent (.one rfl ⟨rfl, rfl, rfl⟩) rfl fun _ _ _ => rfl⟩
  have flushed := filling.flush.and (flushIn_framed _)
  refine wp.bind (flushed.mono (fun _ _ ends => ends) fun _ cut => cut.1) fun ok v ends => ?_
  obtain ⟨⟨rfl, filling, vars⟩, framed⟩ := ends
  replace vars : v.vars = u.vars := vars
  have machine := machine_of_framed _ v framed noted
  rw [if_pos rfl, wp_bind, wp_state, wp_bind, wp_whenever]
  refine ⟨fun reading => ?_, fun other => ?_⟩
  · have count : Filling base (fun c => c.moved v) 0 v := by
      refine ⟨filling.serene, filling.free, filling.length,
        filling.emission.unsent (.refl v) rfl fun c _ _ => ?_⟩
      have before : u.vars.curVueState = .read := by
        rw [vars] at reading
        exact reading
      rw [VueCommand.emitted, if_pos before, VueCommand.moved, vars, VueCommand.moved]
    refine (vueBulkReadTask_paced machine reading count).mono (fun _ x ends => ?_) fun _ cut => cut
    rw [wp_bind]
    rcases ends with chunked | ⟨paced, serene⟩
    · exact chunked.lastLook
    · exact paced.lastLook serene
  · rw [wp_bind]
    have held : Paced base v := by
      refine ⟨filling.emission.unsent (.refl v) rfl fun c _ _ => ?_, ?_⟩
      · rw [VueCommand.emitted, VueCommand.emitted, VueCommand.moved, VueCommand.moved, vars]
      · rw [uncommitted_of_free filling.free]
        exact List.length_eq_zero_iff.mp filling.length
    exact held.lastLook filling.serene

theorem vueTaskToLastLook_paced (machine : Machine s) (held : Paced base s)
    (serene : Serene endpoint s) :
    wp vueTaskToLastLook (fun again t => LastLook base again t ∨ (again = false ∧ t = s))
      (Parcels base) s := by
  rw [vueTaskToLastLook, wp_bind, wp_state, wp_ite, wp_ite]
  refine ⟨fun _ => .inr ⟨rfl, rfl⟩, fun _ => ⟨fun _ => .inr ⟨rfl, rfl⟩, fun clear => ?_⟩⟩
  have served := (serveOut_paced machine held).and ((serveOut_serene serene).and
    (serveOut_stays machine_endpoints.toLooksKeep machine_tasks s machine (not_not.mp clear)))
  refine wp.bind (served.mono (fun _ _ ends => ends) fun _ cut => cut.1) fun _ t ends => ?_
  obtain ⟨held, serene, machine, -⟩ := ends
  exact (serveInToLastLook_paced machine held serene).mono (fun _ _ looked => .inl looked)
    fun _ cut => cut

end In

/-! ## The last ClearIN -/

/-- The host collects a packet. -/
def HostAct.collects : HostAct → Bool
  | .collectIn => true
  | _ => false

/-- The host leaves the packet in a busy bank alone until the next operation has taken effect. -/
def World.Patient (w : World) : Prop :=
  w.usb.inBusy = true → ∀ m ∈ w.script.head?, ∀ a ∈ m.acts, a.collects = false

/-- In no round of a run is a packet collected between the last look of `VUE_Task` at the bank
and the ClearIN that follows it. -/
def Unraced : List Input → World → Prop
  | [], _ => True
  | i :: rest, w =>
      (∀ polled u, usbUsbTask (w.offer i) = .value () polled →
        vueTaskToLastLook polled = .value true u → u.Patient) ∧
      ∀ v, mainIteration (w.offer i) = .value () v → Unraced rest v

/-- A packet that is not collected stays. -/
theorem acts_busy {acts : List HostAct} (mild : ∀ a ∈ acts, a.resets = false)
    (patient : ∀ a ∈ acts, a.collects = false) :
    ∀ w : World, w.usb.inBusy = true → (acts.foldl World.act w).usb.inBusy = true := by
  induction acts with
  | nil => exact fun _ busy => busy
  | cons a rest ih =>
      intro w busy
      refine ih (fun b member => mild b (List.mem_cons_of_mem _ member))
        (fun b member => patient b (List.mem_cons_of_mem _ member)) (w.act a) ?_
      have here := mild a (List.mem_cons_self ..)
      have stays := patient a (List.mem_cons_self ..)
      cases a with
      | sendOut packet =>
          rw [World.act]
          split
          · exact busy
          · exact busy
      | collectIn => cases stays
      | interrupt i =>
          cases i with
          | endOfReset => cases here
          | suspend => exact busy
          | wakeUp => exact busy

section Rounds

variable {base : List Event} {endpoint : Nat} {s : World}

/-- The full chunk is sent. -/
theorem Chunked.clear {n : VueCommand → Nat} (held : Chunked base n s) :
    wp taskClearIn (fun _ t => Paced base t ∧ Serene vueCartReaderInEpAddr t) (Parcels base) s := by
  have cleared := held.filling.clear (fun c => c.moved s) (by decide) (le_refl 64)
    fun c accepted reads => by
      obtain ⟨whole, moved, multiple, le⟩ := held.count c accepted reads
      exact ⟨whole, moved, .inl ⟨multiple, le⟩⟩
  refine (cleared.and (taskClearIn_framed s)).mono (fun _ t ends => ?_) fun _ cut => cut.1
  obtain ⟨⟨emission, empty, serene⟩, framed⟩ := ends
  refine ⟨⟨emission.unsent (.refl t) rfl fun c _ _ => ?_, empty⟩, serene⟩
  rw [VueCommand.emitted, VueCommand.moved, framed.vars, if_pos held.reading, VueCommand.moved]

/-- The packet that is in the bank already stays there, and nothing is committed. -/
theorem Paced.clear (held : Paced base s) (serene : Serene endpoint s) (busy : s.usb.inBusy = true)
    (patient : s.Patient) :
    wp taskClearIn (fun _ t => Paced base t ∧ Serene endpoint t) (Parcels base) s := by
  rw [taskClearIn, wp_bind, wp_state, note, wp_bind, wp_modify]
  obtain ⟨t, eq⟩ : ∃ t, t = { s with log := .operate .clearIn s.usb.selected :: s.log } := ⟨_, rfl⟩
  have noted : Paced base t := by
    rw [eq]
    exact held.same (.of_one rfl ⟨rfl, rfl, rfl⟩ rfl) rfl
  have serene : Serene endpoint t := by
    rw [eq]
    exact serene.congr rfl rfl rfl rfl rfl
  have still : wp moment (fun _ u => u.usb.inBusy = true) Anywhere t := by
    have script : t.script = s.script := by rw [eq]
    unfold wp moment
    cases moments : t.script with
    | nil => trivial
    | cons m rest =>
        have plain := serene.moments m (by rw [moments]; exact List.mem_cons_self ..)
        simp only [Moment.plain, Bool.and_eq_true, Bool.not_eq_true', List.all_eq_true] at plain
        refine acts_busy plain.2 (patient busy m ?_) _ (by rw [eq]; exact busy)
        rw [← script, moments]
        rfl
  rw [← eq, endpointClearIn]
  have passed := ((noted.framed moment_spares moment_framed).and (moment_serene t serene)).and still
  refine wp.bind (passed.mono (fun _ _ ends => ends) fun _ cut => cut.1.1) fun m u ends => ?_
  obtain ⟨⟨held, serene⟩, busy⟩ := ends
  have none_ : ¬ (decide (u.usb.selected = vueCartReaderInEpAddr) && !u.usb.inBusy) = true := by
    rw [busy, Bool.not_true, Bool.and_false]
    decide
  rw [wp_modify, if_neg none_]
  exact ⟨held, serene⟩

theorem vueTask_paced (machine : Machine s) (held : Paced base s) (serene : Serene endpoint s)
    (patient : ∀ u, vueTaskToLastLook s = .value true u → u.Patient) :
    wp vueTask (fun _ t => Paced base t ∧ ∃ x, Serene x t) (Parcels base) s := by
  rw [vueTask_eq, wp_bind]
  refine (vueTaskToLastLook_paced machine held serene).returned.mono (fun again t ends => ?_)
    fun _ cut => cut
  obtain ⟨run, looked⟩ := ends
  rw [wp_whenever]
  refine ⟨?_, fun ended => ?_⟩
  · rintro rfl
    rcases looked with looked | ⟨ended, -⟩
    · rcases looked.again rfl with ⟨n, chunked⟩ | ⟨paced, serene, busy⟩
      · exact chunked.clear.mono (fun _ _ ends => ⟨ends.1, _, ends.2⟩) fun _ cut => cut
      · exact (paced.clear serene busy (patient t run)).mono
          (fun _ _ ends => ⟨ends.1, _, ends.2⟩) fun _ cut => cut
    · cases ended
  · rcases looked with looked | ⟨-, rfl⟩
    · obtain ⟨paced, serene⟩ := looked.ended (Bool.not_eq_true _ |>.mp ended)
      exact ⟨paced, _, serene⟩
    · exact ⟨held, _, serene⟩

/-- What holds between two rounds of such a run. -/
structure Between (base : List Event) (w : World) : Prop where
  machine : Machine w
  paced : Paced base w
  clear : w.vars.bulkReset = 0#32
  unstalled : w.usb.inStalled = false

theorem usbUsbTask_paced (held : Paced base s) :
    wp usbUsbTask (fun _ t => Paced base t) (Parcels base) s := by
  refine ((usbUsbTask_spares s).and (usbUsbTask_served s)).mono (fun _ t ends => ?_) fun _ cut =>
    held.parcels.unsent cut.1.empty.log
  obtain ⟨spares, served⟩ := ends
  obtain ⟨_, _, _, vars⟩ := served.vars
  exact held.spares spares (by rw [vars]) fun _ => by rw [vars]

theorem mainIteration_paced {w : World} {i : Input} (held : Between base w) (plain : i.Plain)
    (patient : ∀ polled u, usbUsbTask (w.offer i) = .value () polled →
      vueTaskToLastLook polled = .value true u → u.Patient) :
    wp mainIteration (fun _ t => Between base t) (Parcels base) (w.offer i) := by
  have serene : Serene w.usb.selected (w.offer i) :=
    ⟨plain.moments, plain.setups, held.clear, held.unstalled, rfl⟩
  have paced : Paced base (w.offer i) := held.paced.same (.of_none rfl rfl) rfl
  have polls := ((usbUsbTask_paced paced).and ((usbUsbTask_serene _ serene).and
    (usbUsbTask_keepsMachine _ (held.machine.offer i)))).returned
  rw [mainIteration, wp_bind]
  refine polls.mono (fun _ t ends => ?_) fun _ cut => cut.1
  obtain ⟨run, paced, serene, machine⟩ := ends
  rw [wp_bind, wp_state, wp_bind]
  have served := (vueTask_paced machine paced serene (patient t · run)).and
    (vueTask_keepsMachine t machine)
  refine served.mono (fun _ u ends => ?_) fun _ cut => cut.1
  obtain ⟨⟨paced, _, serene'⟩, machine⟩ := ends
  rw [wp_whenever]
  exact ⟨fun set => absurd serene.clear set, fun _ =>
    ⟨machine, paced, serene'.clear, serene'.unstalled⟩⟩

theorem mainLoop_paced (inputs : List Input) : ∀ w, Between base w → (∀ i ∈ inputs, i.Plain) →
    Unraced inputs w → wp (mainLoop inputs) (fun _ t => Between base t) (Parcels base) w := by
  induction inputs with
  | nil => exact fun _ held _ _ => held
  | cons i rest ih =>
      intro w held plain unraced
      obtain ⟨patient, later⟩ := unraced
      rw [mainLoop, wp_bind, wp_modify, wp_bind]
      have round := (mainIteration_paced held (plain i (List.mem_cons_self ..)) patient).returned
      refine round.mono (fun _ v ends => ?_) fun _ cut => cut
      exact ih v ends.2 (fun j member => plain j (List.mem_cons_of_mem _ member)) (later v ends.1)

end Rounds

/-! ## Runs -/

/-- In a run from some world on, no empty packet is committed, and for every read that is
accepted in it the packets come as they are to: so far a beginning of them, and all of them when
the next command is accepted and whenever the firmware is idle between two rounds. Then the bank
holds no uncommitted byte. -/
structure EmitsPackets (before : World) (inputs : List Input) : Prop where
  nonempty : ∀ new, (mainLoop inputs before).state.log = new ++ before.log → [] ∉ commitsOf new
  order : ∀ later mid c, (mainLoop inputs before).state.log = later ++ (mid ++ before.log) →
    acceptedCommand mid = some c → c.task = .read → Emitting c.length.toNat mid
  whole : ∀ later d mid c,
    (mainLoop inputs before).state.log = later ++ .accept d :: (mid ++ before.log) →
    acceptedCommand mid = some c → c.task = .read → Emitted c.length.toNat mid
  idle : ∀ w mid, mainLoop inputs before = .value () w → w.log = mid ++ before.log →
    w.vars.curVueState = .idle → w.usb.uncommitted = [] ∧
      ∀ c, acceptedCommand mid = some c → c.task = .read → Emitted c.length.toNat mid

/-- **A read emits the right packets and no stray ones**, if no packet is collected between the
last look of `VUE_Task` at the bank and the ClearIN that follows it: from any idle state on in
which no reset is due and the IN endpoint is not halted, whatever the host sends and whenever it
collects otherwise, as long as it makes no control request. -/
theorem read_emits {before : World} (reachable : Reachable before)
    (idle : before.vars.curVueState = .idle) (clear : before.vars.bulkReset = 0#32)
    (unstalled : before.usb.inStalled = false) {inputs : List Input}
    (plain : ∀ i ∈ inputs, i.Plain) (unraced : Unraced inputs before) :
    EmitsPackets before inputs := by
  obtain ⟨start, first, started, reached⟩ := reachable
  have keep : Stays (Stocked none) (Dispatched none) (mainLoop first) :=
    mainLoop_stocked first fun _ _ _ found => by cases found
  have stocked := (keep start started.stocked).of_value reached
  have committed : before.usb.uncommitted = [] := stocked.2.drained (by rw [idle]; decide)
  have between : Between before.log before :=
    ⟨stocked.1.machine, ⟨⟨[], rfl, trivial, fun c accepted _ => by cases accepted⟩, committed⟩,
      clear, unstalled⟩
  have run := mainLoop_paced inputs before between plain unraced
  have history {new : List Event} (log : (mainLoop inputs before).state.log = new ++ before.log) :
      History Parcelled new := by
    obtain ⟨mid, log', history⟩ := (run.mono (fun _ _ held => held.paced.parcels) fun _ => id).exit
    rwa [List.append_cancel_right (log.symm.trans log')]
  refine ⟨fun new log member => ?_, fun later mid c log accepted reads => ?_,
    fun later d mid c log accepted reads => ?_, fun w mid returned log resting => ?_⟩
  · obtain ⟨late, e, early, split, committed⟩ := mem_occurrences member
    exact ((history log).split split).nonempty committed
  · rw [← List.append_assoc] at log
    exact emitting_of_history (history log).suffix accepted reads
  · have log : (mainLoop inputs before).state.log =
        (later ++ .accept d :: mid) ++ before.log := by
      rw [log, List.append_assoc, List.cons_append]
    exact ((history log).split rfl).whole d rfl c accepted reads
  · have held := (run.of_value returned).paced
    refine ⟨held.committed, fun c accepted reads => ?_⟩
    obtain ⟨mid', log', -, state⟩ := held.emission
    obtain rfl := List.append_cancel_right (log'.symm.trans log)
    obtain ⟨sizes, bytes⟩ := state c accepted reads
    rw [held.committed, List.append_nil] at bytes
    have all : c.emitted w = c.length.toNat := if_neg (by rw [resting]; decide)
    exact ⟨sizes.trans (congrArg packetSizes all), bytes⟩

/-! ## A read of one byte -/

/-- The host asks for a byte and collects the packet with it at some moment. -/
def collectingInput (k : Nat) : Input :=
  let reading := packetInput ⟨commandBytes 1#8 0#8 0#8 0x60#32 1#32, by simp [commandBytes]⟩ 42
  { reading with script := reading.script.set k ⟨[.collectIn], false⟩ }

theorem collectingInput_plain (k : Nat) : (collectingInput k).Plain where
  moments m member := by
    rcases List.mem_or_eq_of_mem_set member with old | rfl
    · simp only [packetInput, List.mem_cons, quietMoments, List.mem_replicate] at old
      rcases old with rfl | rfl | ⟨-, rfl⟩ <;> rfl
    · rfl
  setups setup member := by
    rw [List.mem_singleton.mp member]
    rfl

def collectingPolled (k : Nat) : World :=
  (usbUsbTask (configuredWorld.offer (collectingInput k))).state

def collectingLast (k : Nat) : World := (vueTaskToLastLook (collectingPolled k)).state

def collectingEnd (k : Nat) : World := (mainLoop [collectingInput k] configuredWorld).state

theorem collectingPolled_eq (k : Nat) :
    (usbUsbTask (configuredWorld.offer (collectingInput k))).state = collectingPolled k := rfl

theorem collectingLast_eq (k : Nat) :
    (vueTaskToLastLook (collectingPolled k)).state = collectingLast k := rfl

theorem collectingEnd_eq (k : Nat) :
    (mainLoop [collectingInput k] configuredWorld).state = collectingEnd k := rfl

/-- The host collects the packet after the round. -/
theorem read_emits_byte : EmitsPackets configuredWorld [collectingInput 43] := by
  have plain : ∀ i ∈ [collectingInput 43], i.Plain := fun i member => by
    rw [List.mem_singleton.mp member]
    exact collectingInput_plain 43
  refine read_emits configuredWorld_reachable (by decide +kernel) (by decide +kernel)
    (by decide +kernel) plain ⟨fun polled u polls looks busy m first => ?_, fun _ _ => trivial⟩
  obtain rfl : collectingPolled 43 = polled := by rw [← collectingPolled_eq, polls, Exit.state]
  obtain rfl : collectingLast 43 = u := by rw [← collectingLast_eq, looks, Exit.state]
  have quiet : ((collectingLast 43).script.head?.map fun m => m.acts.isEmpty) = some true := by
    decide +kernel
  rw [Option.mem_def.mp first] at quiet
  rw [List.isEmpty_iff.mp (Option.some.inj quiet)]
  exact List.forall_mem_nil _

/-- The host collects the packet between the last look at the bank and the ClearIN. -/
theorem read_strays :
    ¬ ∀ (before : World) (inputs : List Input), Reachable before →
      before.vars.curVueState = .idle → before.vars.bulkReset = 0#32 →
      before.usb.inStalled = false → (∀ i ∈ inputs, i.Plain) → EmitsPackets before inputs := by
  intro claim
  have plain : ∀ i ∈ [collectingInput 42], i.Plain := fun i member => by
    rw [List.mem_singleton.mp member]
    exact collectingInput_plain 42
  have emits := claim configuredWorld [collectingInput 42] configuredWorld_reachable
    (by decide +kernel) (by decide +kernel) (by decide +kernel) plain
  obtain ⟨new, log⟩ := mainLoop_extends [collectingInput 42] configuredWorld
  have last : (collectingEnd 42).log.head?.bind Event.committed = some [] := by decide +kernel
  have before : configuredWorld.log.head?.bind Event.committed = none := by decide +kernel
  rw [← collectingEnd_eq, log] at last
  cases new with
  | nil =>
      rw [List.nil_append, before] at last
      cases last
  | cons e rest =>
      refine emits.nonempty (e :: rest) log ?_
      have committed : e.committed = some [] := last
      rw [commitsOf, occurrences_cons, committed]
      exact List.mem_append_right _ (List.mem_singleton_self _)

end VueCartReader
