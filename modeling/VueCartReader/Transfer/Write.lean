import VueCartReader.Transfer.Delivery
import VueCartReader.Transfer.Errors

/-!
# What a write stores

A write of whole words, or of bytes on the lower lane, stores the data of the host, each byte
once and in order, at the words that follow the address of the command (`write_stores`), as
long as the host sends packets of 64 bytes with a shorter last one. What matters is that no
packet reaches over the end of a chunk of 64 bytes.

A write of words strobes both lanes in every cycle. So it stores the data and nothing else if
and only if there is an even number of bytes (`write_lanes_iff`).
-/

set_option autoImplicit false

namespace VueCartReader

open Program

/-! ## Cutting data into packets -/

/-- The packets are pieces of the data, one after the other; after the last byte of the data
anything may follow. -/
def CutInto : List Byte → List (List Byte) → Prop
  | _, [] => True
  | data, packet :: rest =>
      data = [] ∨ (packet ≠ [] ∧ packet <+: data ∧ CutInto (data.drop packet.length) rest)

/-- The packets are pieces of 64 bytes, and a shorter last one. -/
def FullPackets : List Byte → List (List Byte) → Prop
  | _, [] => True
  | data, packet :: rest =>
      data = [] ∨ (packet = data.take 64 ∧ FullPackets (data.drop 64) rest)

/-- From a position in the data on, no packet reaches over the end of a chunk. -/
def InChunks (length : Nat) : Nat → List (List Byte) → Prop
  | _, [] => True
  | position, packet :: rest =>
      length ≤ position ∨
        (position % 64 + packet.length ≤ 64 ∧ InChunks length (position + packet.length) rest)

instance CutInto.decide : (data : List Byte) → (packets : List (List Byte)) →
    Decidable (CutInto data packets)
  | _, [] => .isTrue trivial
  | data, packet :: rest =>
      have := CutInto.decide (data.drop packet.length) rest
      inferInstanceAs (Decidable (data = [] ∨ (packet ≠ [] ∧ packet <+: data ∧ _)))

instance FullPackets.decide : (data : List Byte) → (packets : List (List Byte)) →
    Decidable (FullPackets data packets)
  | _, [] => .isTrue trivial
  | data, packet :: rest =>
      have := FullPackets.decide (data.drop 64) rest
      inferInstanceAs (Decidable (data = [] ∨ (packet = data.take 64 ∧ _)))

instance InChunks.decide (length : Nat) : (position : Nat) → (packets : List (List Byte)) →
    Decidable (InChunks length position packets)
  | _, [] => .isTrue trivial
  | position, packet :: rest =>
      have := InChunks.decide length (position + packet.length) rest
      inferInstanceAs (Decidable (length ≤ position ∨ (position % 64 + packet.length ≤ 64 ∧ _)))

/-- What has been sent of the data is a beginning of it. -/
theorem CutInto.sent {data : List Byte} {packets : List (List Byte)} (cut : CutInto data packets) :
    packets.flatten.take data.length <+: data := by
  induction packets generalizing data with
  | nil => simp
  | cons packet rest ih =>
      rcases cut with rfl | ⟨-, ⟨left, rfl⟩, cut⟩
      · simp
      · rw [List.drop_left] at cut
        rw [List.flatten_cons, List.length_append, List.take_length_add_append]
        exact List.prefix_append_right_inj packet |>.mpr (ih cut)

theorem CutInto.wellCut_from {data : List Byte} {packets : List (List Byte)} {position : Nat}
    (cut : CutInto data packets) (chunks : InChunks (position + data.length) position packets) :
    ∀ earlier packet later, packets = earlier ++ packet :: later →
      earlier.flatten.length < data.length →
      (position + earlier.flatten.length) % 64 + packet.length ≤ 64 ∧
        earlier.flatten.length + packet.length ≤ data.length := by
  induction packets generalizing data position with
  | nil => exact fun earlier packet later eq => absurd eq.symm (by simp)
  | cons first rest ih =>
      intro earlier packet later eq less
      have some_ : data ≠ [] := by
        rintro rfl
        exact absurd less (Nat.not_lt_zero _)
      obtain ⟨-, ⟨left, rfl⟩, cut⟩ := cut.resolve_left some_
      rw [List.drop_left] at cut
      have more : ¬ position + (first ++ left).length ≤ position := by
        have positive := List.length_pos_iff.mpr some_
        omega
      obtain ⟨here, chunks⟩ := chunks.resolve_left more
      cases earlier with
      | nil =>
          obtain ⟨rfl, -⟩ := List.cons.inj eq
          refine ⟨here, ?_⟩
          simp
      | cons _ earlier =>
          obtain ⟨rfl, rest_⟩ := List.cons.inj eq
          rw [List.flatten_cons, List.length_append] at less ⊢
          rw [List.length_append] at less chunks ⊢
          rw [← Nat.add_assoc] at chunks
          have inside := ih cut chunks earlier packet later rest_ (by omega)
          rw [← Nat.add_assoc]
          exact ⟨inside.1, by omega⟩

theorem CutInto.wellCut {data : List Byte} {packets : List (List Byte)} (cut : CutInto data packets)
    (chunks : InChunks data.length 0 packets) : WellCut data.length packets := by
  intro earlier packet later eq less
  rw [← Nat.zero_add data.length] at chunks
  have inside := cut.wellCut_from chunks earlier packet later eq less
  rwa [Nat.zero_add] at inside

/-- Full packets are cut well. -/
theorem FullPackets.cutInto {data : List Byte} {packets : List (List Byte)}
    (full : FullPackets data packets) : CutInto data packets := by
  induction packets generalizing data with
  | nil => trivial
  | cons packet rest ih =>
      by_cases none_ : data = []
      · exact .inl none_
      · obtain ⟨rfl, tail⟩ := full.resolve_left none_
        refine .inr ⟨?_, List.take_prefix _ _, ?_⟩
        · simpa using none_
        · have same : data.drop (data.take 64).length = data.drop 64 := by
            rw [List.length_take]
            rcases Nat.le_total 64 data.length with long | short
            · rw [Nat.min_eq_left long]
            · rw [Nat.min_eq_right short, List.drop_length, List.drop_eq_nil_of_le short]
          rw [same]
          exact ih tail

theorem FullPackets.inChunks {data : List Byte} {packets : List (List Byte)}
    (full : FullPackets data packets) {position : Nat} (whole : 64 ∣ position) :
    InChunks (position + data.length) position packets := by
  induction packets generalizing data position with
  | nil => trivial
  | cons packet rest ih =>
      by_cases none_ : data = []
      · left
        rw [none_, List.length_nil]
        rfl
      · obtain ⟨rfl, tail⟩ := full.resolve_left none_
        obtain ⟨k, rfl⟩ := whole
        refine .inr ⟨?_, ?_⟩
        · rw [List.length_take]
          omega
        · rcases Nat.le_total 64 data.length with long | short
          · have rest_ := ih tail (show 64 ∣ 64 * k + 64 from ⟨k + 1, by omega⟩)
            rw [List.length_drop] at rest_
            rw [List.length_take, Nat.min_eq_left long]
            rwa [show 64 * k + 64 + (data.length - 64) = 64 * k + data.length by omega] at rest_
          · rw [List.length_take, Nat.min_eq_right short]
            cases rest with
            | nil => trivial
            | cons _ _ => exact .inl (le_refl _)

/-! ## Sessions -/

theorem CutInto.prefix {data : List Byte} {first second : List (List Byte)}
    (cut : CutInto data (first ++ second)) : CutInto data first := by
  induction first generalizing data with
  | nil => trivial
  | cons packet rest ih => exact cut.imp id fun ⟨some_, piece, cut⟩ => ⟨some_, piece, ih cut⟩

theorem InChunks.prefix {length position : Nat} {first second : List (List Byte)}
    (chunks : InChunks length position (first ++ second)) : InChunks length position first := by
  induction first generalizing position with
  | nil => trivial
  | cons packet rest ih => exact chunks.imp id fun ⟨inside, chunks⟩ => ⟨inside, ih chunks⟩

/-- A command has been accepted that came as these 32 bytes, and since then no control request
has been served, no stream call has failed and no bank has refused access. -/
structure Session (packet : Vector Byte 32) (log : List Event) : Prop where
  accepted : acceptedCommand log ≠ none
  heard : takesOf (heardOf log) = packet.toList
  calm : Calm (sinceAccept log)
  sound : Sound (sinceAccept log)
  unrefused : .refuse ∉ sinceAccept log

/-- In the session the host sends some data, cut in any way. -/
structure CutSession (packet : Vector Byte 32) (data : List Byte) (log : List Event) : Prop where
  session : Session packet log
  cut : CutInto data (packetsOf (sinceAccept log))

/-- In the session the host sends some data in full packets. -/
structure FullSession (packet : Vector Byte 32) (data : List Byte) (log : List Event) : Prop where
  session : Session packet log
  full : FullPackets data (packetsOf (sinceAccept log))

/-- The host sends some data, cut in such a way that no packet reaches over the end of a
chunk. -/
structure ChunkSession (packet : Vector Byte 32) (data : List Byte) (log : List Event) : Prop where
  session : CutSession packet data log
  chunks : InChunks data.length 0 (packetsOf (sinceAccept log))

theorem FullSession.inChunks {packet : Vector Byte 32} {data : List Byte} {log : List Event}
    (session : FullSession packet data log) : ChunkSession packet data log := by
  have chunks := session.full.inChunks (Nat.dvd_zero 64)
  rw [Nat.zero_add] at chunks
  exact ⟨⟨session.session, session.full.cutInto⟩, chunks⟩

/-! ## Sessions can be checked -/

def Event.isRefusal : Event → Bool
  | .refuse => true
  | _ => false

def Event.isFinish : Event → Bool
  | .finish => true
  | _ => false

/-- An event that a test singles out is found by the test. -/
theorem mem_iff_any {sought : Event} {test : Event → Bool} (found : test sought = true)
    (only : ∀ e, test e = true → e = sought) {log : List Event} :
    sought ∈ log ↔ log.any test = true := by
  rw [List.any_eq_true]
  refine ⟨fun member => ⟨sought, member, found⟩, fun any => ?_⟩
  obtain ⟨e, member, is⟩ := any
  rwa [← only e is]

theorem refuse_mem_iff {log : List Event} : .refuse ∈ log ↔ log.any Event.isRefusal = true :=
  mem_iff_any rfl fun e is => by cases e <;> first | rfl | cases is

theorem finish_mem_iff {log : List Event} : .finish ∈ log ↔ log.any Event.isFinish = true :=
  mem_iff_any rfl fun e is => by cases e <;> first | rfl | cases is

instance (log : List Event) : Decidable (.refuse ∈ log) := decidable_of_iff' _ refuse_mem_iff

instance (log : List Event) : Decidable (.finish ∈ log) := decidable_of_iff' _ finish_mem_iff

theorem Session.iff {packet : Vector Byte 32} {log : List Event} : Session packet log ↔
    (acceptedCommand log).isSome = true ∧ takesOf (heardOf log) = packet.toList ∧
      Calm (sinceAccept log) ∧ Sound (sinceAccept log) ∧ .refuse ∉ sinceAccept log := by
  rw [Option.isSome_iff_ne_none]
  exact ⟨fun h => ⟨h.accepted, h.heard, h.calm, h.sound, h.unrefused⟩,
    fun ⟨accepted, heard, calm, sound, unrefused⟩ => ⟨accepted, heard, calm, sound, unrefused⟩⟩

instance (packet : Vector Byte 32) (log : List Event) : Decidable (Session packet log) :=
  decidable_of_iff' _ Session.iff

instance (packet : Vector Byte 32) (data : List Byte) (log : List Event) :
    Decidable (CutSession packet data log) :=
  decidable_of_iff (Session packet log ∧ CutInto data (packetsOf (sinceAccept log)))
    ⟨fun ⟨session, cut⟩ => ⟨session, cut⟩, fun h => ⟨h.session, h.cut⟩⟩

instance (packet : Vector Byte 32) (data : List Byte) (log : List Event) :
    Decidable (FullSession packet data log) :=
  decidable_of_iff (Session packet log ∧ FullPackets data (packetsOf (sinceAccept log)))
    ⟨fun ⟨session, full⟩ => ⟨session, full⟩, fun h => ⟨h.session, h.full⟩⟩

instance (packet : Vector Byte 32) (data : List Byte) (log : List Event) :
    Decidable (ChunkSession packet data log) :=
  decidable_of_iff
    (CutSession packet data log ∧ InChunks data.length 0 (packetsOf (sinceAccept log)))
    ⟨fun ⟨session, chunks⟩ => ⟨session, chunks⟩, fun h => ⟨h.session, h.chunks⟩⟩

/-! ## The log of a session -/

/-- A piece of a session and what was before it. -/
theorem since_before {log earlier : List Event} (none_ : ∀ e ∈ earlier, e.accepted = none)
    {c : VueCommand} (found : acceptedCommand log = some c) :
    sinceAccept (earlier ++ beforeAccept log) = earlier ∧
      beforeAccept (earlier ++ beforeAccept log) = beforeAccept log ∧
      acceptedCommand (earlier ++ beforeAccept log) = some c := by
  obtain ⟨past, eq⟩ := accepted_split found
  rw [eq]
  refine ⟨sinceAccept_accept none_ c past, ?_, ?_⟩
  · rw [beforeAccept_append none_]
    rfl
  · rw [acceptedCommand_append none_]
    rfl

/-- Where an event of a session stands. -/
theorem since_split {log later earlier : List Event} {e : Event}
    (split : sinceAccept log = later ++ e :: earlier) {c : VueCommand}
    (found : acceptedCommand log = some c) :
    log = later ++ e :: (earlier ++ beforeAccept log) ∧
      sinceAccept (earlier ++ beforeAccept log) = earlier ∧
      acceptedCommand (earlier ++ beforeAccept log) = some c := by
  have none_ : ∀ f ∈ earlier, f.accepted = none := fun f member =>
    accepted_of_since f (show f ∈ sinceAccept log by
      rw [split]
      exact List.mem_append_right _ (List.mem_cons_of_mem _ member))
  obtain ⟨since, -, accepted⟩ := since_before none_ found
  refine ⟨?_, since, accepted⟩
  conv_lhs => rw [← since_append_before log, split, List.append_assoc]
  rfl

/-- The command that has been accepted is the one that its bytes make. -/
theorem command_of_heard {packet : Vector Byte 32} {log : List Event}
    (some_ : acceptedCommand log ≠ none) (heard : takesOf (heardOf log) = packet.toList)
    {plug : Option Plug} (accounted : History (Account plug) log) :
    acceptedCommand log = some (.ofPacket packet) := by
  obtain ⟨c, found⟩ := Option.ne_none_iff_exists'.mp some_
  obtain ⟨past, eq⟩ := accepted_split found
  rw [heardOf, eq] at heard
  have split := since_append_before log
  rw [eq] at split
  have decoded := ((accounted.split split.symm).judged c rfl).2.2 packet
  have bytes : takesOf (sinceCommand (.accept c :: past)) = takesOf (sinceCommand past) := by
    show takesOf (.accept c :: sinceCommand past) = _
    rw [takesOf, occurrences_cons]
    exact List.append_nil _
  rw [found, decoded (bytes.symm.trans heard)]

theorem Session.command {packet : Vector Byte 32} {log : List Event} (session : Session packet log)
    (accounted : History (Account none) log) :
    acceptedCommand log = some (.ofPacket packet) :=
  command_of_heard session.accepted session.heard accounted

/-- What holds of a session held of it before. -/
theorem ChunkSession.past {packet : Vector Byte 32} {data : List Byte} {log : List Event}
    (session : ChunkSession packet data log) {later earlier : List Event}
    (split : sinceAccept log = later ++ earlier) :
    ChunkSession packet data (earlier ++ beforeAccept log) := by
  obtain ⟨c, found⟩ := Option.ne_none_iff_exists'.mp session.session.session.accepted
  have none_ : ∀ e ∈ earlier, e.accepted = none := fun e member =>
    accepted_of_since e (show e ∈ sinceAccept log by
      rw [split]
      exact List.mem_append_right _ member)
  obtain ⟨since, before, accepted⟩ := since_before none_ found
  have old := session.session.session
  have calm := old.calm
  have sound := old.sound
  have unrefused := old.unrefused
  have cut := session.session.cut
  have chunks := session.chunks
  rw [split, Calm.append] at calm
  rw [split, Sound.append] at sound
  rw [split, List.mem_append, not_or] at unrefused
  rw [split, packetsOf, occurrences_append] at cut chunks
  refine ⟨⟨⟨?_, ?_, ?_, ?_, ?_⟩, ?_⟩, ?_⟩
  · rw [accepted]
    exact Option.some_ne_none c
  · rw [heardOf, before]
    exact old.heard
  · rw [since]
    exact calm.2
  · rw [since]
    exact sound.2
  · rw [since]
    exact unrefused.2
  · rw [since]
    exact cut.prefix
  · rw [since]
    exact chunks.prefix

theorem ChunkSession.smooth {packet : Vector Byte 32} {data : List Byte} {log : List Event}
    (session : ChunkSession packet data log) : Smooth data.length log where
  heard := by
    rw [session.session.session.heard]
    exact Vector.length_toList
  calm := session.session.session.calm
  sound := session.session.session.sound
  unrefused := session.session.session.unrefused
  cut := session.session.cut.wellCut session.chunks

/-! ## What is stored -/

/-- A write of whole words, or of bytes on the lower lane. -/
structure WholeWrite (packet : Vector Byte 32) : Prop where
  formed : WellFormed packet
  writes : operationOf packet = 1#32
  mode : modeOf packet = 0#8 ∧ 2 ∣ (lengthOf packet).toNat ∨ modeOf packet = 1#8

/-- The cycle in which the `k`-th word of the data is stored. -/
def storeOf (packet : Vector Byte 32) (data : List Byte) (k : Nat) : BusCycle where
  flags := flagBits (flagsOf (targetOf packet))
  address := ((addressOf packet &&& 0xFFFFFF#32) >>> 1).setWidth 23 + BitVec.ofNat 23 k
  drive :=
    if modeOf packet = 0#8 then
      ⟨false, .driven (data.getD (2 * k) 0#8), .driven (data.getD (2 * k + 1) 0#8)⟩
    else ⟨false, .driven (data.getD k 0#8), .idle⟩

/-- The cycles that store the data. -/
def storesOf (packet : Vector Byte 32) (data : List Byte) : List BusCycle :=
  (List.range (if modeOf packet = 0#8 then data.length / 2 else data.length)).map
    (storeOf packet data)

/-- In a run, finished or cut, a write stores its data in every session of a kind: its cycles
so far are the first of those that store the data, and all of them when it has ended; what
has been sent has been taken whenever the bus is used; and between two rounds the firmware is
idle after the end of the transfer, with no chip selected, or else it still writes, some of
the data is still to be taken, and what is sent and not taken is in the bank. -/
structure StoresExactly (packet : Vector Byte 32) (data : List Byte) (session : List Event → Prop)
    (start : World) (inputs : List Input) : Prop where
  order : ∀ later past, (mainLoop inputs start).state.log = later ++ past → session past →
    cyclesOf (sinceAccept past) <+: storesOf packet data
  complete : ∀ later past, (mainLoop inputs start).state.log = later ++ past → session past →
    .finish ∈ sinceAccept past → cyclesOf (sinceAccept past) = storesOf packet data
  taken : ∀ later e past, (mainLoop inputs start).state.log = later ++ e :: past →
    session past → e.cycle ≠ none ∨ e = .finish →
    sentOf (sinceAccept past) = takesOf (sinceAccept past)
  ends : ∀ w, mainLoop inputs start = .value () w → session w.log →
    (w.vars.curVueState = .idle ∧ .finish ∈ sinceAccept w.log ∧
      noSelect w.board.flagLatch = true) ∨
    (w.vars.curVueState = .write ∧ (takesOf (sinceAccept w.log)).length < data.length ∧
      sentOf (sinceAccept w.log) = takesOf (sinceAccept w.log) ++ w.usb.outBank.getD [])

theorem StoresExactly.mono {packet : Vector Byte 32} {data : List Byte}
    {session session' : List Event → Prop} {start : World} {inputs : List Input}
    (stores : StoresExactly packet data session start inputs)
    (stronger : ∀ log, session' log → session log) :
    StoresExactly packet data session' start inputs where
  order later past log held := stores.order later past log (stronger past held)
  complete later past log held := stores.complete later past log (stronger past held)
  taken later e past log held := stores.taken later e past log (stronger past held)
  ends w returned held := stores.ends w returned (stronger w.log held)

section Stores

variable {packet : Vector Byte 32} {data : List Byte}

namespace WholeWrite

variable (write : WholeWrite packet)
include write

theorem task : (VueCommand.ofPacket packet).task = .write := by
  rw [VueCommand.ofPacket_task write.formed, write.writes]
  rfl

theorem func : (VueCommand.ofPacket packet).func =
    if modeOf packet = 0#8 then .vueWriteData16bit else .vueWriteData8bitLo := by
  have writes : ¬ (VueCommand.ofPacket packet).operation = 0#32 := by
    rw [VueCommand.ofPacket_operation, write.writes]
    decide
  have mode : (VueCommand.ofPacket packet).accessMode = modeOf packet := rfl
  rw [VueCommand.func, if_neg writes, mode, writeFunc]
  rcases write.mode with ⟨words, -⟩ | bytes
  · rw [if_pos words, if_pos words]
  · have other : ¬ modeOf packet = 0#8 := by
      rw [bytes]
      decide
    rw [if_neg other, if_neg other, if_pos bytes]

theorem whole : (VueCommand.ofPacket packet).func.step ∣
    (VueCommand.ofPacket packet).length.toNat := by
  rw [write.func, VueCommand.ofPacket_length]
  rcases write.mode with ⟨words, even⟩ | bytes
  · rw [if_pos words]
    exact even
  · rw [if_neg (by rw [bytes]; decide)]
    exact Nat.one_dvd _

/-- There is a cycle for each word. -/
theorem storesOf_length (size : data.length = (lengthOf packet).toNat) :
    (storesOf packet data).length =
      (VueCommand.ofPacket packet).words (VueCommand.ofPacket packet).length.toNat := by
  rw [storesOf, List.length_map, List.length_range, VueCommand.words, write.func,
    VueCommand.ofPacket_length, size]
  rcases write.mode with ⟨words, even⟩ | bytes
  · rw [if_pos words, if_pos words]
    show _ = rounds _ 2
    rw [rounds]
    omega
  · have other : ¬ modeOf packet = 0#8 := by
      rw [bytes]
      decide
    rw [if_neg other, if_neg other]
    exact (rounds_one _).symm

/-- A cycle of the transfer that drives the next bytes of the data is the next one that stores
them. -/
theorem storeOf_eq {y : BusCycle} {k : Nat}
    (flags : y.flags = flagBits (VueCommand.ofPacket packet).start)
    (address : y.address = wordAddress (VueCommand.ofPacket packet).start + BitVec.ofNat 23 k)
    (drive : y.drive = (VueCommand.ofPacket packet).func.drive data k) :
    y = storeOf packet data k := by
  have defined := (VueCommand.ofPacket_defined packet).mpr write.formed
  have clamped : (VueCommand.ofPacket packet).Clamped := VueCommand.correct_clamped _
  rw [VueCommand.flagBits_start clamped, VueCommand.target_flags defined] at flags
  rw [VueCommand.wordAddress_start defined, VueCommand.ofPacket_address] at address
  obtain ⟨f, a, d⟩ := y
  obtain rfl : f = _ := flags
  obtain rfl : a = _ := address
  obtain rfl : d = _ := drive
  rw [write.func, storeOf]
  split <;> rfl

end WholeWrite

theorem Calm.undisturbed {log : List Event} (calm : Calm log) : Undisturbed log :=
  fun _ _ _ member => nomatch calm _ member

/-- In a session a cycle of the transfer is the next one that stores the data. -/
theorem next_store (write : WholeWrite packet) (size : data.length = (lengthOf packet).toNat)
    {past : List Event} (session : ChunkSession packet data past) {y : BusCycle}
    (next : NextCycle (.ofPacket packet) (sinceAccept past) y)
    (taken : sentOf (sinceAccept past) = takesOf (sinceAccept past)) :
    (storesOf packet data)[(cyclesOf (sinceAccept past)).length]? =
      some y := by
  have length : (VueCommand.ofPacket packet).length.toNat = data.length := by
    rw [VueCommand.ofPacket_length, size]
  obtain ⟨flags, address⟩ := next.place session.session.session.calm.undisturbed
  have whole := next.whole write.whole
  obtain ⟨enough, drive⟩ := next.drive write.task session.session.session.sound whole
  have inside := next.inside
  rw [← write.storesOf_length size] at inside
  rw [length] at whole
  -- what has been taken is a beginning of the data
  have sent := session.session.cut.sent
  rw [show (packetsOf (sinceAccept past)).flatten = _ from taken] at sent
  obtain ⟨rest, split⟩ := sent
  have same (i : Nat) (less : i < (VueCommand.ofPacket packet).func.step) :
      (takesOf (sinceAccept past)).getD
          ((cyclesOf (sinceAccept past)).length * (VueCommand.ofPacket packet).func.step + i) 0#8 =
        data.getD
          ((cyclesOf (sinceAccept past)).length * (VueCommand.ofPacket packet).func.step + i)
          0#8 := by
    rw [Nat.add_mul] at enough whole
    have before :
      (cyclesOf (sinceAccept past)).length * (VueCommand.ofPacket packet).func.step + i <
        ((takesOf (sinceAccept past)).take data.length).length := by
      rw [List.length_take]
      omega
    simp only [List.getD_eq_getElem?_getD]
    rw [← split, List.getElem?_append_left before, List.getElem?_take_of_lt (by omega)]
  rw [AccessFunc.drive_congr _ same] at drive
  have here := write.storeOf_eq flags address drive
  rw [storesOf, List.getElem?_map, List.getElem?_range (by simpa [storesOf] using inside), here]
  rfl

/-- A write stores its data when no packet of it reaches over the end of a chunk. -/
theorem storesExactly_of_inChunks {start : World} (started : Started start) (inputs : List Input)
    (write : WholeWrite packet) (size : data.length = (lengthOf packet).toNat) :
    StoresExactly packet data (ChunkSession packet data) start inputs := by
  obtain ⟨accounted, faithful⟩ :=
    (mainLoop_supplied inputs).exit (fun _ held => held.reported) started.supplied
  have length : (VueCommand.ofPacket packet).length.toNat = data.length := by
    rw [VueCommand.ofPacket_length, size]
  have history {later past : List Event}
      (log : (mainLoop inputs start).state.log = later ++ past) :
      History (Account none) past ∧ History Faithful past := by
    rw [Accounted, log] at accounted
    rw [log] at faithful
    exact ⟨accounted.suffix, faithful.suffix⟩
  have order (later past : List Event) (log : (mainLoop inputs start).state.log = later ++ past)
      (session : ChunkSession packet data past) :
      cyclesOf (sinceAccept past) <+: storesOf packet data := by
    obtain ⟨accounted, faithful⟩ := history log
    have command := session.session.session.command accounted
    refine occurrences_prefix fun late e early y split cycle => ?_
    have before : ChunkSession packet data (early ++ beforeAccept past) :=
      session.past (show sinceAccept past = (late ++ [e]) ++ early by
        rw [split, List.append_assoc]; rfl)
    obtain ⟨here, since, accepted⟩ := since_split split command
    obtain ⟨c, found, next⟩ := (accounted.split here).cycle y cycle
    obtain rfl : .ofPacket packet = c := Option.some.inj (accepted.symm.trans found)
    have taken :=
      faithful.split here (.inl (by rw [cycle]; exact Option.some_ne_none y)) _ accepted write.task
      (by rw [length]; exact before.smooth)
    have stored := next_store write size before next taken
    rwa [since] at stored
  have complete (later past : List Event)
      (log : (mainLoop inputs start).state.log = later ++ past)
      (session : ChunkSession packet data past) (finished : .finish ∈ sinceAccept past) :
      cyclesOf (sinceAccept past) = storesOf packet data := by
    obtain ⟨accounted, -⟩ := history log
    have command := session.session.session.command accounted
    have order := order later past log session
    refine order.eq_of_length_le ?_
    obtain ⟨late, early, split⟩ := List.append_of_mem finished
    obtain ⟨here, since, accepted⟩ := since_split split command
    obtain ⟨c, found, done⟩ := (accounted.split here).finish rfl
    obtain rfl : .ofPacket packet = c := Option.some.inj (accepted.symm.trans found)
    have cycles := done.cycles
    rw [since] at cycles
    rw [write.storesOf_length size, ← cycles, split]
    simp only [cyclesOf, occurrences_append, occurrences_cons, List.length_append]
    omega
  refine
    { order := order, complete := complete
      taken := fun later e past log session kind => ?_
      ends := fun w returned session => ?_ }
  · obtain ⟨accounted, -⟩ :=
      history (show (mainLoop inputs start).state.log = (later ++ [e]) ++ past by
      rw [log, List.append_assoc]
      rfl)
    have command := session.session.session.command accounted
    exact faithful.split log kind _ command write.task (by rw [length]; exact session.smooth)
  · obtain ⟨ledger, fed⟩ := ((mainLoop_supplied inputs) start started.supplied).of_value returned
    have command := session.session.session.command ledger.books.history
    obtain ⟨clear, unreset⟩ := fed.recorded.calm _ command session.session.session.calm
    by_cases idle : w.vars.curVueState = .idle
    · exact .inl ⟨idle, (ledger.books.ended idle _ command).resolve_right unreset,
        ledger.machine.tracked.released idle⟩
    · right
      obtain ⟨c, found, going⟩ := ledger.machine.tracked.progress idle
      obtain rfl : .ofPacket packet = c := Option.some.inj (command.symm.trans found)
      have writing : w.vars.curVueState = .write := going.task.trans write.task
      have fitting := fed.feeding clear writing _ command (by rw [length]; exact session.smooth)
      have count := (ledger.books.kept clear idle _ command).taken write.task
        session.session.session.sound
      have positive := going.positive
      have bounded := going.bounded
      refine ⟨writing, ?_, fitting.sent⟩
      rw [count, VueCommand.moved, ← length]
      omega

/-- **A write that comes in full packets stores its data**, in every run: exactly the bytes of
the host, each once, in order, and nothing else. -/
theorem write_stores {start : World} (started : Started start) (inputs : List Input)
    (write : WholeWrite packet) (size : data.length = (lengthOf packet).toNat) :
    StoresExactly packet data (FullSession packet data) start inputs :=
  (storesExactly_of_inChunks started inputs write size).mono fun _ session => session.inChunks

end Stores

/-! ## A word in one packet -/

/-- A command to write one word, and the word in one packet. -/
def storeInputs (length : BitVec 32) (data : Packet) : List Input :=
  [configuringInput,
    { packetInput ⟨commandBytes 0#8 0#8 1#8 2#32 length, by simp [commandBytes]⟩ 46 with
      setups := [none, none] },
    packetInput data 10]

def storeEnd (length : BitVec 32) (data : Packet) : World :=
  (mainLoop (storeInputs length data) wordStart).state

/-- The command to write so many bytes. -/
def storePacket (length : BitVec 32) : Vector Byte 32 :=
  ⟨(commandBytes 0#8 0#8 1#8 2#32 length).toArray, by simp [commandBytes]⟩

theorem storeEnd_log (length : BitVec 32) (data : Packet) :
    (mainLoop (storeInputs length data) wordStart).state.log = [] ++ (storeEnd length data).log :=
  (List.nil_append _).symm

def wordData : Packet := ⟨[1#8, 2#8], by decide⟩

/-- The word is stored in one cycle. -/
theorem write_stores_word :
    cyclesOf (sinceAccept (storeEnd 2#32 wordData).log) =
      [⟨0x12#8, 0x1#23, ⟨false, .driven 1#8, .driven 2#8⟩⟩] := by
  have session : FullSession (storePacket 2#32) wordData.val (storeEnd 2#32 wordData).log ∧
      .finish ∈ sinceAccept (storeEnd 2#32 wordData).log := by decide +kernel
  have write : WholeWrite (storePacket 2#32) :=
    ⟨by decide +kernel, by decide +kernel, .inl (by decide +kernel)⟩
  have size : wordData.val.length = (lengthOf (storePacket 2#32)).toNat := by decide +kernel
  have stores := write_stores wordStart_started (storeInputs 2#32 wordData) write size
  have words : storesOf (storePacket 2#32) wordData.val =
      [⟨0x12#8, 0x1#23, ⟨false, .driven 1#8, .driven 2#8⟩⟩] := by decide +kernel
  exact (stores.complete [] _ (storeEnd_log _ _) session.1 session.2).trans words

/-! ## The lanes of a write of words -/

/-- A write of words, of any length. -/
structure WordWrite (packet : Vector Byte 32) : Prop where
  formed : WellFormed packet
  writes : operationOf packet = 1#32
  words : modeOf packet = 0#8

/-- What the strobed lanes have carried in the cycles of a transfer, in order. -/
def writtenOf (log : List Event) : List Lane := (cyclesOf log).flatMap BusCycle.written

/-- The words of some data, lane by lane, are the data. -/
theorem lanes_of_words (data : List Byte) (even : 2 ∣ data.length) :
    (List.range (data.length / 2)).flatMap (fun k =>
      [Lane.driven (data.getD (2 * k) 0#8), Lane.driven (data.getD (2 * k + 1) 0#8)]) =
      data.map Lane.driven := by
  obtain ⟨n, size⟩ := even
  rw [size, Nat.mul_div_cancel_left n (by decide)]
  induction n generalizing data with
  | zero =>
      have none_ : data = [] := List.eq_nil_of_length_eq_zero size
      rw [none_]
      rfl
  | succ n ih =>
      match data, size with
      | first :: second :: rest, size =>
          have shorter : rest.length = 2 * n := by
            simp only [List.length_cons] at size
            omega
          rw [List.range_succ_eq_map, List.flatMap_cons, List.flatMap_map, List.map_cons,
            List.map_cons, ← ih rest shorter]
          refine congrArg ([Lane.driven first, Lane.driven second] ++ ·)
            (List.flatMap_congr fun k _ => ?_)
          rw [show 2 * k.succ = 2 * k + 1 + 1 by omega, List.getD_cons_succ, List.getD_cons_succ,
            List.getD_cons_succ, List.getD_cons_succ]

section Lanes

variable {packet : Vector Byte 32} {data : List Byte}

theorem WordWrite.func (write : WordWrite packet) :
    (VueCommand.ofPacket packet).func = .vueWriteData16bit := by
  have writes : ¬ (VueCommand.ofPacket packet).operation = 0#32 := by
    rw [VueCommand.ofPacket_operation, write.writes]
    decide
  have mode : (VueCommand.ofPacket packet).accessMode = modeOf packet := rfl
  rw [VueCommand.func, if_neg writes, mode, writeFunc, if_pos write.words]

theorem WordWrite.storesOf_lanes (write : WordWrite packet) (even : 2 ∣ data.length) :
    (storesOf packet data).flatMap BusCycle.written = data.map Lane.driven := by
  rw [← lanes_of_words data even, storesOf, if_pos write.words, List.flatMap_map]
  refine List.flatMap_congr fun k _ => ?_
  rw [storeOf, if_pos write.words]
  rfl

/-- **A write of words strobes its data and nothing else if and only if it has an even number
of bytes.** Every cycle strobes both lanes, so for an odd number the last one strobes a byte
too many. -/
theorem write_lanes_iff {start : World} (started : Started start) (inputs : List Input)
    (write : WordWrite packet) (size : data.length = (lengthOf packet).toNat)
    {later past : List Event} (log : (mainLoop inputs start).state.log = later ++ past)
    (session : FullSession packet data past) (finished : .finish ∈ sinceAccept past) :
    writtenOf (sinceAccept past) = data.map Lane.driven ↔ 2 ∣ data.length := by
  refine ⟨fun exact_ => ?_, fun even => ?_⟩
  · have accounted := ((mainLoop_supplied inputs).exit (fun _ held => held.reported)
      started.supplied).1
    rw [Accounted, log] at accounted
    have accounted := accounted.suffix
    have command := session.session.command accounted
    -- every cycle of the transfer strobes both lanes
    have both (y : BusCycle) (member : y ∈ cyclesOf (sinceAccept past)) : y.written.length = 2 := by
      obtain ⟨late, e, early, split, cycle⟩ := mem_occurrences member
      obtain ⟨here, -, accepted⟩ := since_split split command
      obtain ⟨c, found, next⟩ := (accounted.split here).cycle y cycle
      obtain rfl : .ofPacket packet = c := Option.some.inj (accepted.symm.trans found)
      obtain ⟨bytes, k, drive⟩ := next.lanes
      rw [BusCycle.written, drive, write.func]
      rfl
    have count := congrArg List.length exact_
    rw [writtenOf, List.length_flatMap, List.map_congr_left both, List.length_map] at count
    refine ⟨(cyclesOf (sinceAccept past)).length, ?_⟩
    rw [← count]
    simp [Nat.mul_comm]
  · have whole : WholeWrite packet :=
      ⟨write.formed, write.writes, .inl ⟨write.words, size ▸ even⟩⟩
    have stores := (storesExactly_of_inChunks started inputs whole size).complete later past log
      session.inChunks finished
    rw [writtenOf, stores]
    exact write.storesOf_lanes even

end Lanes

def oddData : Packet := ⟨[7#8], by decide⟩

/-- The word in one packet strobes its two bytes. -/
theorem write_lanes_iff_word :
    writtenOf (sinceAccept (storeEnd 2#32 wordData).log) = [.driven 1#8, .driven 2#8] := by
  have session : FullSession (storePacket 2#32) wordData.val (storeEnd 2#32 wordData).log ∧
      .finish ∈ sinceAccept (storeEnd 2#32 wordData).log := by decide +kernel
  have write : WordWrite (storePacket 2#32) :=
    ⟨by decide +kernel, by decide +kernel, by decide +kernel⟩
  have size : wordData.val.length = (lengthOf (storePacket 2#32)).toNat := by decide +kernel
  have even : 2 ∣ wordData.val.length := by decide
  exact (write_lanes_iff wordStart_started (storeInputs 2#32 wordData) write size
    (storeEnd_log _ _) session.1 session.2).mpr even

/-- A write of one byte strobes two: the second is what the buffer held before. -/
theorem write_lanes_odd :
    ¬ ∀ (start : World) (inputs : List Input) (packet : Vector Byte 32) (data : List Byte)
      (later past : List Event), Started start → WordWrite packet →
      data.length = (lengthOf packet).toNat →
      (mainLoop inputs start).state.log = later ++ past → FullSession packet data past →
      .finish ∈ sinceAccept past → writtenOf (sinceAccept past) = data.map Lane.driven := by
  intro claim
  have session : FullSession (storePacket 1#32) oddData.val (storeEnd 1#32 oddData).log ∧
      .finish ∈ sinceAccept (storeEnd 1#32 oddData).log ∧
      writtenOf (sinceAccept (storeEnd 1#32 oddData).log) = [.driven 7#8, .driven 0#8] := by
    decide +kernel
  have write : WordWrite (storePacket 1#32) :=
    ⟨by decide +kernel, by decide +kernel, by decide +kernel⟩
  have size : oddData.val.length = (lengthOf (storePacket 1#32)).toNat := by decide +kernel
  have exact_ := claim wordStart (storeInputs 1#32 oddData) _ _ _ _ wordStart_started write size
    (storeEnd_log _ _) session.1 session.2.1
  rw [session.2.2] at exact_
  exact absurd exact_ (by decide)

end VueCartReader
