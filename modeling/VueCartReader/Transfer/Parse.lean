import VueCartReader.Transfer.Intake

/-!
# What a command says

The 32 bytes of a command, in whatever packets they come and whatever requests are served
between them, have one of three outcomes (`vueCommandTask_parses`): a command with a field
out of range is refused, one of length zero is ignored, and any other is taken up, with the
state, the remaining length and the running address that its bytes say. The bytes that pad
the structure have no part in it. A call that goes well takes the first 32 bytes that the host
has sent.
-/

set_option autoImplicit false

namespace VueCartReader

open Program

/-! ## The format -/

/-- An integer as the host sends it. -/
def bigEndian (b0 b1 b2 b3 : Byte) : BitVec 32 := b0 ++ b1 ++ b2 ++ b3

/-- The fields of a command, and how far they may go. -/
def modeOf (packet : Vector Byte 32) : Byte := packet.get 0

def targetOf (packet : Vector Byte 32) : Byte := packet.get 1

def operationOf (packet : Vector Byte 32) : BitVec 32 :=
  bigEndian (packet.get 4) (packet.get 5) (packet.get 6) (packet.get 7)

def addressOf (packet : Vector Byte 32) : BitVec 32 :=
  bigEndian (packet.get 8) (packet.get 9) (packet.get 10) (packet.get 11)

def lengthOf (packet : Vector Byte 32) : BitVec 32 :=
  bigEndian (packet.get 12) (packet.get 13) (packet.get 14) (packet.get 15)

def WellFormed (packet : Vector Byte 32) : Prop :=
  modeOf packet ≤ 2#8 ∧ targetOf packet ≤ 2#8 ∧ operationOf packet ≤ 1#32

instance (packet : Vector Byte 32) : Decidable (WellFormed packet) :=
  inferInstanceAs (Decidable (_ ∧ _ ∧ _))

/-- The chip select of a target, by its number. -/
def selectOf (target : Byte) : BitVec 32 :=
  if target = 0#8 then vueNRamCs else if target = 1#8 then vueNRomCe else vueNEs

/-- Only the select of the target and the status flag are low. -/
def flagsOf (target : Byte) : BitVec 32 :=
  vueFlagMask &&& ~~~(selectOf target ||| vueCartReaderNStatus)

namespace VueCommand

theorem ofPacket_operation (packet : Vector Byte 32) :
    (ofPacket packet).operation = operationOf packet := swapEndian32_word32 _ _ _ _

theorem ofPacket_length (packet : Vector Byte 32) :
    (ofPacket packet).length = lengthOf packet := swapEndian32_word32 _ _ _ _

theorem ofPacket_address (packet : Vector Byte 32) :
    (ofPacket packet).address = addressOf packet &&& 0xFFFFFF#32 :=
  congrArg (· &&& 0xFFFFFF#32) (swapEndian32_word32 _ _ _ _)

theorem ofPacket_defined (packet : Vector Byte 32) :
    (ofPacket packet).defined = true ↔ WellFormed packet := by
  rw [defined_iff, ofPacket_operation]
  exact Iff.rfl

theorem target_flags {c : VueCommand} (defined : c.defined = true) :
    c.target &&& ~~~vueCartReaderNStatus = flagsOf c.targetRegion := by
  have small : c.targetRegion.toNat ≤ 2 := (defined_iff.mp defined).2.1
  have known : c.targetRegion = 0#8 ∨ c.targetRegion = 1#8 ∨ c.targetRegion = 2#8 := by
    rcases (by omega : c.targetRegion.toNat = 0 ∨ c.targetRegion.toNat = 1 ∨
      c.targetRegion.toNat = 2) with eq | eq | eq
    · exact .inl (BitVec.eq_of_toNat_eq eq)
    · exact .inr (.inl (BitVec.eq_of_toNat_eq eq))
    · exact .inr (.inr (BitVec.eq_of_toNat_eq eq))
  rcases known with eq | eq | eq <;> rw [target, eq] <;> decide

/-- Where the transfer sets out, as the bytes of the command say. -/
theorem ofPacket_start {packet : Vector Byte 32} (formed : WellFormed packet) :
    (ofPacket packet).start =
      flagsOf (targetOf packet) ||| ((addressOf packet &&& 0xFFFFFF#32) >>> 1) := by
  have defined := (ofPacket_defined packet).mpr formed
  have clamped : (ofPacket packet).Clamped := correct_clamped _
  have start := start_iterate defined clamped 0
  rw [Function.iterate_zero_apply, target_flags defined, ofPacket_address] at start
  rw [start, BitVec.add_zero]
  congr 1
  apply BitVec.eq_of_getLsbD_eq
  intro i bound
  simp only [BitVec.getLsbD_setWidth, BitVec.getLsbD_ushiftRight, BitVec.getLsbD_and]
  interval_cases i <;> simp

/-- Whether an operation reads or writes. -/
theorem ofPacket_task {packet : Vector Byte 32} (formed : WellFormed packet) :
    (ofPacket packet).task = if operationOf packet = 0#32 then .read else .write := by
  rw [task, ofPacket_operation]
  rcases operation_eq ((ofPacket_defined packet).mpr formed) with eq | eq
  · rw [ofPacket_operation] at eq
    rw [eq]
    rfl
  · rw [ofPacket_operation] at eq
    rw [eq]
    rfl

end VueCommand

/-! ## The outcomes -/

/-- The task makes no port access of its own. -/
def Untouched (log : List Event) : Prop := ∀ before after, .port .task before after ∉ log

/-- A command with a field out of range: the OUT endpoint is emptied and stalled. -/
structure Refused (new : List Event) (t : World) : Prop where
  idle : t.vars.curVueState = .idle
  untouched : Untouched new
  rejected : ∃ c, .reject c ∈ new
  stalled : .interrupt .endOfReset ∉ new → (∃ unread, .free .task unread ∈ new) ∧
    .stall vueCartReaderOutEpAddr ∈ new ∧ t.usb.outStalled = true

/-- A command of length zero. -/
structure PassedOver (new : List Event) (t : World) : Prop where
  idle : t.vars.curVueState = .idle
  untouched : Untouched new
  unrefused : ∀ c, .reject c ∉ new
  unstalled : t.usb.outStalled = false

/-- A command that begins a transfer: one full write of the running address, and nothing
else, while the strobes are high. -/
structure TakenUp (packet : Vector Byte 32) (new : List Event) (t : World) : Prop where
  state : t.vars.curVueState = if operationOf packet = 0#32 then .read else .write
  phase : t.vars.curCmdPhase = 1#32
  remaining : t.vars.curCommand.length = lengthOf packet
  address : t.vars.bulkAddress =
    flagsOf (targetOf packet) ||| ((addressOf packet &&& 0xFFFFFF#32) >>> 1)
  written : ∃ b c earlier, b.Idle ∧ Untouched earlier ∧
    t.board = (vueWriteAddressFull t.vars.bulkAddress ⟨b, []⟩).board ∧
    new = portEvents .task b (vueWriteAddressFull t.vars.bulkAddress ⟨b, []⟩).seen ++
      .accept c :: earlier
  unstrobed : ∀ before after, .port .task before after ∈ new → after.Idle
  unrefused : ∀ c, .reject c ∉ new
  unstalled : t.usb.outStalled = false

/-- What becomes of 32 bytes. -/
structure Parsed (packet : Vector Byte 32) (new : List Event) (t : World) : Prop where
  refused : ¬ WellFormed packet → Refused new t
  passedOver : WellFormed packet → lengthOf packet = 0#32 → PassedOver new t
  takenUp : WellFormed packet → lengthOf packet ≠ 0#32 → TakenUp packet new t

/-! ## Refusing -/

/-- The bank that a packet is in is still there after a moment, and selected. -/
theorem moment_holding {u : World} (holding : u.Holding) :
    wp moment (fun _ v => ∃ more, v.log = more ++ u.log ∧ (∀ e ∈ more, e.ofUsb = true) ∧
      (.interrupt .endOfReset ∉ more → v.Holding)) Anywhere u := by
  refine ((moment_sameSelected u).and ((moment_listens u).and (moment_framed u))).mono
    (fun _ v ⟨⟨more, log, selected⟩, ⟨same, log', listened⟩, framed⟩ => ?_) fun _ _ => trivial
  obtain ⟨all, log'', usb⟩ := framed.log
  obtain rfl := List.append_cancel_right (log'.symm.trans log)
  obtain rfl := List.append_cancel_right (log''.symm.trans log)
  refine ⟨all, log, usb, fun none_ => ?_⟩
  obtain ⟨filled, -, stalled⟩ := listened (calm_of_usb usb none_)
  refine ⟨(selected none_).trans holding.selected, stalled.trans holding.unstalled, ?_⟩
  obtain ⟨data, bank⟩ := Option.isSome_iff_exists.mp holding.bank
  rw [bank] at filled
  rw [filled.of_some.2]
  rfl

/-- What an endpoint operation has recorded. -/
def Operated (s : World) (more : List Event) (t : World) : Prop :=
  t.log = more ++ s.log ∧ ∀ e ∈ more, e.ofUsb = true

theorem Operated.trans {s t u : World} {first second : List Event} (one : Operated s first t)
    (two : Operated t second u) : Operated s (second ++ first) u := by
  refine ⟨by rw [two.1, one.1, List.append_assoc], fun e member => ?_⟩
  rcases List.mem_append.mp member with late | early
  · exact two.2 e late
  · exact one.2 e early

theorem freeOut_operated (by_ : Actor) (v : World) :
    wp (freeOut by_) (fun _ x => ∃ more, Operated v more x ∧ x.usb.selected = v.usb.selected ∧
      (v.usb.outBank.isSome = true → ∃ unread, .free by_ unread ∈ more)) Anywhere v := by
  rw [freeOut, wp_modify]
  cases v.usb.outBank with
  | none => exact ⟨[], ⟨rfl, List.forall_mem_nil _⟩, rfl, fun there => by cases there⟩
  | some unread =>
      refine ⟨[.free by_ unread], ⟨rfl, fun e member => ?_⟩, rfl, fun _ => ⟨unread, ?_⟩⟩
      · rw [List.mem_singleton.mp member]
        rfl
      · exact List.mem_singleton_self _

/-- A held packet is dropped by a reset of the endpoint. -/
theorem endpointResetEndpoint_operated {u : World} (holding : u.Holding) :
    wp (endpointResetEndpoint .task vueCartReaderOutEpAddr)
      (fun _ x => ∃ more, Operated u more x ∧ (.interrupt .endOfReset ∉ more →
        x.usb.selected = vueCartReaderOutEpAddr ∧ ∃ unread, .free .task unread ∈ more))
      Anywhere u := by
  rw [endpointResetEndpoint, if_pos rfl]
  refine wp.bind (moment_holding holding) fun _ v ⟨first, log, usb, held⟩ => ?_
  refine (freeOut_operated .task v).mono (fun _ x ⟨second, operated, same, gone⟩ => ?_)
    fun _ _ => trivial
  refine ⟨second ++ first, Operated.trans ⟨log, usb⟩ operated, fun none_ => ?_⟩
  rw [List.mem_append, not_or] at none_
  obtain ⟨unread, member⟩ := gone (held none_.2).bank
  exact ⟨same.trans (held none_.2).selected, unread, List.mem_append_left _ member⟩

theorem endpointStallTransaction_operated {x : World} :
    wp endpointStallTransaction
      (fun _ t => ∃ more, Operated x more t ∧ (.interrupt .endOfReset ∉ more →
        x.usb.selected = vueCartReaderOutEpAddr →
          .stall vueCartReaderOutEpAddr ∈ more ∧ t.usb.outStalled = true)) Anywhere x := by
  rw [endpointStallTransaction]
  refine wp.bind (((moment_sameSelected x).and (moment_framed x)).mono (fun _ _ later => later)
    fun _ _ => trivial) fun _ y ⟨⟨more, log, kept⟩, framed⟩ => ?_
  obtain ⟨all, log', usb⟩ := framed.log
  obtain rfl := List.append_cancel_right (log'.symm.trans log)
  rw [wp_bind, wp_state, wp_bind, note, wp_modify, onUsb, wp_modify]
  have noted : Operated y [.stall y.usb.selected]
      { y with usb := y.usb.setStalled true, log := .stall y.usb.selected :: y.log } :=
    ⟨rfl, fun e member => by rw [List.mem_singleton.mp member]; rfl⟩
  refine ⟨_, Operated.trans ⟨log, usb⟩ noted, fun none_ selected => ?_⟩
  rw [List.mem_append, not_or] at none_
  have still := (kept none_.2).trans selected
  rw [still]
  refine ⟨List.mem_cons_self .., ?_⟩
  show (y.usb.setStalled true).outStalled = true
  rw [Usb.setStalled, if_pos still]

theorem refuseOut_operated {u : World} (holding : u.Holding) :
    wp refuseOut (fun _ t => ∃ more, Operated u more t ∧ (.interrupt .endOfReset ∉ more →
      (∃ unread, .free .task unread ∈ more) ∧
        .stall vueCartReaderOutEpAddr ∈ more ∧ t.usb.outStalled = true)) Anywhere u := by
  rw [refuseOut]
  refine wp.bind (endpointResetEndpoint_operated holding) fun _ x reset => ?_
  obtain ⟨first, operated, emptied⟩ := reset
  rw [wp_bind, wp_state, wp_bind, note, wp_modify]
  have noted : Operated x [.operate .stall x.usb.selected]
      { x with log := .operate .stall x.usb.selected :: x.log } :=
    ⟨rfl, fun e member => by rw [List.mem_singleton.mp member]; rfl⟩
  refine endpointStallTransaction_operated.mono (fun _ t halted => ?_) fun _ _ => trivial
  obtain ⟨second, stalled, ends⟩ := halted
  refine ⟨_, (operated.trans noted).trans stalled, fun none_ => ?_⟩
  simp only [List.mem_append, List.mem_singleton, not_or] at none_
  obtain ⟨selected, unread, member⟩ := emptied none_.2.2
  obtain ⟨stall, out⟩ := ends none_.1 selected
  exact ⟨⟨unread, List.mem_append_right _ (List.mem_append_right _ member)⟩,
    List.mem_append_left _ stall, out⟩

/-! ## Judging -/

/-- What a port event leads to is on the trace. -/
theorem mem_of_portEvents {by_ actor : Actor} {start before after : Board} {trace : List Board}
    (member : .port actor before after ∈ portEvents by_ start trace) : after ∈ trace := by
  induction trace generalizing start with
  | nil => exact nomatch member
  | cons first rest ih =>
      rcases List.mem_append.mp member with later | now
      · exact List.mem_cons_of_mem _ (ih later)
      · cases List.mem_singleton.mp now
        exact List.mem_cons_self ..

/-- The task judges 32 bytes that it holds. -/
theorem judgeCommand_parsed {packet : Vector Byte 32} {s : World} (ready : s.BusReady)
    (idle : s.vars.curVueState = .idle) (holding : s.Holding)
    (whole : s.vars.curCommand.correct = .ofPacket packet) {part : List Event}
    (untouched : Untouched part) (unrefused : ∀ c, .reject c ∉ part) :
    wp judgeCommand (fun _ t => ∃ more, t.log = more ++ s.log ∧ Parsed packet (more ++ part) t)
      Anywhere s := by
  have formed := VueCommand.ofPacket_defined packet
  have length := VueCommand.ofPacket_length packet
  rw [judgeCommand, wp_bind, onVars, wp_modify, wp_bind, wp_state, wp_ite, wp_ite]
  dsimp only
  rw [whole]
  refine ⟨fun defined => ⟨fun zero => ?_, fun positive => ?_⟩, fun undefined_ => ?_⟩
  · refine ⟨[.ignore (.ofPacket packet)], rfl, fun other => absurd (formed.mp defined) other,
      fun _ _ => ⟨idle, ?_, ?_, holding.unstalled⟩, fun _ other => absurd (length ▸ zero) other⟩
    · intro before after member
      rcases List.mem_append.mp member with late | early
      · cases List.mem_singleton.mp late
      · exact untouched before after early
    · intro c member
      rcases List.mem_append.mp member with late | early
      · cases List.mem_singleton.mp late
      · exact unrefused c early
  · have taken := startCommand_eq (w := { s with
      vars := { s.vars with curCommand := .ofPacket packet } }) defined
    rw [wp_of_value taken]
    have written := vueWriteAddressFull_spec (r := ⟨s.board, []⟩) ready.resting.low
      (VueCommand.ofPacket packet).start
    obtain ⟨trace, settled, -, idles⟩ :=
      written.mono fun b (step : AddressStep s.board _ b) => step.idle ready.resting.idle
    have seen :
        (vueWriteAddressFull (VueCommand.ofPacket packet).start ⟨s.board, []⟩).seen = trace :=
      settled.seen
    refine ⟨portEvents .task s.board
      (vueWriteAddressFull (VueCommand.ofPacket packet).start ⟨s.board, []⟩).seen ++
        [.accept (.ofPacket packet)], by rw [List.append_assoc]; rfl,
      fun other => absurd (formed.mp defined) other,
      fun _ zero => absurd (length.trans zero) positive,
      fun formed _ => ?_⟩
    have port (e : Event) (member : e ∈ portEvents .task s.board
        (vueWriteAddressFull (VueCommand.ofPacket packet).start ⟨s.board, []⟩).seen) :=
      portEvents_kind .task _ _ e member
    refine
      { state := VueCommand.ofPacket_task formed, phase := rfl, remaining := length
        address := VueCommand.ofPacket_start formed
        written := ⟨s.board, .ofPacket packet, part, ready.resting.idle, untouched, rfl, ?_⟩
        unstrobed := fun before after member => ?_, unrefused := fun c member => ?_
        unstalled := holding.unstalled }
    · rw [List.append_assoc]
      rfl
    · rw [List.append_assoc] at member
      rcases List.mem_append.mp member with late | early
      · rw [seen] at late
        exact idles after (mem_of_portEvents late)
      · rcases List.mem_append.mp early with accept | old
        · cases List.mem_singleton.mp accept
        · exact absurd old (untouched before after)
    · rw [List.append_assoc] at member
      rcases List.mem_append.mp member with late | early
      · obtain ⟨_, _, eq⟩ := port _ late
        cases eq
      · rcases List.mem_append.mp early with accept | old
        · cases List.mem_singleton.mp accept
        · exact absurd old (unrefused c)
  · have other : ¬ WellFormed packet := fun fine => undefined_ (formed.mpr fine)
    rw [wp_bind, note, wp_modify]
    have held : World.Holding { s with
        vars := { s.vars with curCommand := .ofPacket packet }
        log := .reject (.ofPacket packet) :: s.log } :=
      ⟨holding.selected, holding.unstalled, holding.bank⟩
    refine ((refuseOut_operated held).and (refuseOut_framed _)).mono
      (fun _ t refused => ?_) fun _ _ => trivial
    obtain ⟨⟨more, operated, ends⟩, framed⟩ := refused
    refine ⟨more ++ [.reject (.ofPacket packet)], by rw [operated.1, List.append_assoc]; rfl,
      fun _ => ?_, fun formed => absurd formed other, fun formed => absurd formed other⟩
    refine ⟨by rw [framed.vars]; exact idle, fun before after member => ?_,
      ⟨.ofPacket packet, by simp⟩, fun none_ => ?_⟩
    · simp only [List.mem_append, List.mem_singleton] at member
      rcases member with (late | reject) | early
      · cases operated.2 _ late
      · cases reject
      · exact untouched before after early
    · simp only [List.mem_append, List.mem_singleton, not_or] at none_
      obtain ⟨⟨unread, freed⟩, stall, stalled⟩ := ends none_.1.1
      exact ⟨⟨unread, List.mem_append_left _ (List.mem_append_left _ freed)⟩,
        List.mem_append_left _ (List.mem_append_left _ stall), stalled⟩

/-! ## The call -/

/-- What a call has recorded before it judges the command, and how its stream has ended. -/
structure CallHeard (s : World) (ok : Bool) (heard : List Event) (t : World) : Prop where
  received : Received (fun v => v.curCommand.toBytes.toList) s heard t
  events : ∀ e ∈ heard, e = .command s.vars.curCommand ∨ e.ofStream = true
  state : t.vars.curVueState = s.vars.curVueState
  ready : s.BusReady → t.BusReady
  count : ok = true → Sound heard → (takesOf heard).length = 32
  asked : ok = false → s.vars.bulkReset = 0#32 → .resetRequest ∈ heard
  whole : (takesOf heard).length = 32 → ok = true ∧ t.Holding
  conveyed : s.usb.outStalled = false → Lossless heard → Conveyed s.usb.unread heard t.usb

theorem commandStream_heard {s : World} (selected : s.usb.selected = vueCartReaderOutEpAddr) :
    wp (stream (readStream storeCommand) 32) (fun ok t => ∃ heard, CallHeard s ok heard t)
      Anywhere { s with log := .command s.vars.curCommand :: s.log } := by
  obtain ⟨u, eq⟩ : ∃ u : World, u = { s with log := .command s.vars.curCommand :: s.log } :=
    ⟨_, rfl⟩
  have log : u.log = .command s.vars.curCommand :: s.log := by rw [eq]
  have vars : u.vars = s.vars := by rw [eq]
  have usb : u.usb = s.usb := by rw [eq]
  have board : s.BusReady → u.BusReady := by
    rw [eq]
    exact fun ready => ⟨ready.resting, ready.selects, ready.header⟩
  rw [← eq]
  have at_ : u.usb.selected = vueCartReaderOutEpAddr := by rw [usb, selected]
  have streamed := readStream_streamed storeCommand (fun _ _ _ => ⟨_, _, rfl⟩) 32 u
  have spec := readStream_spec (n := 32) command_memory (by decide) (.inl at_) (by simp)
  have whole := readStream_whole (n := 32) command_memory (by decide) (.inl at_) (by simp)
  have reset := readStream_reset storeCommand (fun _ _ _ => rfl) 32 u
  have conveys : wp (stream (readStream storeCommand) 32) (fun _ t => ∃ new, t.log = new ++ u.log ∧
      (s.usb.outStalled = false → Lossless new → Conveyed s.usb.unread new t.usb)) Anywhere u := by
    by_cases unstalled : s.usb.outStalled = false
    · refine (readStream_conveys storeCommand (by decide) (fun past same => ?_) at_
        (by rw [usb, unstalled])).mono (fun _ t ends => ?_) fun _ _ => trivial
      · rw [log] at same
        cases same
      · obtain ⟨new, grown, conveyed⟩ := ends
        rw [usb] at conveyed
        exact ⟨new, grown, fun _ => conveyed⟩
    · refine streamed.mono (fun _ t ends => ?_) fun _ _ => trivial
      obtain ⟨new, grown, -⟩ := ends.log
      exact ⟨new, grown, fun open_ => absurd open_ unstalled⟩
  refine (((streamed.and spec).and (whole.and reset)).and conveys).mono (fun ok t ends => ?_)
    fun _ _ => trivial
  obtain ⟨⟨⟨streamed, part, received, done, -⟩, ⟨same, log', holds⟩, -, abandoned⟩,
    also, log'', conveyed⟩ := ends
  obtain rfl := List.append_cancel_right (log'.symm.trans received.log)
  obtain rfl := List.append_cancel_right (log''.symm.trans received.log)
  obtain ⟨all, log'', kinds, set⟩ := streamed.log
  obtain rfl := List.append_cancel_right (log''.symm.trans received.log)
  -- the entry of the call belongs to what it has recorded
  have takes : takesOf (all ++ [.command s.vars.curCommand]) = takesOf all := by
    rw [takesOf, occurrences_append]
    rfl
  have sent : sentOf (all ++ [.command s.vars.curCommand]) = sentOf all := by
    rw [sentOf_append]
    rfl
  refine ⟨all ++ [.command s.vars.curCommand], ⟨⟨?_, ?_⟩, fun e member => ?_, ?_,
    fun ready => streamed.ready (board ready), fun yes sound => ?_, fun no clear => ?_,
    fun count => holds (takes ▸ count), fun unstalled lossless => ?_⟩⟩
  · rw [received.log, log, List.append_assoc]
    rfl
  · show _ = takesOf _ ++ List.drop (takesOf _).length _
    rw [takes, ← vars]
    exact received.memory
  · rcases List.mem_append.mp member with late | entry
    · exact .inr (kinds e late)
    · exact .inl (List.mem_singleton.mp entry)
  · obtain ⟨_, _, _, _, _, vars'⟩ := streamed.vars
    rw [vars', vars]
  · rw [takes]
    have sound := (Sound.append.mp sound).1
    exact ((done yes).resolve_right fun failed => failed.1 sound).2
  · by_contra unasked
    refine abandoned no ?_
    rw [set, resetRequested_eq_false, vars]
    · exact clear
    · intro e member request
      rw [request] at member
      exact unasked (List.mem_append_left _ member)
  · obtain ⟨open_, bytes⟩ := conveyed unstalled (Lossless.append.mp lossless).1
    exact ⟨open_, by rw [sent, takes, bytes]⟩

/-- Of a call that takes 32 bytes, what becomes of them is known. -/
theorem vueCommandTask_parsed {s : World} (ready : s.BusReady) (idle : s.vars.curVueState = .idle)
    (selected : s.usb.selected = vueCartReaderOutEpAddr) (packet : Vector Byte 32) :
    wp vueCommandTask (fun _ t => ∃ new, t.log = new ++ s.log ∧
      (takesOf new = packet.toList → Parsed packet new t)) Anywhere s := by
  rw [vueCommandTask, wp_bind, wp_state, wp_bind, note, wp_modify]
  refine wp.bind (commandStream_heard selected) fun ok t ends => ?_
  obtain ⟨heard, call⟩ := ends
  have state : t.vars.curVueState = .idle := call.state.trans idle
  have untouched : Untouched heard := fun before after member => by
    rcases call.events _ member with entry | streams
    · cases entry
    · cases streams
  have unrefused (c : VueCommand) : .reject c ∉ heard := fun member => by
    rcases call.events _ member with entry | streams
    · cases entry
    · cases streams
  by_cases taken : takesOf heard = packet.toList
  · obtain ⟨yes, holding⟩ := call.whole (by rw [taken]; exact Vector.length_toList)
    have judged : t.vars.curCommand.correct = .ofPacket packet := by
      rw [received_correct call.received, show occurrences Event.taken heard = _ from taken,
        VueCommand.completed_whole]
    rw [if_pos yes]
    refine (judgeCommand_parsed (call.ready ready) state holding judged untouched
      unrefused).mono (fun _ x judged => ?_) fun _ _ => trivial
    obtain ⟨more, log, parsed⟩ := judged
    exact ⟨_, by rw [log, call.received.log, ← List.append_assoc], fun _ => parsed⟩
  · rw [wp_ite]
    refine ⟨fun _ => ?_, fun _ => ⟨_, call.received.log, fun all => absurd all taken⟩⟩
    refine (judgeCommand_judged state).mono (fun _ x ends => ?_) fun _ _ => trivial
    obtain ⟨more, judged⟩ := ends
    refine ⟨_, by rw [judged.log, call.received.log, ← List.append_assoc],
      fun all => absurd ?_ taken⟩
    rwa [takesOf, occurrences_append, judged.silent, List.append_nil] at all

/-- A call has taken 32 bytes: the first ones of those that were unread and of those that came in,
in whatever packets, until the command was judged. -/
structure HeardOut (held : List Byte) (new : List Event) : Prop where
  whole : (takesOf new).length = 32
  first : ∃ later e heard, new = later ++ e :: heard ∧ e.judges = true ∧
    (Lossless heard → takesOf new = (held ++ sentOf heard).take 32)

/-- A call that meets no failure and no reset hears the command out. -/
theorem vueCommandTask_heardOut {s : World} (idle : s.vars.curVueState = .idle)
    (clear : s.vars.bulkReset = 0#32) (selected : s.usb.selected = vueCartReaderOutEpAddr)
    (unstalled : s.usb.outStalled = false) :
    wp vueCommandTask (fun _ t => ∃ new, t.log = new ++ s.log ∧
      (Sound new → .resetRequest ∉ new → HeardOut s.usb.unread new)) Anywhere s := by
  rw [vueCommandTask, wp_bind, wp_state, wp_bind, note, wp_modify]
  refine wp.bind (commandStream_heard selected) fun ok t ends => ?_
  obtain ⟨heard, call⟩ := ends
  rw [wp_ite]
  refine ⟨fun yes => ?_, fun no => ⟨heard, call.received.log, fun _ unasked =>
    absurd (call.asked (by simpa using no) clear) unasked⟩⟩
  refine (judgeCommand_judged (call.state.trans idle)).mono (fun _ x ends => ?_) fun _ _ => trivial
  obtain ⟨more, judged⟩ := ends
  refine ⟨more ++ heard, by rw [judged.log, call.received.log, List.append_assoc],
    fun sound _ => ?_⟩
  have takes : takesOf (more ++ heard) = takesOf heard := by
    rw [takesOf, occurrences_append, judged.silent, List.append_nil]
  have count := call.count yes (Sound.append.mp sound).2
  obtain ⟨later, e, split, judges⟩ := judged.verdict
  refine ⟨by rw [takes, count], later, e, heard, by rw [split, List.append_assoc]; rfl, judges,
    fun lossless => ?_⟩
  have bytes := (call.conveyed unstalled lossless).taken
  rwa [count, ← takes] at bytes

/-- **The parser accepts exactly its format.** Between two rounds of any run, after
`USB_USBTask` and with a packet in the OUT bank of an idle firmware, let a call of
`VUE_Command_Task` take 32 bytes from the host, in whatever packets, with whatever requests
served in between. If a field is out of range, the endpoint is reset and stalled and the
state stays idle; if the length is zero, nothing happens; and otherwise the transfer begins
that the bytes ask for. Bytes 2, 3 and 16 to 31 are not looked at. A call that meets neither a
failure nor a reset does take 32 bytes, the first ones that the host has sent. -/
theorem vueCommandTask_parses {before polled s t : World} {i : Input} {new : List Event}
    (reached : Reachable before) (served : usbUsbTask (before.offer i) = .value () polled)
    (found : lookForOut polled = .value true s) (idle : s.vars.curVueState = .idle)
    (returned : vueCommandTask { s with log := .outReceived .idle :: s.log } = .value () t)
    (log : t.log = new ++ .outReceived .idle :: s.log) :
    (∀ packet : Vector Byte 32, takesOf new = packet.toList → Parsed packet new t) ∧
      (s.vars.bulkReset = 0#32 → s.usb.outStalled = false → Sound new → .resetRequest ∉ new →
        HeardOut s.usb.unread new) := by
  obtain ⟨start, inputs, started, run⟩ := reached
  have bus : BusInvariant before :=
    (mainLoop_keepsBus inputs start started.busInvariant).of_value run
  have offered : (before.offer i).BusReady :=
    ⟨⟨bus.ready.resting.low, bus.ready.resting.idle⟩, bus.ready.selects, bus.ready.header⟩
  have ready : polled.BusReady := ((usbUsbTask_served _).of_value served).ready offered
  have looked : wp lookForOut (fun found u => found = u.usb.outReceived ∧ Framed OfUsb polled u)
      Anywhere polled := by
    refine wp.bind ((endpointSelectEndpoint_framed _ polled).mono (fun _ _ moved => moved)
      fun _ _ => trivial) fun _ u moved => ?_
    exact ((endpointIsOutReceived_found u).and (endpointIsOutReceived_framed u)).mono
      (fun _ _ ends => ⟨ends.1, moved.trans ends.2⟩) fun _ _ => trivial
  obtain ⟨there, framed⟩ := looked.of_value found
  have ready : s.BusReady := (Served.of_framed framed).ready ready
  have selected : s.usb.selected = vueCartReaderOutEpAddr :=
    Usb.selected_of_outReceived there.symm
  refine ⟨fun packet taken => ?_, fun clear unstalled => ?_⟩
  · obtain ⟨same, log', parsed⟩ := (vueCommandTask_parsed
      (s := { s with log := .outReceived .idle :: s.log })
      ⟨ready.resting, ready.selects, ready.header⟩ idle selected packet).of_value returned
    obtain rfl := List.append_cancel_right (log'.symm.trans log)
    exact parsed taken
  · obtain ⟨same, log', heardOut⟩ := (vueCommandTask_heardOut
      (s := { s with log := .outReceived .idle :: s.log }) idle clear selected
      unstalled).of_value returned
    obtain rfl := List.append_cancel_right (log'.symm.trans log)
    exact heardOut

/-! ## A command in two packets -/

def wholeBytes : Vector Byte 32 := ⟨(commandBytes 0#8 1#8 0#8 3#32 7#32).toArray, by decide⟩

/-- The round in which the host asks for 7 bytes of the ROM, in packets of 20 and 12. -/
def wholeInput : Input :=
  ⟨plainCartridge,
    ⟨[], false⟩ :: ⟨[.sendOut ⟨wholeBytes.toList.take 20, by decide⟩], false⟩ ::
      (quietMoments 24 ++ ⟨[.sendOut ⟨wholeBytes.toList.drop 20, by decide⟩], false⟩ ::
        quietMoments 12),
    [none, none]⟩

def wholePolled : World := (usbUsbTask (configuredWorld.offer wholeInput)).state

def wholeFound : World := (lookForOut wholePolled).state

def wholeWorld : World := { wholeFound with log := .outReceived .idle :: wholeFound.log }

def wholeEnd : World := (vueCommandTask wholeWorld).state

theorem wholeWorld_returned : vueCommandTask wholeWorld = .value () wholeEnd :=
  Exit.eq_value (by decide +kernel)

theorem wholeWorld_log : ∃ new, wholeEnd.log = new ++ wholeWorld.log ∧
    takesOf new = wholeBytes.toList ∧ Sound new ∧ Calm new := by
  have idle : wholeWorld.vars.curVueState = .idle := by decide +kernel
  have selected : wholeWorld.usb.selected = vueCartReaderOutEpAddr := by decide +kernel
  obtain ⟨new, log, -⟩ := vueCommandTask_new idle selected wholeWorld_returned
  refine ⟨new, log, ?_⟩
  rw [new_eq_take log]
  decide +kernel

theorem vueCommandTask_parses_whole :
    ∃ new, TakenUp wholeBytes new wholeEnd ∧ wholeEnd.vars.curVueState = .read ∧
      wholeEnd.vars.bulkAddress = 0x0A000001#32 ∧ HeardOut wholeFound.usb.unread new := by
  have served : usbUsbTask (configuredWorld.offer wholeInput) = .value () wholePolled :=
    Exit.eq_value (by decide +kernel)
  have found : lookForOut wholePolled = .value true wholeFound :=
    Exit.eq_value (by decide +kernel)
  have state : wholeFound.vars.curVueState = .idle ∧ wholeFound.vars.bulkReset = 0#32 ∧
      wholeFound.usb.outStalled = false := by decide +kernel
  obtain ⟨idle, clear, unstalled⟩ := state
  obtain ⟨new, log, taken, sound, calm⟩ := wholeWorld_log
  obtain ⟨parsed, heardOut⟩ := vueCommandTask_parses configuredWorld_reachable served found idle
    wholeWorld_returned log
  have up := (parsed wholeBytes taken).takenUp (by decide +kernel) (by decide +kernel)
  have unasked : .resetRequest ∉ new := fun member => by cases calm _ member
  have state : (if operationOf wholeBytes = 0#32 then FsmState.read else .write) = .read := by
    decide +kernel
  have address : flagsOf wholeBytes[1] ||| ((addressOf wholeBytes &&& 0xFFFFFF#32) >>> 1) =
    0x0A000001#32 := by decide +kernel
  exact ⟨new, up, up.state.trans state, up.address.trans address,
    heardOut clear unstalled sound unasked⟩

end VueCartReader
