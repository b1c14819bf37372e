import VueCartReader.Board.Running

/-!
# Where the strobes of a call go

A call of an access routine need not find the high latch loaded for its address: something else
may have written the latches in the meantime. Then its strobes go to the flags that are in the high
latch until the running address comes to the first word of a page. From there on they go where
they belong.

So if the flags in the latch are harmless (`S`) or the short way is right for the address
(`Board.Steered`), every cycle of a call finds harmless flags or is the intended one
(`AccessFunc.call_steered`), and the same can be said of the board it leaves.
-/

set_option autoImplicit false

namespace VueCartReader

open Program

/-! ## One round -/

/-- What holds of every state of a trace of which only the cycles matter. -/
abbrev Anyhow : Nat → Board → Prop := fun _ _ => True

/-- Writes to the AD ports between the strobes: no latch loads, no cycle ends. -/
structure Rig.Quiet (g : Rig → Rig) : Prop where
  performs : ∀ {r r' : Rig} {b : Board} {cs : List BusCycle}, Performs Anyhow 0 r r' b cs →
    b.pl = false → ∃ adl adh, Performs Anyhow 0 r (g r') { b with adl := adl, adh := adh } cs

namespace Rig.Quiet

theorem adlOut (x : Byte) : Rig.Quiet (Rig.adlOut x) where
  performs {_ _ b _} performs low := ⟨{ b.adl with out := x }, b.adh,
    performs.quietWrite
      (f := fun b => { b with adl := { b.adl with out := x } }) low rfl trivial rfl⟩

theorem adlDir (x : Byte) : Rig.Quiet (Rig.adlDir x) where
  performs {_ _ b _} performs low := ⟨{ b.adl with dir := x }, b.adh,
    performs.quietWrite
      (f := fun b => { b with adl := { b.adl with dir := x } }) low rfl trivial rfl⟩

theorem adhOut (x : Byte) : Rig.Quiet (Rig.adhOut x) where
  performs {_ _ b _} performs low := ⟨b.adl, { b.adh with out := x },
    performs.quietWrite
      (f := fun b => { b with adh := { b.adh with out := x } }) low rfl trivial rfl⟩

theorem adhDir (x : Byte) : Rig.Quiet (Rig.adhDir x) where
  performs {_ _ b _} performs low := ⟨b.adl, { b.adh with dir := x },
    performs.quietWrite
      (f := fun b => { b with adh := { b.adh with dir := x } }) low rfl trivial rfl⟩

theorem none : Rig.Quiet fun r => r where
  performs {_ _ b _} performs _ := ⟨b.adl, b.adh, performs⟩

theorem comp {g h : Rig → Rig} (second : Rig.Quiet g) (first : Rig.Quiet h) :
    Rig.Quiet fun r => g (h r) where
  performs performs low := by
    obtain ⟨adl, adh, once⟩ := first.performs performs low
    obtain ⟨adl', adh', twice⟩ := second.performs once low
    exact ⟨adl', adh', twice⟩

end Rig.Quiet

/-- What is stored goes into the buffer only. -/
theorem storePorts_keeps (ports : List (Board → Byte)) (board : Board) {a c : Access}
    (stored : ports.foldlM (fun (a : Access) port => a.store (port board)) a = some c) :
    c.rig = a.rig ∧ c.address = a.address := by
  induction ports generalizing a with
  | nil =>
      cases stored
      exact ⟨rfl, rfl⟩
  | cons port rest ih =>
      rw [List.foldlM_cons] at stored
      obtain ⟨d, once, more⟩ := Option.bind_eq_some_iff.mp stored
      unfold Access.store at once
      split at once
      · cases once
        exact ih (a := { a with buffer := _, pos := a.pos + 1 }) more
      · cases once

/-- What is fetched for some ports is written to them one after the other. -/
theorem fetch_quiet {ports : List (Byte → Rig → Rig)}
    (quiet : ∀ port ∈ ports, ∀ x, Rig.Quiet (port x)) :
    ∀ {a c : Access}, ports.foldlM (fun (a : Access) port => a.fetch port) a = some c →
      c.address = a.address ∧ ∃ g, Rig.Quiet g ∧ c.rig = g a.rig := by
  induction ports with
  | nil =>
      intro a c fetched
      cases fetched
      exact ⟨rfl, _, .none, rfl⟩
  | cons port rest ih =>
      intro a c fetched
      rw [List.foldlM_cons] at fetched
      obtain ⟨d, once, more⟩ := Option.bind_eq_some_iff.mp fetched
      obtain ⟨address, g, later, rig⟩ :=
        ih (fun p member => quiet p (List.mem_cons_of_mem _ member)) more
      unfold Access.fetch at once
      split at once
      · cases once
        exact ⟨address, _, later.comp (quiet port (List.mem_cons_self ..) _), rig⟩
      · cases once

/-- A round of a routine: the address is written, then one cycle is performed. -/
structure OneCycle (a b : Access) : Prop where
  address : b.address = vueIncAddress a.address
  ctrl : b.rig.board.ctrl = a.rig.board.ctrl
  latches : b.rig.board.latches = (a.rig.board.afterAddress a.address).latches
  cycle : ∃ y : BusCycle, Performs Anyhow 0 a.rig b.rig b.rig.board [y] ∧
    y.flags = b.rig.board.flagLatch ∧ y.address = b.rig.board.latchedAddress

section Round

variable {a b : Access} (low : a.rig.board.pl = false) (idle : a.rig.board.Idle)
include low idle

/-- The strobes of a mask pulse once the address and the data have been written. -/
theorem oneCycle_of_pulse {g : Rig → Rig} (quiet : Rig.Quiet g) {m : Byte} (mask : IsStrobeMask m)
    (only : m &&& ~~~(vueNOe ||| vueNUwr ||| vueNLwr) = 0#8)
    (rig : b.rig = ((g (vueWriteAddress a.address a.rig)).ctrlAnd (~~~m)).ctrlOr m)
    (address : b.address = vueIncAddress a.address) : OneCycle a b := by
  have addressed : Performs Anyhow 0 a.rig (vueWriteAddress a.address a.rig)
      (a.rig.board.afterAddress a.address) [] :=
    .of_reaches (vueWriteAddress_spec low a.address) idle fun s step => ⟨step.idle idle, trivial⟩
  have ctrl : (a.rig.board.afterAddress a.address).ctrl = a.rig.board.ctrl :=
    Board.afterAddress_ctrl _ _
  have still : (a.rig.board.afterAddress a.address).pl = false := by
    rw [Board.pl, ctrl]
    exact low
  obtain ⟨adl, adh, staged⟩ := quiet.performs addressed still
  have quietly :
      ({ a.rig.board.afterAddress a.address with adl := adl, adh := adh } : Board).Idle := by
    rw [Board.Idle, Board.nOE, Board.nUWR, Board.nLWR, ctrl]
    exact idle
  have pulsed := staged.pulse mask only still quietly trivial trivial
  rw [← rig] at pulsed
  have board := pulsed.board
  rw [← board] at pulsed
  exact ⟨address, by rw [board]; exact ctrl, by rw [board]; rfl, _, pulsed, rfl, rfl⟩

theorem readRound_oneCycle (ports : List (Board → Byte)) (round : readRound ports a = some b) :
    OneCycle a b := by
  obtain ⟨c, stored, rfl⟩ := Option.map_eq_some_iff.mp round
  obtain ⟨rig, address⟩ := storePorts_keeps ports _ stored
  exact oneCycle_of_pulse low idle .none (m := vueNOe) ⟨rfl, rfl⟩ rfl (by rw [rig]) address

theorem writeRound_oneCycle {ports : List (Byte → Rig → Rig)} {turn : Rig → Rig} {m : Byte}
    (quiet : ∀ port ∈ ports, ∀ x, Rig.Quiet (port x)) (turns : Rig.Quiet turn)
    (mask : IsStrobeMask m) (only : m &&& ~~~(vueNOe ||| vueNUwr ||| vueNLwr) = 0#8)
    (round : writeRound ports turn m a = some b) : OneCycle a b := by
  obtain ⟨c, fetched, rfl⟩ := Option.map_eq_some_iff.mp round
  obtain ⟨address, g, fetches, rig⟩ := fetch_quiet quiet fetched
  exact oneCycle_of_pulse low idle (turns.comp fetches) mask only (by rw [rig])
    (congrArg vueIncAddress address)

end Round

/-! ## A call -/

/-- The flags in the latch are harmless, or the short way is right for the address. -/
def Board.Steered (S : Byte → Prop) (b : Board) (address : BitVec 32) : Prop :=
  S b.flagLatch ∨ b.Fresh address

/-- The `n`-th cycle behind an address finds harmless flags, or is in its place. -/
def BusCycle.Steered (S : Byte → Prop) (address : BitVec 32) (n : Nat) (y : BusCycle) : Prop :=
  S y.flags ∨ y.flags = flagBits address ∧ y.address = wordAddress address + BitVec.ofNat 23 n

/-- What holds after some rounds of a call. -/
structure SteeredCall (S : Byte → Prop) (base : Rig) (address : BitVec 32) (a : Access) : Prop where
  low : a.rig.board.pl = false
  idle : a.rig.board.Idle
  steered : a.rig.board.Steered S a.address
  cycles : ∃ cs, Performs Anyhow 0 base a.rig a.rig.board cs ∧
    a.address = vueIncAddress^[cs.length] address ∧
    ∀ (j : Nat) (y : BusCycle), cs[j]? = some y → y.Steered S address j

namespace SteeredCall

variable {S : Byte → Prop} {base : Rig} {address : BitVec 32} {a b : Access}

theorem start (low : base.board.pl = false) (idle : base.board.Idle)
    (steered : base.board.Steered S address) (buffer : Buffer) :
    SteeredCall S base address ⟨base, address, buffer, 0⟩ :=
  ⟨low, idle, steered, [], .refl base, rfl, fun _ _ none_ => by cases none_⟩

/-- One more round: the latches are loaded whole, or keep their flags. -/
theorem round (h : SteeredCall S base address a) (once : OneCycle a b) :
    SteeredCall S base address b := by
  obtain ⟨cs, performs, running, each⟩ := h.cycles
  obtain ⟨y, cycle, flags, word⟩ := once.cycle
  have flagLatch : b.rig.board.flagLatch = (a.rig.board.afterAddress a.address).flagLatch :=
    congrArg (fun l : BitVec 15 × Byte × Byte => l.2.1) once.latches
  have pageLatch : b.rig.board.pageLatch = (a.rig.board.afterAddress a.address).pageLatch :=
    congrArg (fun l : BitVec 15 × Byte × Byte => l.2.2) once.latches
  have latched : b.rig.board.latchedAddress =
      (a.rig.board.afterAddress a.address).latchedAddress := by
    have lowLatch : b.rig.board.lowLatch = (a.rig.board.afterAddress a.address).lowLatch :=
      congrArg (fun l : BitVec 15 × Byte × Byte => l.1) once.latches
    rw [Board.latchedAddress, pageLatch, lowLatch]
    rfl
  have here : y.Steered S address cs.length ∧ b.rig.board.Steered S b.address := by
    by_cases fresh : a.rig.board.Fresh a.address
    · have eq := fresh.afterAddress_eq
      have holds : b.rig.board.HoldsHigh a.address := by
        rw [Board.HoldsHigh, flagLatch, pageLatch, eq]
        exact ⟨rfl, rfl⟩
      refine ⟨.inr ⟨?_, ?_⟩, .inr ?_⟩
      · rw [flags, holds.1, running, flagBits_iterate]
      · rw [word, latched, eq, Board.latchedAddress_addressed, running, wordAddress_iterate]
      · rw [once.address]
        exact holds.fresh_vueIncAddress
    · have harmless : S b.rig.board.flagLatch := by
        rw [flagLatch, Board.afterAddress, if_neg fun zero => fresh (.inl zero)]
        exact h.steered.resolve_right fresh
      exact ⟨.inl (by rw [flags]; exact harmless), .inl harmless⟩
  refine ⟨?_, ?_, here.2, cs ++ [y], ?_, ?_, fun j z found => ?_⟩
  · rw [Board.pl, once.ctrl]
    exact h.low
  · rw [Board.Idle, Board.nOE, Board.nUWR, Board.nLWR, once.ctrl]
    exact h.idle
  · have later := cycle.shift (m := cs.length) (Q := Anyhow) fun _ _ _ => trivial
    rw [Nat.add_comm] at later
    exact performs.trans later
  · rw [once.address, running, List.length_append, List.length_singleton,
      Function.iterate_succ_apply']
  · by_cases old : j < cs.length
    · rw [List.getElem?_append_left old] at found
      exact each j z found
    · have last : j = cs.length := by
        have bound := (List.getElem?_eq_some_iff.mp found).1
        rw [List.length_append, List.length_singleton] at bound
        omega
      rw [last, List.getElem?_append_right (le_refl _), Nat.sub_self] at found
      cases found
      rw [last]
      exact here.1

/-- The ports are written once more. -/
theorem quiet (h : SteeredCall S base address a) {g : Rig → Rig} (quiet : Rig.Quiet g) :
    SteeredCall S base address { a with rig := g a.rig } := by
  obtain ⟨cs, performs, running, each⟩ := h.cycles
  obtain ⟨adl, adh, written⟩ := quiet.performs performs h.low
  have board := written.board
  rw [← board] at written
  refine ⟨?_, ?_, ?_, cs, written, running, each⟩
  · rw [board]
    exact h.low
  · rw [board]
    exact h.idle
  · rw [board]
    exact h.steered

end SteeredCall

/-- **Where the strobes of a call go.** -/
theorem AccessFunc.call_steered {S : Byte → Prop} {f : AccessFunc} {length : BitVec 8} {base : Rig}
    {address : BitVec 32} {buffer : Buffer} {a : Access}
    (called : f.call length base address buffer = some a) (low : base.board.pl = false)
    (idle : base.board.Idle) (steered : base.board.Steered S address) :
    SteeredCall S base address a := by
  have looped {step : BitVec 8} {body : Access → Option Access} {a : Access}
      (round : ∀ {a b : Access}, a.rig.board.pl = false → a.rig.board.Idle → body a = some b →
        OneCycle a b)
      (looped : countLoop length step body 256 0#8 ⟨base, address, buffer, 0⟩ = some a) :
      SteeredCall S base address a :=
    countLoop_keeps (I := SteeredCall S base address)
      (fun a b once held => held.round (round held.low held.idle once)) _ looped
      (.start low idle steered buffer)
  cases f with
  | vueReadData16bit => exact looped (fun low idle => readRound_oneCycle low idle _) called
  | vueReadData8bitLo => exact looped (fun low idle => readRound_oneCycle low idle _) called
  | vueReadData8bitHi => exact looped (fun low idle => readRound_oneCycle low idle _) called
  | vueWriteData16bit =>
      obtain ⟨c, ran, rfl⟩ := Option.map_eq_some_iff.mp called
      have held := looped (fun low idle => writeRound_oneCycle low idle
        (fun port member x => by
          rcases List.mem_pair.mp member with rfl | rfl
          · exact .adlOut x
          · exact .adhOut x)
        (.comp (.adhDir _) (.adlDir _)) ⟨rfl, rfl⟩ rfl) ran
      have free : Rig.Quiet releaseBus :=
        .comp (g := Rig.adhDir _) (.adhDir _) (.comp (.adhOut _) (.comp (.adlDir _) (.adlOut _)))
      exact held.quiet free
  | vueWriteData8bitLo =>
      obtain ⟨c, ran, rfl⟩ := Option.map_eq_some_iff.mp called
      have held := looped (fun low idle => writeRound_oneCycle low idle
        (fun port member x => by rw [List.mem_singleton.mp member]; exact .adlOut x) (.adlDir _)
        ⟨rfl, rfl⟩ rfl) ran
      exact held.quiet (.comp (.adlDir _) (.adlOut _))
  | vueWriteData8bitHi =>
      obtain ⟨c, ran, rfl⟩ := Option.map_eq_some_iff.mp called
      have held := looped (fun low idle => writeRound_oneCycle low idle
        (fun port member x => by rw [List.mem_singleton.mp member]; exact .adhOut x) (.adlDir _)
        ⟨rfl, rfl⟩ rfl) ran
      exact held.quiet (.comp (.adhDir _) (.adhOut _))

end VueCartReader
