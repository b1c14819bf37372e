import VueCartReader.Board.Rounds

/-!
# Calls on one running address

After a full write of an address, any sequence of calls of the access routines
that share the running address finds it in the latches at every strobe, although
the high latch is not written again before the next page. Only what the previous
call left matters: the high latch holds the flags and the page of the address
before the running one, or the running address begins a page (`Board.Fresh`).
-/

set_option autoImplicit false

namespace VueCartReader

open Program

/-- A call of an access routine, but for its address. -/
structure Call where
  func : AccessFunc
  length : BitVec 8
  buffer : Buffer

/-- Calls one after the other, on one running address variable. -/
def runCalls : List Call → Rig → BitVec 32 → Option (Rig × BitVec 32)
  | [], rig, address => some (rig, address)
  | call :: rest, rig, address =>
      (call.func.call call.length rig address call.buffer).bind fun a =>
        runCalls rest a.rig a.address

/-- While a strobe is low, the latches hold the flags of an address and the word
address a number of accesses behind it. -/
def Board.Latched (address : BitVec 32) (n : Nat) (s : Board) : Prop :=
  s.strobing = true →
    s.flagLatch = flagBits address ∧ s.latchedAddress = wordAddress address + BitVec.ofNat 23 n

/-- Calls so far, since the rig in which the address was written whole. -/
structure Run (start : Rig) (origin : BitVec 32) (n : Nat) (rig : Rig) (address : BitVec 32) :
    Prop where
  low : rig.board.pl = false
  idle : rig.board.Idle
  running : address = vueIncAddress^[n] origin
  fresh : rig.board.Fresh address
  cycles : ∃ cs, Performs (Board.Latched origin) 0 start rig rig.board cs ∧ cs.length = n

/-- One call keeps the run going. -/
theorem Run.call {start rig : Rig} {origin address : BitVec 32} {n : Nat}
    (h : Run start origin n rig address) (call : Call) (inside : call.length.toNat ≤ 64) :
    ∃ a m, call.func.call call.length rig address call.buffer = some a ∧
      Run start origin (n + m) a.rig a.address := by
  obtain ⟨a, called, progress⟩ := call.func.call_spec inside rig h.low h.idle address call.buffer
  obtain ⟨cs, performs, count⟩ := h.cycles
  obtain ⟨ds, further, drives, -⟩ := progress.cycles
  have more : ds.length = rounds call.length.toNat call.func.step := by
    simpa using congrArg List.length drives
  have shifted : Performs (Board.Latched origin) (0 + cs.length) rig a.rig a.rig.board ds := by
    rw [Nat.zero_add, ← Nat.add_zero cs.length]
    refine further.shift fun k s step low => ?_
    obtain ⟨flags, word⟩ := step.latched h.fresh low
    rw [h.running, flagBits_iterate] at flags
    rw [h.running, wordAddress_iterate, BitVec.add_assoc, ← BitVec.ofNat_add] at word
    exact ⟨flags, by rw [count]; exact word⟩
  refine ⟨a, rounds call.length.toNat call.func.step, called, progress.low, progress.idle, ?_,
    progress.fresh h.fresh, _, performs.trans shifted, ?_⟩
  · rw [progress.running, h.running, ← Function.iterate_add_apply, Nat.add_comm]
  · rw [List.length_append, count, more]

theorem Run.calls {start : Rig} {origin : BitVec 32} (calls : List Call) :
    ∀ {n : Nat} {rig : Rig} {address : BitVec 32}, Run start origin n rig address →
      (∀ call ∈ calls, call.length.toNat ≤ 64) →
      ∃ rig' address' m, runCalls calls rig address = some (rig', address') ∧
        Run start origin m rig' address' := by
  induction calls with
  | nil => exact fun {n rig address} h _ => ⟨rig, address, n, rfl, h⟩
  | cons call rest ih =>
      intro n rig address h lengths
      obtain ⟨a, m, called, next⟩ := h.call call (lengths call (List.mem_cons_self ..))
      obtain ⟨rig', address', total, ran, final⟩ :=
        ih next fun other member => lengths other (List.mem_cons_of_mem _ member)
      exact ⟨rig', address', total, by rw [runCalls, called, Option.bind_some, ran], final⟩

/-- The full write starts a run. -/
theorem Run.start {r : Rig} (low : r.board.pl = false) (idle : r.board.Idle)
    (origin : BitVec 32) :
    Run (vueWriteAddressFull origin r) origin 0 (vueWriteAddressFull origin r) origin := by
  obtain ⟨_, _, board, _⟩ := vueWriteAddressFull_spec low origin
  refine ⟨?_, ?_, rfl, ?_, [], .refl _, rfl⟩
  · rw [board]
    exact low
  · rw [board]
    exact idle
  · rw [board]
    exact .inr ⟨rfl, rfl⟩

/-- **The fast path agrees with the full write on every run.** After a full write of
an address, whatever access routines are called on the running address, they
return, and whenever a strobe is low the latches hold the flags of the address
and the word address as many accesses behind it as are over. -/
theorem runCalls_latched (origin : BitVec 32) {r : Rig} (low : r.board.pl = false)
    (idle : r.board.Idle) (calls : List Call)
    (lengths : ∀ call ∈ calls, 1 ≤ call.length.toNat ∧ call.length.toNat ≤ 64) :
    ∃ rig address, runCalls calls (vueWriteAddressFull origin r) origin = some (rig, address) ∧
      ∀ before s after,
        rig.seen = (vueWriteAddressFull origin r).seen ++ (before ++ s :: after) →
        s.strobing = true →
        s.flagLatch = flagBits origin ∧
          s.latchedAddress = wordAddress origin +
            BitVec.ofNat 23
              (busCycles (vueWriteAddressFull origin r).board (before ++ [s])).length := by
  obtain ⟨rig, address, n, ran, run⟩ := (Run.start low idle origin).calls calls
    fun call member => (lengths call member).2
  refine ⟨rig, address, ran, fun before s after seen strobing => ?_⟩
  obtain ⟨cs, ⟨trace, settled, -, -, along⟩, -⟩ := run.cycles
  have here : trace = before ++ s :: after :=
    List.append_cancel_left (settled.seen.symm.trans seen)
  rw [here] at along
  have latched := along.of_split strobing
  rwa [Nat.zero_add] at latched

/-- Two words are written across a page boundary and read back. -/
theorem runCalls_latched_pages :
    let r : Rig := ⟨boardInit (fun _ _ => (0x12#8, 0x34#8)) 0#15 0#8 0#8, []⟩
    let calls : List Call :=
      [⟨.vueWriteData16bit, 4#8, .replicate 64 0xA5#8⟩,
        ⟨.vueReadData8bitHi, 1#8, .replicate 64 0#8⟩]
    let origin := 0x0A807FFF#32
    ∃ rig address, runCalls calls (vueWriteAddressFull origin r) origin = some (rig, address) ∧
      ∀ before s after,
        rig.seen = (vueWriteAddressFull origin r).seen ++ (before ++ s :: after) →
        s.strobing = true →
        s.flagLatch = flagBits origin ∧
          s.latchedAddress = wordAddress origin +
            BitVec.ofNat 23
              (busCycles (vueWriteAddressFull origin r).board (before ++ [s])).length :=
  runCalls_latched 0x0A807FFF#32 rfl ⟨rfl, rfl, rfl⟩ _ (by decide)

end VueCartReader
