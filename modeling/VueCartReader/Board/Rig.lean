import VueCartReader.Board.Pins
import VueCartReader.Program.Waveform

/-!
# Following port writes

What one port write does to the latches, and how the states seen by a sequence of
writes compose. `Settled r r' trace` says that `r'` comes from `r` by writes whose
states were `trace`; it is what the routines are reasoned about with, so that no
proof looks into the recorded list itself.
-/

set_option autoImplicit false

namespace VueCartReader

namespace Board

variable {before after : Board}

/-! ## When the latches load -/

theorem settle_low (low : before.pl = false) (still : after.pl = false) :
    settle before after = after := by
  simp [settle, loadLow, loadHigh, highLoad, low, still]

theorem settle_rise (low : before.pl = false) (high : after.pl = true) :
    settle before after =
      { after with lowLatch := (after.adhIn ++ after.adlIn).setWidth 15 } := by
  simp [settle, loadLow, loadHigh, highLoad, low, high]

theorem settle_keep (high : before.pl = true)
    (keep : before.highLoad = true → after.highLoad = true) : settle before after = after := by
  cases load : before.highLoad with
  | false => simp [settle, loadLow, loadHigh, load, high]
  | true => simp [settle, loadLow, loadHigh, load, high, keep load]

theorem settle_fall (was : before.highLoad = true) (fallen : after.highLoad = false) :
    settle before after = { after with flagLatch := after.adlIn, pageLatch := after.adhIn } := by
  have high : before.pl = true := by
    unfold highLoad at was
    exact (Bool.and_eq_true_iff.mp was).1
  simp [settle, loadLow, loadHigh, was, fallen, high]

/-! ## Levels of driven lines -/

theorem and_allOnes_byte (x : Byte) : x &&& 0xFF#8 = x := BitVec.and_allOnes

theorem adlIn_output {b : Board} (output : b.adl.dir = 0xFF#8) : b.adlIn = b.adl.out := by
  simp [adlIn, output, and_allOnes_byte]

theorem adhIn_output {b : Board} (output : b.adh.dir = 0xFF#8) : b.adhIn = b.adh.out := by
  simp [adhIn, output, and_allOnes_byte]

/-- A strobe is low. -/
def strobing (b : Board) : Bool := !b.nOE || !b.nUWR || !b.nLWR

/-- The three strobes are high. -/
def Idle (b : Board) : Prop := b.nOE = true ∧ b.nUWR = true ∧ b.nLWR = true

theorem Idle.not_strobing {b : Board} (idle : b.Idle) : b.strobing = false := by
  obtain ⟨oe, uwr, lwr⟩ := idle
  simp [strobing, oe, uwr, lwr]

end Board

/-- One state comes from another by a write to a port register, which the latches
follow. -/
def Board.Wrote (before after : Board) : Prop :=
  ∃ ports : Board, ports.latches = before.latches ∧ after = Board.settle before ports

/-- Between two states with `PL` low the latches stand still. -/
theorem Board.Wrote.latches_eq {before after : Board} (wrote : Board.Wrote before after)
    (low : before.pl = false) (still : after.pl = false) : after.latches = before.latches := by
  obtain ⟨ports, same, rfl⟩ := wrote
  have ctrl : (Board.settle before ports).ctrl = ports.ctrl := by
    unfold Board.settle Board.loadLow Board.loadHigh
    split <;> split <;> rfl
  have portsLow : ports.pl = false := by rwa [Board.pl, ctrl] at still
  rw [Board.settle_low low portsLow, same]

/-! ## Traces -/

/-- Every state of the trace comes from the one before by a write to a port. -/
def Writes : Board → List Board → Prop
  | _, [] => True
  | before, after :: rest => Board.Wrote before after ∧ Writes after rest

/-- The second rig is the first after writes that took the board through the
states of the trace. -/
structure Settled (r r' : Rig) (trace : List Board) : Prop where
  seen : r'.seen = r.seen ++ trace
  last : r'.board = trace.getLastD r.board
  writes : Writes r.board trace

namespace Settled

theorem refl (r : Rig) : Settled r r [] := ⟨(List.append_nil _).symm, rfl, trivial⟩

theorem writes_append {start : Board} {first second : List Board} :
    Writes start (first ++ second) ↔ Writes start first ∧ Writes (first.getLastD start) second := by
  induction first generalizing start with
  | nil => simp [Writes]
  | cons after rest ih => rw [List.cons_append, Writes, Writes, ih, List.getLastD_cons, and_assoc]

theorem getLastD_append {α : Type} (first second : List α) (start : α) :
    (first ++ second).getLastD start = second.getLastD (first.getLastD start) := by
  induction first generalizing start with
  | nil => rfl
  | cons x rest ih => rw [List.cons_append, List.getLastD_cons, List.getLastD_cons, ih]

theorem trans {r r' r'' : Rig} {first second : List Board} (one : Settled r r' first)
    (two : Settled r' r'' second) : Settled r r'' (first ++ second) where
  seen := by rw [two.seen, one.seen, List.append_assoc]
  last := by rw [two.last, one.last, getLastD_append]
  writes := writes_append.mpr ⟨one.writes, by rw [← one.last]; exact two.writes⟩

end Settled

/-- The second rig comes from the first by writes that end with the board `b` and
whose states all satisfy `P`. -/
def Reaches (P : Board → Prop) (r r' : Rig) (b : Board) : Prop :=
  ∃ trace, Settled r r' trace ∧ r'.board = b ∧ ∀ seen ∈ trace, P seen

namespace Reaches

variable {P : Board → Prop} {r r' r'' : Rig} {b c : Board}

theorem refl (r : Rig) : Reaches P r r r.board :=
  ⟨[], Settled.refl r, rfl, fun _ member => nomatch member⟩

theorem trans (one : Reaches P r r' b) (two : Reaches P r' r'' c) : Reaches P r r'' c := by
  obtain ⟨first, settled, -, all⟩ := one
  obtain ⟨second, settled', board, all'⟩ := two
  refine ⟨first ++ second, settled.trans settled', board, fun seen member => ?_⟩
  rcases List.mem_append.mp member with early | late
  · exact all seen early
  · exact all' seen late

theorem mono {Q : Board → Prop} (h : Reaches P r r' b) (weaker : ∀ s, P s → Q s) :
    Reaches Q r r' b := by
  obtain ⟨trace, settled, board, all⟩ := h
  exact ⟨trace, settled, board, fun seen member => weaker seen (all seen member)⟩

/-- One more write, whose settled state is known. -/
theorem write (h : Reaches P r r' b) {f : Board → Board} (settles : Board.settle b (f b) = c)
    (ok : P c) (latches : (f b).latches = b.latches) : Reaches P r (r'.write f) c := by
  obtain ⟨trace, settled, board, all⟩ := h
  have last : (r'.write f).board = c := by rw [← settles, ← board]; rfl
  refine ⟨trace ++ [c], settled.trans ⟨?_, last, ⟨f b, ?_, ?_⟩, trivial⟩, last,
    fun seen member => ?_⟩
  · rw [← last]; rfl
  · rw [board]; exact latches
  · rw [board]; exact settles.symm
  · rcases List.mem_append.mp member with early | late
    · exact all seen early
    · rw [List.mem_singleton.mp late]; exact ok

/-! ## Writes to the AD ports while `PL` is low -/

section Low

variable (h : Reaches P r r' b) (x : Byte) (low : b.pl = false)
include h low

theorem adlDir (ok : P { b with adl := { b.adl with dir := x } }) :
    Reaches P r (r'.adlDir x) { b with adl := { b.adl with dir := x } } :=
  h.write (Board.settle_low low low) ok rfl

theorem adlOut (ok : P { b with adl := { b.adl with out := x } }) :
    Reaches P r (r'.adlOut x) { b with adl := { b.adl with out := x } } :=
  h.write (Board.settle_low low low) ok rfl

theorem adhDir (ok : P { b with adh := { b.adh with dir := x } }) :
    Reaches P r (r'.adhDir x) { b with adh := { b.adh with dir := x } } :=
  h.write (Board.settle_low low low) ok rfl

theorem adhOut (ok : P { b with adh := { b.adh with out := x } }) :
    Reaches P r (r'.adhOut x) { b with adh := { b.adh with out := x } } :=
  h.write (Board.settle_low low low) ok rfl

/-- So do writes to the control port that leave `PL` low. -/
theorem ctrlOr (still : (b.ctrl.out ||| x).getLsbD 2 = false)
    (ok : P { b with ctrl := { b.ctrl with out := b.ctrl.out ||| x } }) :
    Reaches P r (r'.ctrlOr x) { b with ctrl := { b.ctrl with out := b.ctrl.out ||| x } } :=
  h.write (Board.settle_low low still) ok rfl

theorem ctrlAnd (ok : P { b with ctrl := { b.ctrl with out := b.ctrl.out &&& x } }) :
    Reaches P r (r'.ctrlAnd x) { b with ctrl := { b.ctrl with out := b.ctrl.out &&& x } } := by
  have still : (b.ctrl.out &&& x).getLsbD 2 = false := by
    have bit : b.ctrl.out.getLsbD 2 = false := low
    rw [BitVec.getLsbD_and, bit, Bool.false_and]
  exact h.write (Board.settle_low low still) ok rfl

end Low

end Reaches

end VueCartReader
