import VueCartReader.Board.Cycle
import VueCartReader.Device.Bus

/-!
# A cartridge that remembers

A bus cycle whose write strobes rise stores the bytes on the written lanes in the word that is
latched, in the chip that is selected. A lane that floats stores some byte, `stray`; a lane that is
not written, and a word that is not latched, keep what they hold.

`Cartridge.after stray m cs` is what a cartridge holds after some cycles. What no cycle touches is
as before (`after_untouched`), and cycles that go through different words one by one leave what each
of them carries (`after_run`).
-/

set_option autoImplicit false

namespace VueCartReader

/-- The bits of the flags that select chips. -/
def chips (flags : Byte) : Byte := flags &&& 0x16#8

namespace Lane

/-- The lane is written. -/
def writes : Lane → Bool
  | driven _ | floating => true
  | _ => false

/-- What a byte of a word is after a cycle. -/
def stored (stray old : Byte) : Lane → Byte
  | driven x => x
  | floating => stray
  | _ => old

theorem stored_of_not_writes {stray old : Byte} {lane : Lane} (quiet : lane.writes = false) :
    lane.stored stray old = old := by
  cases lane <;> first | rfl | cases quiet

end Lane

/-- A lane whose strobe does not rise is not written. -/
theorem AvrGpio.lane_writes (port : AvrGpio) : (port.lane false).writes = false := by
  unfold AvrGpio.lane
  split <;> first | contradiction | split <;> rfl

/-- A lane is written. -/
def Drive.writes (d : Drive) : Bool := d.lower.writes || d.upper.writes

/-- A cycle writes a word of a chip. -/
structure BusCycle.Touches (y : BusCycle) (flags : Byte) (word : BitVec 23) : Prop where
  writes : y.drive.writes = true
  selects : noSelect y.flags = false
  chip : chips flags = chips y.flags
  word : word = y.address

namespace Cartridge

/-- The cartridge after a cycle. -/
def write (stray : Byte) (m : Cartridge) (y : BusCycle) : Cartridge := fun flags word =>
  if noSelect y.flags = false ∧ chips flags = chips y.flags ∧ word = y.address then
    (y.drive.lower.stored stray (m flags word).1, y.drive.upper.stored stray (m flags word).2)
  else m flags word

/-- The cartridge after some cycles. -/
def after (stray : Byte) (m : Cartridge) (cs : List BusCycle) : Cartridge :=
  cs.foldl (write stray) m

variable (stray : Byte) (m : Cartridge)

@[simp] theorem after_nil : after stray m [] = m := rfl

theorem after_append (first second : List BusCycle) :
    after stray m (first ++ second) = after stray (after stray m first) second :=
  List.foldl_append ..

theorem write_untouched {y : BusCycle} {flags : Byte} {word : BitVec 23}
    (untouched : ¬ y.Touches flags word) : write stray m y flags word = m flags word := by
  unfold write
  split
  · rename_i here
    have quiet : y.drive.writes = false := by
      by_contra writes
      exact untouched ⟨by simpa using writes, here.1, here.2.1, here.2.2⟩
    rw [Drive.writes, Bool.or_eq_false_iff] at quiet
    rw [Lane.stored_of_not_writes quiet.1, Lane.stored_of_not_writes quiet.2]
  · rfl

/-- What no cycle touches is as before. -/
theorem after_untouched {cs : List BusCycle} {flags : Byte} {word : BitVec 23}
    (untouched : ∀ y ∈ cs, ¬ y.Touches flags word) :
    after stray m cs flags word = m flags word := by
  induction cs generalizing m with
  | nil => rfl
  | cons y rest ih =>
      have later := ih (write stray m y) fun z member => untouched z (List.mem_cons_of_mem _ member)
      exact later.trans (write_untouched stray m (untouched y (List.mem_cons_self ..)))

/-- Cycles that write nothing leave the cartridge as it was. -/
theorem after_quiet {cs : List BusCycle} (quiet : ∀ y ∈ cs, y.drive.writes = false) :
    after stray m cs = m := by
  funext flags word
  exact after_untouched stray m fun y member touches =>
    Bool.false_ne_true ((quiet y member).symm.trans touches.writes)

/-- A run of cycles through the words from some address on leaves in each of them what its cycle
carries, if no word comes twice. -/
theorem after_run {flags chip : Byte} (selects : noSelect flags = false)
    (same : chips chip = chips flags) (first : BitVec 23)
    (drive : Nat → Drive) {n : Nat} (fits : n ≤ 2 ^ 23) {k : Nat} (inside : k < n) :
    after stray m ((List.range n).map fun k => ⟨flags, first + BitVec.ofNat 23 k, drive k⟩) chip
        (first + BitVec.ofNat 23 k) =
      ((drive k).lower.stored stray (m chip (first + BitVec.ofNat 23 k)).1,
        (drive k).upper.stored stray (m chip (first + BitVec.ofNat 23 k)).2) := by
  -- the other words of the run are different ones
  have apart {i : Nat} (bound : i < n) (other : i ≠ k) :
      ¬ (⟨flags, first + BitVec.ofNat 23 i, drive i⟩ : BusCycle).Touches chip
        (first + BitVec.ofNat 23 k) := by
    intro touches
    have same := congrArg (fun x : BitVec 23 => (x - first).toNat) touches.word
    simp only [BitVec.toNat_sub, BitVec.toNat_add, BitVec.toNat_ofNat] at same
    have := first.isLt
    omega
  obtain ⟨later, rfl⟩ := Nat.exists_eq_add_of_lt inside
  rw [Nat.add_assoc, Nat.add_comm later, ← Nat.add_assoc, List.range_add, List.range_succ,
    List.map_append, List.map_append, after_append, after_append]
  rw [after_untouched, List.map_singleton, after, List.foldl_cons, List.foldl_nil, write,
    if_pos ⟨selects, same, rfl⟩]
  · show (Lane.stored stray (after stray m _ _ _).1 _,
      Lane.stored stray (after stray m _ _ _).2 _) = _
    rw [after_untouched]
    intro y member
    obtain ⟨i, below, rfl⟩ := List.mem_map.mp member
    have below := List.mem_range.mp below
    exact apart (by omega) (by omega)
  · intro y member
    simp only [List.map_map, List.mem_map, List.mem_range, Function.comp_apply] at member
    obtain ⟨i, below, rfl⟩ := member
    exact apart (by omega) (by omega)

end Cartridge

end VueCartReader
