import Mathlib.Data.Nat.Basic
import Mathlib.Tactic.Ring

/-!
# Loops that count in a machine word

`for (i = 0; i < length; i += step)` with `i` and `length` in a word of `w`
bits. The counter wraps, so the loop need not end: when `length` is so close to
the largest value that `i` jumps over it, the loop runs for ever. `countLoop`
returns `none` then, and whenever the body has no result.

As long as `length + step` fits in the word, the loop is its body repeated
`⌈length / step⌉` times (`countLoop_eq_repeatM`), and an invariant of the body
that counts the accesses is an invariant of the loop (`repeatM_invariant`).
-/

set_option autoImplicit false

namespace Program

variable {α : Type}

/-- The body, `n` times over. -/
def repeatM (body : α → Option α) : Nat → α → Option α
  | 0, a => some a
  | n + 1, a => (body a).bind (repeatM body n)

/-- `for (; i < length; i += step) body`, given up after `fuel` tests. -/
def countLoop {w : Nat} (length step : BitVec w) (body : α → Option α) :
    Nat → BitVec w → α → Option α
  | 0, _, _ => none
  | fuel + 1, i, a =>
      if i < length then (body a).bind (countLoop length step body fuel (i + step)) else some a

/-- How often a loop to `length` in steps of `step` runs its body. -/
def rounds (length step : Nat) : Nat := (length + step - 1) / step

theorem rounds_one (length : Nat) : rounds length 1 = length := by
  simp [rounds]

theorem rounds_pos {length step : Nat} (pos : 0 < length) (stepPos : 0 < step) :
    0 < rounds length step :=
  Nat.div_pos (by omega) stepPos

/-- The counter is below the bound exactly as long as rounds are left. -/
theorem lt_length_iff_lt_rounds {length step k : Nat} (stepPos : 0 < step) :
    k * step < length ↔ k < rounds length step := by
  rw [rounds, Nat.lt_iff_add_one_le (m := k), Nat.le_div_iff_mul_le stepPos, Nat.add_mul]
  omega

theorem countLoop_eq_repeatM {w : Nat} {length step : BitVec w} (body : α → Option α)
    (stepPos : 0 < step.toNat) (room : length.toNat + step.toNat ≤ 2 ^ w) :
    ∀ (fuel k : Nat) (i : BitVec w) (a : α), i.toNat = k * step.toNat →
      rounds length.toNat step.toNat < k + fuel → k ≤ rounds length.toNat step.toNat →
      countLoop length step body fuel i a =
        repeatM body (rounds length.toNat step.toNat - k) a := by
  intro fuel
  induction fuel with
  | zero => intro k i a _ enough bound; omega
  | succ fuel ih =>
      intro k i a position enough bound
      have test : i < length ↔ k < rounds length.toNat step.toNat := by
        rw [BitVec.lt_def, position]
        exact lt_length_iff_lt_rounds stepPos
      by_cases more : k < rounds length.toNat step.toNat
      · have next : (i + step).toNat = (k + 1) * step.toNat := by
          have below : i.toNat < length.toNat := BitVec.lt_def.mp (test.mpr more)
          rw [BitVec.toNat_add, Nat.mod_eq_of_lt (by omega), position]
          ring
        have left : rounds length.toNat step.toNat - k =
            (rounds length.toNat step.toNat - (k + 1)) + 1 := by omega
        rw [countLoop, if_pos (test.mpr more), left, repeatM]
        congr 1
        funext b
        exact ih (k + 1) (i + step) b next (by omega) (by omega)
      · have done : rounds length.toNat step.toNat - k = 0 := by omega
        rw [countLoop, if_neg (fun h => more (test.mp h)), done, repeatM]

/-- An invariant indexed by the number of rounds done is carried through. -/
theorem repeatM_invariant {body : α → Option α} {n : Nat} {inv : Nat → α → Prop}
    (round : ∀ k a, k < n → inv k a → ∃ b, body a = some b ∧ inv (k + 1) b) :
    ∀ {a : α}, inv 0 a → ∃ b, repeatM body n a = some b ∧ inv n b := by
  have from_ : ∀ m k a, k + m = n → inv k a → ∃ b, repeatM body m a = some b ∧ inv n b := by
    intro m
    induction m with
    | zero =>
        intro k a total held
        exact ⟨a, rfl, by simpa [← total] using held⟩
    | succ m ih =>
        intro k a total held
        obtain ⟨b, step, next⟩ := round k a (by omega) held
        obtain ⟨c, rest, final⟩ := ih (k + 1) b (by omega) next
        exact ⟨c, by simp [repeatM, step, rest], final⟩
  intro a held
  exact from_ n 0 a (by omega) held

/-- What every round keeps, the loop keeps. -/
theorem countLoop_keeps {w : Nat} {length step : BitVec w} {body : α → Option α} {I : α → Prop}
    (round : ∀ a b, body a = some b → I a → I b) (fuel : Nat) :
    ∀ {i : BitVec w} {a b : α}, countLoop length step body fuel i a = some b → I a → I b := by
  induction fuel with
  | zero => exact fun looped => absurd looped (by simp [countLoop])
  | succ fuel ih =>
      intro i a b looped held
      rw [countLoop] at looped
      split at looped
      · obtain ⟨c, step, rest⟩ := Option.bind_eq_some_iff.mp looped
        exact ih rest (round a c step held)
      · cases looped
        exact held

/-- What a round leaves is left by a loop that goes round at least once. -/
theorem repeatM_last {body : α → Option α} {P : α → Prop}
    (round : ∀ a b, body a = some b → P b) {n : Nat} (some_ : 0 < n) {a b : α}
    (looped : repeatM body n a = some b) : P b := by
  induction n generalizing a with
  | zero => exact absurd some_ (lt_irrefl 0)
  | succ n ih =>
      simp only [repeatM, Option.bind_eq_some_iff] at looped
      obtain ⟨c, step, rest⟩ := looped
      cases n with
      | zero =>
          cases rest
          exact round a b step
      | succ n => exact ih (Nat.succ_pos n) rest

end Program
