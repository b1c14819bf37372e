import VueCartReader.Program.Basic

/-!
# Programs that keep to a budget

A program may use up something that the state holds, and be cut when there is none of it left.
`Returns left n m Q s` says that `m` returns if there are `n` units of it in `s`, that it ends in
`Q`, and that it uses no more than these. What a sequence uses is the sum of what its parts use, so
that a bound for a program is found by adding up.
-/

set_option autoImplicit false

namespace Program

variable {σ α β : Type}

/-- With `n` units left the program returns, in `Q`, and uses no more of them. -/
def Returns (left : σ → Nat) (n : Nat) (m : Prog σ α) (Q : α → σ → Prop) (s : σ) : Prop :=
  n ≤ left s → wp m (fun a t => Q a t ∧ left s ≤ left t + n) (fun _ => False) s

namespace Returns

variable {left : σ → Nat} {n k : Nat} {m : Prog σ α} {Q Q' : α → σ → Prop} {s : σ}

/-- A run that is known uses what is missing at its end. -/
theorem of_value {a : α} {t : σ} (run : m s = .value a t) (ends : Q a t)
    (used : left s ≤ left t + n) : Returns left n m Q s := by
  intro _
  rw [wp_of_value run]
  exact ⟨ends, used⟩

theorem pure {a : α} (ends : Q a s) : Returns left 0 (pure a) Q s :=
  of_value rfl ends (Nat.le_refl _)

theorem state_bind {f : σ → Prog σ α} (rest : Returns left n (f s) Q s) :
    Returns left n (Program.state >>= f) Q s := rest

theorem modify {f : σ → σ} {R : Unit → σ → Prop} (ends : R () (f s)) (kept : left (f s) = left s) :
    Returns left 0 (Program.modify f) R s :=
  of_value rfl ends (Nat.le_of_eq kept.symm)

theorem modify_bind {g : σ → σ} {f : Unit → Prog σ α} (kept : left (g s) = left s)
    (rest : Returns left n (f ()) Q (g s)) : Returns left n (Program.modify g >>= f) Q s := by
  intro enough
  rw [wp_bind, wp_modify, ← kept]
  exact rest (by rwa [kept])

/-- What a sequence uses is the sum of what its parts use. -/
theorem bind {f : α → Prog σ β} {R : β → σ → Prop} (first : Returns left n m Q s)
    (next : ∀ a t, Q a t → Returns left k (f a) R t) : Returns left (n + k) (m >>= f) R s := by
  intro enough
  refine wp.bind (first (by omega)) fun a t ends => ?_
  obtain ⟨ends, used⟩ := ends
  have rest := next a t ends (by omega)
  exact rest.mono (fun b u further => ⟨further.1, by omega⟩) fun _ => id

theorem mono (returns : Returns left n m Q s) (onValue : ∀ a t, Q a t → Q' a t) :
    Returns left n m Q' s := by
  intro enough
  exact (returns enough).mono (fun a t ends => ⟨onValue a t ends.1, ends.2⟩) fun _ => id

/-- More than is needed is enough. -/
theorem of_le (returns : Returns left n m Q s) (more : n ≤ k) : Returns left k m Q s := by
  intro enough
  exact (returns (Nat.le_trans more enough)).mono (fun a t ends => ⟨ends.1, by omega⟩) fun _ => id

/-- What is known of every end is known of this one. -/
theorem and {C : σ → Prop} (returns : Returns left n m Q s) (known : wp m Q' C s) :
    Returns left n m (fun a t => Q a t ∧ Q' a t) s := by
  intro enough
  exact ((returns enough).and known).mono (fun a t ends => ⟨⟨ends.1.1, ends.2⟩, ends.1.2⟩)
    fun _ ends => ends.1

theorem ite {c : Prop} [Decidable c] {m' : Prog σ α} (onTrue : c → Returns left n m Q s)
    (onFalse : ¬ c → Returns left n m' Q s) : Returns left n (if c then m else m') Q s := by
  by_cases h : c
  · rw [if_pos h]
    exact onTrue h
  · rw [if_neg h]
    exact onFalse h

theorem whenever {c : Prop} [Decidable c] {m : Prog σ Unit} {Q : Unit → σ → Prop}
    (onTrue : c → Returns left n m Q s) (onFalse : ¬ c → Q () s) :
    Returns left n (whenever c m) Q s :=
  ite onTrue fun h => (pure (onFalse h)).of_le (Nat.zero_le n)

/-- With enough of it the program returns. -/
theorem returned (returns : Returns left n m Q s) (enough : n ≤ left s) :
    ∃ a t, m s = .value a t ∧ Q a t := by
  obtain ⟨a, t, run, ends, -⟩ := exists_of_wp (returns enough)
  exact ⟨a, t, run, ends⟩

end Returns

end Program
