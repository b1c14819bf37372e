import Mathlib.Order.Defs.Unbundled

/-!
# Programs over a state, observed until they are cut

A program takes a state and either returns a value with the state it leaves, or
is cut: the observation of the run ends while the program is still under way.
The state at the cut is kept, so that what the run has done so far can still be
talked about.

`wp m Q C s` says that the program `m`, started in `s`, ends in `Q` if it
returns and in `C` if it is cut. The rules for the constructs are
equivalences, so a straight-line program is computed by rewriting with them,
and a call is replaced by what is known about it with `wp.mono`.

`Moves R m` says that `m` relates its initial state to its final state by `R`,
returned or cut. When `R` is a preorder this is closed under sequencing. `Stays I C m`
says that `m` keeps the invariant `I`, and that `C` holds when it is cut.
-/

set_option autoImplicit false

namespace Program

/-- What a run leaves: a value and a state, or the state at which it was cut. -/
inductive Exit (σ α : Type) where
  | value (result : α) (state : σ)
  | cut (state : σ)

/-- The state a run leaves, returned or cut. -/
def Exit.state {σ α : Type} : Exit σ α → σ
  | .value _ s => s
  | .cut s => s

/-- The value, if the run returned. -/
def Exit.result {σ α : Type} : Exit σ α → Option α
  | .value a _ => some a
  | .cut _ => none

theorem Exit.eq_value {σ α : Type} {e : Exit σ α} {a : α} (h : e.result = some a) :
    e = .value a e.state := by
  cases e with
  | value b s =>
      cases h
      rfl
  | cut s => exact nomatch h

/-- A program over the states `σ` that returns values of `α`. -/
def Prog (σ α : Type) : Type := σ → Exit σ α

variable {σ α β : Type}

/-- Return a value and change nothing. -/
def ret (a : α) : Prog σ α := fun s => .value a s

/-- Run a program, then the one its value selects. -/
def andThen (m : Prog σ α) (f : α → Prog σ β) : Prog σ β := fun s =>
  match m s with
  | .value a t => f a t
  | .cut t => .cut t

instance : Monad (Prog σ) where
  pure := ret
  bind := andThen

/-- The current state. -/
def state : Prog σ σ := fun s => .value s s

/-- Change the state by a function. -/
def modify (f : σ → σ) : Prog σ Unit := fun s => .value () (f s)

/-- The observation ends here. -/
def stop : Prog σ α := fun s => .cut s

instance : LawfulMonad (Prog σ) := .mk' (Prog σ)
  (fun m => funext fun s => by
    show andThen m (fun a => ret a) s = m s
    unfold andThen ret
    cases m s <;> rfl)
  (fun _ _ => rfl)
  (fun m f g => funext fun s => by
    show andThen (andThen m f) g s = andThen m (fun a => andThen (f a) g) s
    unfold andThen
    cases m s <;> rfl)

/-- A conditional without an alternative. -/
def whenever (c : Prop) [Decidable c] (m : Prog σ Unit) : Prog σ Unit :=
  if c then m else pure ()

/-! ## Running -/

theorem state_bind (f : σ → Prog σ α) (s : σ) : (Program.state >>= f) s = f s s := rfl

theorem modify_bind (g : σ → σ) (f : Unit → Prog σ α) (s : σ) :
    (Program.modify g >>= f) s = f () (g s) := rfl

/-- A sequence whose first part returns. -/
theorem bind_of_value {m : Prog σ α} {f : α → Prog σ β} {s t : σ} {a : α}
    (run : m s = .value a t) : (m >>= f) s = f a t := by
  show andThen m f s = _
  rw [andThen, run]

/-! ## Weakest preconditions -/

/-- Started in `s`, the program ends in `Q` if it returns and in `C` if it is
cut. -/
def wp (m : Prog σ α) (Q : α → σ → Prop) (C : σ → Prop) (s : σ) : Prop :=
  match m s with
  | .value a t => Q a t
  | .cut t => C t

section Rules

variable {Q Q' : α → σ → Prop} {C C' : σ → Prop} {s : σ}

@[simp] theorem wp_pure (a : α) : wp (pure a) Q C s ↔ Q a s := Iff.rfl

@[simp] theorem wp_bind (m : Prog σ α) (f : α → Prog σ β) (Q : β → σ → Prop) :
    wp (m >>= f) Q C s ↔ wp m (fun a => wp (f a) Q C) C s := by
  show wp (andThen m f) Q C s ↔ _
  unfold wp andThen
  cases m s <;> exact Iff.rfl

@[simp] theorem wp_state (Q : σ → σ → Prop) : wp state Q C s ↔ Q s s := Iff.rfl

@[simp] theorem wp_modify (f : σ → σ) (Q : Unit → σ → Prop) :
    wp (modify f) Q C s ↔ Q () (f s) := Iff.rfl

@[simp] theorem wp_stop : wp (stop : Prog σ α) Q C s ↔ C s := Iff.rfl

@[simp] theorem wp_ite (c : Prop) [Decidable c] (m n : Prog σ α) :
    wp (if c then m else n) Q C s ↔ (c → wp m Q C s) ∧ (¬ c → wp n Q C s) := by
  by_cases h : c <;> simp [h]

@[simp] theorem wp_whenever (c : Prop) [Decidable c] (m : Prog σ Unit) (Q : Unit → σ → Prop) :
    wp (whenever c m) Q C s ↔ (c → wp m Q C s) ∧ (¬ c → Q () s) :=
  wp_ite c m (pure ())

/-- A weaker end is reached by the same run. -/
theorem wp.mono {m : Prog σ α} (h : wp m Q C s) (onValue : ∀ a t, Q a t → Q' a t)
    (onCut : ∀ t, C t → C' t) : wp m Q' C' s := by
  unfold wp at *
  cases run : m s with
  | value a t => exact onValue a t (by simpa [run] using h)
  | cut t => exact onCut t (by simpa [run] using h)

/-- Two facts about one run. -/
theorem wp.and {m : Prog σ α} (h : wp m Q C s) (h' : wp m Q' C' s) :
    wp m (fun a t => Q a t ∧ Q' a t) (fun t => C t ∧ C' t) s := by
  unfold wp at *
  cases run : m s with
  | value a t => exact ⟨by simpa [run] using h, by simpa [run] using h'⟩
  | cut t => exact ⟨by simpa [run] using h, by simpa [run] using h'⟩

/-- What is known of every end is known of the end observed. -/
theorem wp.of_value {m : Prog σ α} (h : wp m Q C s) {a : α} {t : σ}
    (run : m s = .value a t) : Q a t := by
  simpa [wp, run] using h

/-- A program that is never cut returns. -/
theorem exists_of_wp {m : Prog σ α} (h : wp m Q (fun _ => False) s) :
    ∃ a t, m s = .value a t ∧ Q a t := by
  unfold wp at h
  cases run : m s with
  | value a t =>
      rw [run] at h
      exact ⟨a, t, rfl, h⟩
  | cut t =>
      rw [run] at h
      exact h.elim

/-- What holds of every end holds of the state a run leaves. -/
theorem wp.exit {m : Prog σ α} {P : σ → Prop} (h : wp m (fun _ t => P t) P s) :
    P (m s).state := by
  unfold wp at h
  cases run : m s with
  | value a t =>
      rw [run] at h
      exact h
  | cut t =>
      rw [run] at h
      exact h

/-- Of any run something can be said. -/
theorem wp_trivial (m : Prog σ α) : wp m (fun _ _ => True) (fun _ => True) s := by
  unfold wp
  cases m s <;> trivial

/-- What is known of the value a run returns is known together with the run. -/
theorem wp.returned {m : Prog σ α} (h : wp m Q C s) :
    wp m (fun a t => m s = .value a t ∧ Q a t) C s := by
  unfold wp at *
  cases run : m s with
  | value a t => exact ⟨rfl, by simpa [run] using h⟩
  | cut t => simpa [run] using h

/-- The end of a run that is known. -/
theorem wp_of_value {m : Prog σ α} {a : α} {t : σ} (run : m s = .value a t) :
    wp m Q C s ↔ Q a t := by
  rw [wp, run]

/-- Two programs that run alike end alike. -/
theorem wp_congr {m n : Prog σ α} {t : σ} (run : m s = n t) : wp m Q C s ↔ wp n Q C t := by
  rw [wp, wp, run]

/-- A sequence is followed through its first part. -/
theorem wp.bind {m : Prog σ α} {f : α → Prog σ β} {R : β → σ → Prop} (h : wp m Q C s)
    (next : ∀ a t, Q a t → wp (f a) R C t) : wp (m >>= f) R C s :=
  (wp_bind m f R).mpr (h.mono next fun _ c => c)

end Rules

/-! ## Relations between the two ends of a run -/

/-- The program relates the state it starts in to the state it leaves. -/
def Moves (R : σ → σ → Prop) (m : Prog σ α) : Prop :=
  ∀ s, wp m (fun _ t => R s t) (fun t => R s t) s

namespace Moves

variable {R : σ → σ → Prop}

theorem modify {f : σ → σ} (h : ∀ s, R s (f s)) : Moves R (modify f) := fun s => h s

section Preorder

variable [IsPreorder σ R]

theorem pure (a : α) : Moves R (pure a) := fun s => Std.Refl.refl s

theorem state : Moves R (state : Prog σ σ) := fun s => Std.Refl.refl s

theorem stop : Moves R (stop : Prog σ α) := fun s => Std.Refl.refl s

theorem bind {m : Prog σ α} {f : α → Prog σ β} (first : Moves R m)
    (rest : ∀ a, Moves R (f a)) : Moves R (m >>= f) := fun s =>
  (wp_bind m f _).mpr <| (first s).mono
    (fun a t moved => (rest a t).mono (fun _ _ further => trans_of R moved further)
      fun _ further => trans_of R moved further)
    fun _ moved => moved

end Preorder

theorem ite {c : Prop} [Decidable c] {m n : Prog σ α} (onTrue : c → Moves R m)
    (onFalse : ¬ c → Moves R n) : Moves R (if c then m else n) := by
  by_cases h : c
  · simpa only [if_pos h] using onTrue h
  · simpa only [if_neg h] using onFalse h

theorem whenever [IsPreorder σ R] {c : Prop} [Decidable c] {m : Prog σ Unit}
    (onTrue : c → Moves R m) : Moves R (whenever c m) :=
  ite onTrue fun _ => Moves.pure ()

theorem mono {R' : σ → σ → Prop} {m : Prog σ α} (h : Moves R m)
    (weaker : ∀ s t, R s t → R' s t) : Moves R' m := fun s =>
  (h s).mono (fun _ t => weaker s t) fun t => weaker s t

end Moves

/-! ## Invariants -/

/-- Started with `I`, the program ends with `I` if it returns and with `C` if it is
cut. -/
def Stays (I C : σ → Prop) (m : Prog σ α) : Prop := ∀ s, I s → wp m (fun _ t => I t) C s

namespace Stays

variable {I C : σ → Prop}

theorem pure (a : α) : Stays I C (pure a) := fun _ held => held

theorem state : Stays I C (state : Prog σ σ) := fun _ held => held

theorem modify {f : σ → σ} (h : ∀ s, I s → I (f s)) : Stays I C (modify f) := h

theorem stop (weaker : ∀ s, I s → C s) : Stays I C (stop : Prog σ α) := weaker

theorem bind {m : Prog σ α} {f : α → Prog σ β} (first : Stays I C m)
    (rest : ∀ a, Stays I C (f a)) : Stays I C (m >>= f) := fun s held =>
  (first s held).bind fun a t => rest a t

theorem ite {c : Prop} [Decidable c] {m n : Prog σ α} (onTrue : c → Stays I C m)
    (onFalse : ¬ c → Stays I C n) : Stays I C (if c then m else n) := fun s held =>
  (wp_ite c m n).mpr ⟨fun h => onTrue h s held, fun h => onFalse h s held⟩

theorem whenever {c : Prop} [Decidable c] {m : Prog σ Unit} (onTrue : c → Stays I C m) :
    Stays I C (whenever c m) := ite onTrue fun _ => pure ()

/-- What the two ends of a run have in common carries an invariant over. -/
theorem of_moves {R : σ → σ → Prop} {m : Prog σ α} (moves : Moves R m)
    (carries : ∀ s t, R s t → I s → I t) (weaker : ∀ s, I s → C s) : Stays I C m := fun s held =>
  (moves s).mono (fun _ t moved => carries s t moved held)
    fun t moved => weaker t (carries s t moved held)

/-- A preorder is kept along a program when it is kept as an invariant. -/
theorem moves {R : σ → σ → Prop} [IsPreorder σ R] {m : Prog σ α}
    (stays : ∀ s, Stays (R s) (R s) m) : Moves R m := fun s => stays s s (Std.Refl.refl s)

/-- A relation is kept as an invariant when it holds along the program. -/
theorem of_transitive {R : σ → σ → Prop} [IsPreorder σ R] {m : Prog σ α} (moves : Moves R m)
    (s : σ) : Stays (R s) (R s) m :=
  of_moves moves (fun _ _ moved before => trans_of R before moved) fun _ => id

/-- Two invariants of one program. -/
theorem and {I' C' : σ → Prop} {m : Prog σ α} (one : Stays I C m) (two : Stays I' C' m) :
    Stays (fun s => I s ∧ I' s) (fun s => C s ∧ C' s) m := fun s held =>
  ((one s held.1).and (two s held.2)).mono (fun _ _ ends => ends) fun _ ends => ends

theorem mono {C' : σ → Prop} {m : Prog σ α} (h : Stays I C m) (weaker : ∀ s, C s → C' s) :
    Stays I C' m := fun s held => (h s held).mono (fun _ _ kept => kept) weaker

/-- An invariant holds of whatever a run leaves. -/
theorem exit {m : Prog σ α} (stays : Stays I C m) (weaker : ∀ s, I s → C s) {s : σ}
    (held : I s) : C (m s).state :=
  ((stays s held).mono (fun _ t kept => weaker t kept) fun _ => id).exit

end Stays

/-! ## Invariants as relations -/

/-- If an invariant holds of the first state, then it holds of the second. -/
def Carries (I : σ → Prop) (s t : σ) : Prop := I s → I t

instance (I : σ → Prop) : IsPreorder σ (Carries I) where
  refl _ := id
  trans _ _ _ one two := two ∘ one

theorem Stays.carries {I : σ → Prop} {m : Prog σ α} (stays : Stays I I m) :
    Moves (Carries I) m := by
  intro s
  by_cases held : I s
  · exact (stays s held).mono (fun _ _ kept _ => kept) fun _ kept _ => kept
  · exact (wp_trivial m).mono (fun _ _ _ holds => absurd holds held) fun _ _ holds =>
      absurd holds held

theorem Moves.stays_of_carries {I : σ → Prop} {m : Prog σ α} (moves : Moves (Carries I) m) :
    Stays I I m := fun s held =>
  (moves s).mono (fun _ _ carried => carried held) fun _ carried => carried held

end Program
