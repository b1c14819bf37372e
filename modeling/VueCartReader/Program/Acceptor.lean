import Mathlib.Data.List.Induction

/-!
# Machines that accept runs of actions

An `Acceptor` takes one action after the other. An action that it has no step for is refused, and
with it every run that begins so. What holds at the start and is kept by every step holds of every
run that is accepted (`Acceptor.invariant`).
-/

set_option autoImplicit false

namespace Program

/-- A machine over actions. -/
structure Acceptor (σ α : Type) where
  start : σ
  next : σ → α → Option σ

namespace Acceptor

variable {σ α : Type} (M : Acceptor σ α)

/-- The state after some actions, if none of them is refused. -/
def run (s : σ) (actions : List α) : Option σ := actions.foldlM M.next s

/-- The state after a whole run. -/
def accepts (actions : List α) : Option σ := M.run M.start actions

@[simp] theorem run_nil (s : σ) : M.run s [] = some s := rfl

theorem run_append (s : σ) (first second : List α) :
    M.run s (first ++ second) = (M.run s first).bind fun t => M.run t second :=
  List.foldlM_append

theorem run_snoc (s : σ) (actions : List α) (a : α) :
    M.run s (actions ++ [a]) = (M.run s actions).bind fun t => M.next t a := by
  rw [run_append]
  congr 1
  funext t
  exact bind_pure (M.next t a)

/-- **Invariants of accepted runs.** -/
theorem invariant {I : List α → σ → Prop} (init : I [] M.start)
    (step : ∀ actions s a t, I actions s → M.next s a = some t → I (actions ++ [a]) t)
    {actions : List α} {t : σ} (accepted : M.accepts actions = some t) : I actions t := by
  induction actions using List.reverseRecOn generalizing t with
  | nil =>
      cases accepted
      exact init
  | append_singleton actions a ih =>
      rw [accepts, run_snoc, Option.bind_eq_some_iff] at accepted
      obtain ⟨s, here, next⟩ := accepted
      exact step actions s a t (ih here) next

end Acceptor

end Program
