import Mathlib.Data.List.Basic

/-!
# Edges in a sampled waveform

A waveform is the sample it starts from and the list of the samples after it,
oldest first. `edges` reads off what happens between neighbouring samples, such
as the cycle a strobe ends when it rises. Reading a waveform in two parts, the
second part from the last sample of the first, reads the whole (`edges_append`).

`Along event P n start samples` says that every sample satisfies `P` together with
the number of events up to it, counted from `n`.
-/

set_option autoImplicit false

namespace Program

variable {α β : Type}

/-- The events between neighbouring samples, oldest first. -/
def edges (event : α → α → Option β) : α → List α → List β
  | _, [] => []
  | before, after :: rest => (event before after).toList ++ edges event after rest

@[simp] theorem edges_nil (event : α → α → Option β) (start : α) :
    edges event start [] = [] := rfl

theorem edges_cons (event : α → α → Option β) (start after : α) (rest : List α) :
    edges event start (after :: rest) = (event start after).toList ++ edges event after rest :=
  rfl

theorem edges_append (event : α → α → Option β) (start : α) (first second : List α) :
    edges event start (first ++ second) =
      edges event start first ++ edges event (first.getLastD start) second := by
  induction first generalizing start with
  | nil => rfl
  | cons after rest ih =>
      rw [List.cons_append, edges_cons, edges_cons, ih, List.append_assoc,
        List.getLastD_cons]

/-- A waveform on which no neighbouring samples make an event has none. -/
theorem edges_eq_nil {event : α → α → Option β} {quiet : α → Prop}
    (silent : ∀ before after, quiet before → quiet after → event before after = none)
    {start : α} {samples : List α} (first : quiet start) (all : ∀ s ∈ samples, quiet s) :
    edges event start samples = [] := by
  induction samples generalizing start with
  | nil => rfl
  | cons after rest ih =>
      have quietAfter : quiet after := all after (List.mem_cons_self ..)
      rw [edges_cons, silent start after first quietAfter,
        ih quietAfter fun s member => all s (List.mem_cons_of_mem _ member)]
      rfl

/-- Every sample satisfies `P` with the number of events that are over by then. -/
def Along (event : α → α → Option β) (P : Nat → α → Prop) : Nat → α → List α → Prop
  | _, _, [] => True
  | n, before, after :: rest =>
      P (n + (event before after).toList.length) after ∧
        Along event P (n + (event before after).toList.length) after rest

namespace Along

variable {event : α → α → Option β} {P Q : Nat → α → Prop}

theorem append {n : Nat} {start : α} {first second : List α} :
    Along event P n start (first ++ second) ↔
      Along event P n start first ∧
        Along event P (n + (edges event start first).length) (first.getLastD start) second := by
  induction first generalizing n start with
  | nil => simp [Along]
  | cons after rest ih =>
      rw [List.cons_append, Along, Along, ih, edges_cons, List.length_append, List.getLastD_cons,
        and_assoc, Nat.add_assoc]

theorem mono (weaker : ∀ n s, P n s → Q n s) {n : Nat} {start : α} {samples : List α}
    (h : Along event P n start samples) : Along event Q n start samples := by
  induction samples generalizing n start with
  | nil => trivial
  | cons after rest ih => exact ⟨weaker _ _ h.1, ih h.2⟩

/-- Counting may begin at another number. -/
theorem shift {m : Nat} (weaker : ∀ n s, P n s → Q (m + n) s) {n : Nat} {start : α}
    {samples : List α} (h : Along event P n start samples) :
    Along event Q (m + n) start samples := by
  induction samples generalizing n start with
  | nil => trivial
  | cons after rest ih =>
      rw [Along, Nat.add_assoc]
      exact ⟨weaker _ _ h.1, ih h.2⟩

/-- Without events the count stands still. -/
theorem of_quiet {quiet : α → Prop}
    (silent : ∀ before after, quiet before → quiet after → event before after = none)
    {n : Nat} {start : α} {samples : List α} (first : quiet start)
    (all : ∀ s ∈ samples, quiet s ∧ P n s) : Along event P n start samples := by
  induction samples generalizing start with
  | nil => trivial
  | cons after rest ih =>
      obtain ⟨quietAfter, ok⟩ := all after (List.mem_cons_self ..)
      have later := ih quietAfter fun s member => all s (List.mem_cons_of_mem _ member)
      simpa [Along, silent start after first quietAfter] using ⟨ok, later⟩

/-- The sample between two parts of the waveform. -/
theorem of_split {n : Nat} {start s : α} {before after : List α}
    (h : Along event P n start (before ++ s :: after)) :
    P (n + (edges event start (before ++ [s])).length) s := by
  have here := (append.mp h).2.1
  rw [edges_append, List.length_append, ← Nat.add_assoc]
  simpa [edges_cons] using here

/-- A property that does not count holds of every sample. -/
theorem forall_mem {R : α → Prop} {n : Nat} {start : α} {samples : List α}
    (h : Along event (fun _ s => R s) n start samples) : ∀ s ∈ samples, R s := by
  induction samples generalizing n start with
  | nil => exact fun _ member => nomatch member
  | cons after rest ih =>
      intro s member
      rcases List.mem_cons.mp member with rfl | later
      · exact h.1
      · exact ih h.2 s later

end Along

end Program
