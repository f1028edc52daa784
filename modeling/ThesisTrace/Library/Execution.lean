import Mathlib.Data.List.Basic
import Mathlib.Data.List.Count

/-!
# Executions of labelled transition systems

A system is a relation `Step s a t` between a state, the label of one atomic step and the
next state. This file packages the inductions over its finite executions once, so that a
safety proof states only what a single step preserves.
-/

namespace LabelledTransition

variable {σ α : Type*}

/-- Finite executions, with the labels of their steps from first to last. -/
inductive Exec (Step : σ → α → σ → Prop) (s : σ) : List α → σ → Prop
  | nil : Exec Step s [] s
  | snoc {t u : σ} {as : List α} {a : α} :
      Exec Step s as t → Step t a u → Exec Step s (as ++ [a]) u

/-- The steps whose starting state and label satisfy a side condition. -/
def restrict (Step : σ → α → σ → Prop) (allowed : σ → α → Prop) (s : σ) (a : α) (t : σ) : Prop :=
  Step s a t ∧ allowed s a

/-- Every label of a trace satisfies `P` of the labels before it. -/
def Each (P : List α → α → Prop) (as : List α) : Prop :=
  ∀ pre a post, as = pre ++ a :: post → P pre a

lemma each_nil {P : List α → α → Prop} : Each P [] :=
  fun pre _ _ h => absurd h.symm (by simp)

lemma each_snoc {P : List α → α → Prop} {as : List α} {a : α} (h : Each P as) (ha : P as a) :
    Each P (as ++ [a]) := by
  intro pre b post heq
  rcases List.eq_nil_or_concat post with rfl | ⟨post, last, rfl⟩
  · obtain ⟨rfl, hlast⟩ := List.append_inj' heq rfl
    cases hlast
    exact ha
  · rw [List.concat_eq_append, ← List.cons_append, ← List.append_assoc] at heq
    exact h pre b post (List.append_inj' heq rfl).1

namespace Exec

variable {Step : σ → α → σ → Prop} {s t u : σ} {as bs : List α}

theorem trans (h : Exec Step s as t) (h' : Exec Step t bs u) : Exec Step s (as ++ bs) u := by
  induction h' with
  | nil => simpa using h
  | snoc _ hstep ih =>
    rw [← List.append_assoc]
    exact .snoc ih hstep

theorem single {a : α} (h : Step s a t) : Exec Step s [a] t :=
  .snoc .nil h

theorem cons {a : α} (h : Step s a t) (h' : Exec Step t as u) : Exec Step s (a :: as) u :=
  (single h).trans h'

theorem mono {Step' : σ → α → σ → Prop} (hsub : ∀ s a t, Step s a t → Step' s a t)
    (h : Exec Step s as t) : Exec Step' s as t := by
  induction h with
  | nil => exact .nil
  | snoc _ hstep ih => exact .snoc ih (hsub _ _ _ hstep)

theorem restrict_of_forall {allowed : σ → α → Prop} (h : Exec Step s as t)
    (hall : ∀ a ∈ as, ∀ s, allowed s a) : Exec (restrict Step allowed) s as t := by
  induction h with
  | nil => exact .nil
  | snoc _ hstep ih =>
    refine .snoc (ih fun a ha => hall a (List.mem_append_left _ ha)) ⟨hstep, ?_⟩
    exact hall _ (List.mem_append_right _ (List.mem_singleton_self _)) _

/-- An invariant may speak about the labels executed so far. -/
theorem invariant_trace {I : List α → σ → Prop}
    (hstep : ∀ as s a t, I as s → Step s a t → I (as ++ [a]) t)
    (h0 : I [] s) (h : Exec Step s as t) : I as t := by
  induction h with
  | nil => exact h0
  | snoc _ ht ih => exact hstep _ _ _ _ ih ht

theorem invariant {I : σ → Prop} (hstep : ∀ s a t, I s → Step s a t → I t)
    (h0 : I s) (h : Exec Step s as t) : I t :=
  invariant_trace (I := fun _ s => I s) (fun _ s a t hI ht => hstep s a t hI ht) h0 h

/-- If, under an invariant `I`, a label of one kind can occur only outside `Q` and leads into
`Q`, and no step leaves `Q`, then an execution contains at most one such label. -/
theorem countP_le_one {p : α → Bool} {I Q : σ → Prop}
    (hinv : ∀ s a t, I s → Step s a t → I t)
    (hset : ∀ s a t, I s → Step s a t → p a = true → ¬Q s ∧ Q t)
    (hkeep : ∀ s a t, I s → Step s a t → Q s → Q t) (h0 : I s) (h : Exec Step s as t) :
    as.countP p ≤ 1 ∧ (as.countP p = 1 → Q t) := by
  induction h with
  | nil => simp
  | @snoc t' u' as' a' hexec ht ih =>
    have hI := hexec.invariant hinv h0
    rw [List.countP_append, List.countP_singleton]
    by_cases hp : p a' = true
    · obtain ⟨hnot, hQ⟩ := hset _ _ _ hI ht hp
      have hzero : as'.countP p = 0 := by
        rcases Nat.le_one_iff_eq_zero_or_eq_one.mp ih.1 with hnone | hone
        · exact hnone
        · exact absurd (ih.2 hone) hnot
      simp [hp, hzero, hQ]
    · simp only [hp]
      exact ⟨ih.1, fun hone => hkeep _ _ _ hI ht (ih.2 hone)⟩

/-- A relation that every step respects under an invariant relates the ends of every
execution. -/
theorem relates {I : σ → Prop} {R : σ → σ → Prop}
    (hinv : ∀ s a t, I s → Step s a t → I t) (hrefl : ∀ s, R s s)
    (htrans : ∀ s t u, R s t → R t u → R s u) (hstep : ∀ s a t, I s → Step s a t → R s t)
    (h0 : I s) (h : Exec Step s as t) : R s t := by
  induction h with
  | nil => exact hrefl _
  | snoc hexec ht ih => exact htrans _ _ _ ih (hstep _ _ _ (hexec.invariant hinv h0) ht)

end Exec

end LabelledTransition
