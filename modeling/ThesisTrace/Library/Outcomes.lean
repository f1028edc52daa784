import Mathlib.Data.List.Forall2
import ThesisTrace.Library.Transaction

/-!
# Outcomes of fallible computations

`Yields permitted Q x` says that `x` returns a value with `Q`, or fails with a permitted error. The
rules follow the structure of a computation, so a proof names an error only where it arises.
-/

namespace Transaction

universe u v

variable {ε : Type v} {α β γ : Type u} {permitted : ε → Prop} {P Q : β → Prop} {R : γ → Prop}

/-- The computation returns a value with `Q`, or fails with a permitted error. -/
inductive Yields (permitted : ε → Prop) (Q : β → Prop) : Except ε β → Prop
  | value {b : β} (h : Q b) : Yields permitted Q (.ok b)
  | failure {e : ε} (h : permitted e) : Yields permitted Q (.error e)

namespace Yields

lemma mono {x : Except ε β} (h : Yields permitted P x) (hPQ : ∀ b, P b → Q b) :
    Yields permitted Q x := by
  cases h with
  | value h => exact .value (hPQ _ h)
  | failure h => exact .failure h

lemma bind {x : Except ε β} {f : β → Except ε γ} (hx : Yields permitted Q x)
    (hf : ∀ b, Q b → Yields permitted R (f b)) : Yields permitted R (x >>= f) := by
  cases hx with
  | value h => exact hf _ h
  | failure h => exact .failure h

/-- A step whose result is known. -/
lemma bind_value {x : Except ε β} {b : β} {f : β → Except ε γ} (hx : x = .ok b)
    (hf : Yields permitted R (f b)) : Yields permitted R (x >>= f) := by
  subst hx
  exact hf

lemma of_ok {x : Except ε β} {b : β} (hx : x = .ok b) (h : Q b) : Yields permitted Q x := by
  subst hx
  exact .value h

lemma ok {x : Except ε β} {b : β} (h : Yields permitted Q x) (hx : x = .ok b) : Q b := by
  subst hx
  cases h with
  | value h => exact h

lemma error {x : Except ε β} {e : ε} (h : Yields permitted Q x) (hx : x = .error e) :
    permitted e := by
  subst hx
  cases h with
  | failure h => exact h

lemma mapError {ε' : Type v} {permitted' : ε' → Prop} {x : Except ε β} {f : ε → ε'}
    (h : Yields permitted Q x) (hf : ∀ e, permitted e → permitted' (f e)) :
    Yields permitted' Q (x.mapError f) := by
  cases h with
  | value h => exact .value h
  | failure h => exact .failure (hf _ h)

/-- A list of computations. -/
lemma mapM {S : α → β → Prop} {f : α → Except ε β} {as : List α}
    (h : ∀ a ∈ as, Yields permitted (S a) (f a)) :
    Yields permitted (fun bs => List.Forall₂ S as bs) (as.mapM f) := by
  induction as with
  | nil => exact .value .nil
  | cons a as ih =>
    rw [List.mapM_cons]
    refine (h a List.mem_cons_self).bind fun b hb => ?_
    refine (ih fun a' ha' => h a' (List.mem_cons_of_mem _ ha')).bind fun bs hbs => ?_
    exact .value (.cons hb hbs)

/-- A computation on every element returns one result an element. -/
lemma mapM_length {f : α → Except ε β} {as : List α}
    (h : ∀ a ∈ as, Yields permitted (fun _ => True) (f a)) :
    Yields permitted (fun bs => bs.length = as.length) (as.mapM f) :=
  (mapM h).mono fun _ hbs => hbs.length_eq.symm

end Yields

/-! ### Outcomes that are found by running -/

lemma not_returns {e : ε} : ¬∃ b : β, (Except.error e : Except ε β) = .ok b := by
  rintro ⟨b, h⟩
  cases h

lemma returns_with_iff {b : β} : Q b ↔ ∃ b', (Except.ok b : Except ε β) = .ok b' ∧ Q b' := by
  simp only [Except.ok.injEq, exists_eq_left']

lemma forall_returned_iff {b : β} : Q b ↔ ∀ b', (Except.ok b : Except ε β) = .ok b' → Q b' := by
  simp only [Except.ok.injEq, forall_eq']

instance decidableReturns {x : Except ε β} : Decidable (∃ b, x = .ok b) :=
  match x with
  | .ok b => .isTrue ⟨b, rfl⟩
  | .error _ => .isFalse not_returns

instance decidableReturnsWith {x : Except ε β} [DecidablePred Q] :
    Decidable (∃ b, x = .ok b ∧ Q b) :=
  match x with
  | .ok b => decidable_of_iff (Q b) returns_with_iff
  | .error _ => .isFalse fun ⟨b, h, _⟩ => not_returns ⟨b, h⟩

instance decidableForallReturned {x : Except ε β} [DecidablePred Q] :
    Decidable (∀ b, x = .ok b → Q b) :=
  match x with
  | .ok b => decidable_of_iff (Q b) forall_returned_iff
  | .error _ => .isTrue fun b h => absurd ⟨b, h⟩ not_returns

end Transaction
