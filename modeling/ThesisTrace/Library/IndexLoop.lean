import Mathlib.Data.List.Basic
import Mathlib.Tactic.Basic

/-!
# Index loops over a growing list

Loops that run an index over a list and read only entries up to the index. When the list
grows by one entry, such a loop makes the same steps as before and then one more.
-/

namespace IndexLoop

universe u v

variable {α : Type*} {ε : Type v} {β : Type u}

lemma getD_append_last (xs : List α) (x d : α) : (xs ++ [x]).getD xs.length d = x := by
  simp

lemma getD_append_of_lt {xs : List α} (ys : List α) {i : ℕ} (d : α) (h : i < xs.length) :
    (xs ++ ys).getD i d = xs.getD i d := by
  rw [List.getD_eq_getElem?_getD, List.getD_eq_getElem?_getD, List.getElem?_append_left h]

/-- A loop that builds a list, one entry for each index from `start`. -/
theorem map_range'_append {f g : ℕ → β} {start n : ℕ}
    (hagree : ∀ i, start ≤ i → i < start + n → g i = f i) :
    (List.range' start (n + 1)).map g = (List.range' start n).map f ++ [g (start + n)] := by
  rw [List.range'_1_concat, List.map_append, List.map_singleton]
  congr 1
  apply List.map_congr_left
  intro i hi
  rw [List.mem_range'_1] at hi
  exact hagree i hi.1 hi.2

lemma foldlM_singleton (f : β → ℕ → Except ε β) (s : β) (n : ℕ) : [n].foldlM f s = f s n := by
  rw [List.foldlM_cons]
  simp only [List.foldlM_nil, bind_pure]

lemma foldlM_range_succ (f : β → ℕ → Except ε β) (init : β) (n : ℕ) :
    (List.range (n + 1)).foldlM f init = (List.range n).foldlM f init >>= fun s => f s n := by
  rw [List.range_succ, List.foldlM_append]
  congr 1
  funext s
  exact foldlM_singleton f s n

/-- What holds after the first `n` steps of a loop that may fail. -/
theorem foldlM_range_invariant {f : β → ℕ → Except ε β} {I : ℕ → β → Prop} {init s : β} {n : ℕ}
    (hinit : I 0 init) (hstep : ∀ i s s', i < n → I i s → f s i = .ok s' → I (i + 1) s')
    (h : (List.range n).foldlM f init = .ok s) : I n s := by
  induction n generalizing s with
  | zero =>
    simp only [List.range_zero, List.foldlM_nil, pure, Except.pure, Except.ok.injEq] at h
    exact h ▸ hinit
  | succ n ih =>
    rw [foldlM_range_succ] at h
    cases hprior : (List.range n).foldlM f init with
    | error e =>
      rw [hprior] at h
      cases h
    | ok t =>
      rw [hprior] at h
      exact hstep n t s (by omega)
        (ih (fun i s s' hi => hstep i s s' (Nat.lt_succ_of_lt hi)) hprior) h

/-- A loop over a list that grew by one entry. The invariant `I` bounds what the state refers
to, so that the earlier steps read only the old entries. -/
theorem foldlM_range_congr {f g : β → ℕ → Except ε β} {I : ℕ → β → Prop} {init : β} {n : ℕ}
    (hinit : I 0 init) (hagree : ∀ i s, i < n → I i s → g s i = f s i)
    (hstep : ∀ i s s', i < n → I i s → f s i = .ok s' → I (i + 1) s') :
    (List.range n).foldlM g init = (List.range n).foldlM f init := by
  induction n with
  | zero => rfl
  | succ n ih =>
    rw [foldlM_range_succ, foldlM_range_succ,
      ih (fun i s hi => hagree i s (Nat.lt_succ_of_lt hi))
        (fun i s s' hi => hstep i s s' (Nat.lt_succ_of_lt hi))]
    cases hprior : (List.range n).foldlM f init with
    | error e => rfl
    | ok s =>
      refine hagree n s (by omega) ?_
      exact foldlM_range_invariant hinit
        (fun i s s' hi => hstep i s s' (Nat.lt_succ_of_lt hi)) hprior

end IndexLoop
