import Mathlib.Data.List.Sort
import Mathlib.Data.Prod.Lex

/-!
# Tilings

Intervals of numbers, with both of their ends, that cover a range in order and without gaps. Every
number of the range lies in one of them, and no other number does.
-/

namespace Tiling

/-- The intervals cover the numbers from `low` up to, but not including, `high`. -/
def Tiles : ℕ → ℕ → List (ℕ × ℕ) → Prop
  | low, high, [] => low = high
  | low, high, (first, last) :: rest => first = low ∧ first ≤ last ∧ Tiles (last + 1) high rest

variable {low middle high : ℕ} {intervals : List (ℕ × ℕ)}

lemma Tiles.le (h : Tiles low high intervals) : low ≤ high := by
  induction intervals generalizing low with
  | nil => exact h.le
  | cons interval rest ih =>
    obtain ⟨rfl, hle, hrest⟩ := h
    have := ih hrest
    omega

lemma Tiles.append {later : List (ℕ × ℕ)} (h : Tiles low middle intervals)
    (hlater : Tiles middle high later) : Tiles low high (intervals ++ later) := by
  induction intervals generalizing low with
  | nil =>
    cases h
    exact hlater
  | cons interval rest ih =>
    obtain ⟨hfirst, hle, hrest⟩ := h
    exact ⟨hfirst, hle, ih hrest⟩

lemma tiles_append_iff {later : List (ℕ × ℕ)} : Tiles low high (intervals ++ later) ↔
    ∃ middle, Tiles low middle intervals ∧ Tiles middle high later := by
  refine ⟨fun h => ?_, fun ⟨_, h, hlater⟩ => h.append hlater⟩
  induction intervals generalizing low with
  | nil => exact ⟨low, rfl, h⟩
  | cons interval rest ih =>
    obtain ⟨hfirst, hle, hrest⟩ := h
    obtain ⟨middle, hbefore, hlater⟩ := ih hrest
    exact ⟨middle, ⟨hfirst, hle, hbefore⟩, hlater⟩

lemma Tiles.bounds (h : Tiles low high intervals) :
    ∀ interval ∈ intervals, low ≤ interval.1 ∧ interval.1 ≤ interval.2 ∧ interval.2 < high := by
  induction intervals generalizing low with
  | nil => nofun
  | cons interval rest ih =>
    obtain ⟨rfl, hle, hrest⟩ := h
    have hhigh := hrest.le
    refine List.forall_mem_cons.mpr ⟨⟨Nat.le_refl _, hle, hhigh⟩, fun other hother => ?_⟩
    have hother := ih hrest other hother
    omega

/-- The intervals are in order. -/
lemma Tiles.pairwise (h : Tiles low high intervals) :
    intervals.Pairwise fun a b => a.2 < b.1 := by
  induction intervals generalizing low with
  | nil => exact List.Pairwise.nil
  | cons interval rest ih =>
    obtain ⟨-, -, hrest⟩ := h
    exact List.pairwise_cons.mpr ⟨fun other hother => (hrest.bounds other hother).1, ih hrest⟩

/-- Every number of the range lies in one interval, and every other one in none. -/
theorem Tiles.countP_eq (h : Tiles low high intervals) (n : ℕ) :
    intervals.countP (fun interval => interval.1 ≤ n ∧ n ≤ interval.2) =
      if low ≤ n ∧ n < high then 1 else 0 := by
  induction intervals generalizing low with
  | nil =>
    have hsame : low = high := h
    rw [List.countP_nil, if_neg (by omega)]
  | cons interval rest ih =>
    obtain ⟨rfl, hle, hrest⟩ := h
    have hhigh := hrest.le
    rw [List.countP_cons, ih hrest]
    simp only [decide_eq_true_eq]
    split_ifs <;> omega

end Tiling
