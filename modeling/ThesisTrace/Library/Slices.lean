import Mathlib.Data.List.Basic
import Mathlib.Data.List.Flatten
import Mathlib.Order.Lattice
import Mathlib.Tactic.NormNum.Basic

/-!
# Consecutive slices of a list

A list is cut into slices of `n` elements, of which only the last may be shorter. The slices are
never empty and give the list back in order; in a sorted list without repetitions a slice is what
lies between its own ends.
-/

namespace Slices

variable {α : Type*} {n k : ℕ} {xs : List α}

/-- The `k`-th slice: `xs[k * n : k * n + n]`. -/
def slice (n : ℕ) (xs : List α) (k : ℕ) : List α := (xs.drop (k * n)).take n

/-- The number of positions in `range(0, len(xs), n)`. -/
def count (n : ℕ) (xs : List α) : ℕ := (xs.length + n - 1) / n

lemma mul_lt_length (hn : 0 < n) (hk : k < count n xs) : k * n < xs.length := by
  unfold count at hk
  rw [Nat.lt_iff_add_one_le, Nat.le_div_iff_mul_le hn, Nat.add_mul, Nat.one_mul] at hk
  omega

lemma length_slice : (slice n xs k).length = min n (xs.length - k * n) := by
  rw [slice, List.length_take, List.length_drop]

lemma slice_ne_nil (hn : 0 < n) (hk : k < count n xs) : slice n xs k ≠ [] := by
  have hlt := mul_lt_length hn hk
  apply List.ne_nil_of_length_pos
  rw [length_slice]
  omega

/-- Every slice but the last is full. -/
lemma length_slice_of_succ_lt (hn : 0 < n) (hk : k + 1 < count n xs) :
    (slice n xs k).length = n := by
  have hlt := mul_lt_length hn hk
  rw [Nat.add_mul, Nat.one_mul] at hlt
  rw [length_slice]
  omega

lemma take_succ_mul (n k : ℕ) (xs : List α) :
    xs.take ((k + 1) * n) = xs.take (k * n) ++ slice n xs k := by
  rw [Nat.add_mul, Nat.one_mul, List.take_add, slice]

lemma flatMap_slice_range (n k : ℕ) (xs : List α) :
    (List.range k).flatMap (slice n xs) = xs.take (k * n) := by
  induction k with
  | zero => simp
  | succ k ih =>
    rw [List.range_succ, List.flatMap_append, ih, List.flatMap_singleton, take_succ_mul]

/-- The parts of the slices before a position. -/
lemma flatMap_slice_take (n k i : ℕ) (xs : List α) :
    (List.range k).flatMap (fun j => (slice n xs j).take (i - j * n)) =
      (xs.take (k * n)).take i := by
  induction k with
  | zero => simp
  | succ k ih =>
    rw [List.range_succ, List.flatMap_append, ih, List.flatMap_singleton, take_succ_mul,
      List.take_append, List.length_take]
    congr 1
    rcases Nat.le_total (k * n) xs.length with hle | hle
    · rw [Nat.min_eq_left hle]
    · simp [slice, List.drop_eq_nil_of_le hle]

/-- The parts of the slices from a position on. -/
lemma flatMap_slice_drop (n k i : ℕ) (xs : List α) :
    (List.range k).flatMap (fun j => (slice n xs j).drop (i - j * n)) =
      (xs.take (k * n)).drop i := by
  induction k with
  | zero => simp
  | succ k ih =>
    rw [List.range_succ, List.flatMap_append, ih, List.flatMap_singleton, take_succ_mul,
      List.drop_append, List.length_take]
    congr 1
    rcases Nat.le_total (k * n) xs.length with hle | hle
    · rw [Nat.min_eq_left hle]
    · simp [slice, List.drop_eq_nil_of_le hle]

lemma mem_of_mem_take_slice {i : ℕ} {x : α} (h : x ∈ (slice n xs k).take (i - k * n)) :
    x ∈ xs.take i := by
  have hmem : x ∈ (xs.take ((k + 1) * n)).take i := by
    rw [← flatMap_slice_take]
    exact List.mem_flatMap.mpr ⟨k, List.mem_range.mpr (Nat.lt_succ_self k), h⟩
  rw [List.take_take, Nat.min_comm, ← List.take_take] at hmem
  exact List.mem_of_mem_take hmem

lemma mem_of_mem_drop_slice {i : ℕ} {x : α} (h : x ∈ (slice n xs k).drop (i - k * n)) :
    x ∈ xs.drop i := by
  have hmem : x ∈ (xs.take ((k + 1) * n)).drop i := by
    rw [← flatMap_slice_drop]
    exact List.mem_flatMap.mpr ⟨k, List.mem_range.mpr (Nat.lt_succ_self k), h⟩
  rw [List.drop_take] at hmem
  exact List.mem_of_mem_take hmem

lemma length_le_count_mul (hn : 0 < n) (xs : List α) : xs.length ≤ count n xs * n := by
  have hlt := Nat.lt_div_mul_add hn (a := xs.length + n - 1)
  unfold count
  omega

/-- The slices are the list, in order. -/
theorem flatMap_slice (hn : 0 < n) (xs : List α) :
    (List.range (count n xs)).flatMap (slice n xs) = xs := by
  rw [flatMap_slice_range, List.take_of_length_le (length_le_count_mul hn xs)]

lemma slice_infix (n k : ℕ) (xs : List α) : slice n xs k <:+: xs :=
  (List.take_prefix _ _).isInfix.trans (List.drop_suffix _ _).isInfix

lemma head_le [LinearOrder α] (hsorted : xs.Pairwise (· < ·)) {first x : α}
    (hfirst : xs.head? = some first) (hx : x ∈ xs) : first ≤ x := by
  obtain ⟨rest, rfl⟩ := List.head?_eq_some_iff.mp hfirst
  rcases List.mem_cons.mp hx with rfl | hx
  · exact le_refl _
  · exact ((List.pairwise_cons.mp hsorted).1 x hx).le

lemma le_getLast [LinearOrder α] (hsorted : xs.Pairwise (· < ·)) {last x : α}
    (hlast : xs.getLast? = some last) (hx : x ∈ xs) : x ≤ last := by
  obtain ⟨init, rfl⟩ := List.getLast?_eq_some_iff.mp hlast
  rcases List.mem_append.mp hx with hx | hx
  · exact ((List.pairwise_append.mp hsorted).2.2 x hx last (by simp)).le
  · exact (List.mem_singleton.mp hx).le

/-- Between its ends a sorted list has nothing but the slice. -/
lemma filter_slice [LinearOrder α] (hsorted : xs.Pairwise (· < ·)) {first last : α}
    (hfirst : (slice n xs k).head? = some first) (hlast : (slice n xs k).getLast? = some last) :
    xs.filter (fun x => first ≤ x ∧ x ≤ last) = slice n xs k := by
  have hsplit : xs = xs.take (k * n) ++ (slice n xs k ++ (xs.drop (k * n)).drop n) := by
    rw [slice, List.take_append_drop, List.take_append_drop]
  have hparts := hsorted
  rw [hsplit, List.pairwise_append, List.pairwise_append] at hparts
  obtain ⟨_, ⟨hslice, _, hafter⟩, hbefore⟩ := hparts
  have hfirstMem := List.mem_of_head? hfirst
  have hlastMem := List.mem_of_getLast? hlast
  have hbeforeNil : (xs.take (k * n)).filter (fun x => first ≤ x ∧ x ≤ last) = [] := by
    rw [List.filter_eq_nil_iff]
    intro x hx
    have hlt := hbefore x hx first (List.mem_append_left _ hfirstMem)
    simp [hlt]
  have hafterNil : ((xs.drop (k * n)).drop n).filter (fun x => first ≤ x ∧ x ≤ last) = [] := by
    rw [List.filter_eq_nil_iff]
    intro x hx
    have hlt := hafter last hlastMem x hx
    simp [hlt]
  have hinside : (slice n xs k).filter (fun x => first ≤ x ∧ x ≤ last) = slice n xs k := by
    rw [List.filter_eq_self]
    intro x hx
    have hle := head_le hslice hfirst hx
    have hge := le_getLast hslice hlast hx
    simp [hle, hge]
  conv_lhs => rw [hsplit]
  rw [List.filter_append, List.filter_append, hbeforeNil, hafterNil, hinside, List.nil_append,
    List.append_nil]

end Slices
