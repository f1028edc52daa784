import Mathlib.Data.List.DropRight
import Mathlib.Data.List.Induction
import Mathlib.Data.List.ReduceOption
import Mathlib.Tactic.NormNum.Basic

/-!
# Sliding windows over series with missing cells

`windowed` is the direct definition of a rolling function: a value wherever the last `w` cells are
all there, computed from these cells. A loop that slides a state over the series computes it when
its state stands for the `recent` cells. A windowed function reads `w - 1` cells back.
-/

namespace SlidingWindow

variable {α β γ σ : Type*}

/-- The last `w` of the first `n` cells. -/
def recent (w n : ℕ) (xs : List α) : List α := (xs.take n).drop (n - w)

def windowed (w : ℕ) (f : List α → Option β) (xs : List (Option α)) : List (Option β) :=
  (List.range xs.length).map fun index =>
    if w ≤ index + 1 ∧ (recent w (index + 1) xs).all Option.isSome then
      f (recent w (index + 1) xs).reduceOption
    else none

@[simp] lemma recent_zero (w : ℕ) (xs : List α) : recent w 0 xs = [] := by
  simp [recent]

lemma recent_map (w n : ℕ) (f : α → β) (xs : List α) :
    recent w n (xs.map f) = (recent w n xs).map f := by
  simp [recent]

lemma mem_of_mem_recent {w n : ℕ} {xs : List α} {x : α} (h : x ∈ recent w n xs) : x ∈ xs :=
  List.mem_of_mem_take (List.mem_of_mem_drop h)

/-- Before the window is full, it grows. -/
lemma recent_succ_of_lt {w n : ℕ} {xs : List α} (hw : n < w) (hn : n < xs.length) :
    recent w (n + 1) xs = recent w n xs ++ [xs[n]] := by
  unfold recent
  rw [Nat.sub_eq_zero_of_le hw, Nat.sub_eq_zero_of_le (Nat.le_of_lt hw), List.drop_zero, List.drop_zero,
    List.take_succ_eq_append_getElem hn]

/-- Once it is full, the oldest cell leaves it. -/
lemma recent_succ_of_le {w n : ℕ} {xs : List α} (hw : w ≤ n) (hn : n < xs.length) :
    recent w n xs ++ [xs[n]] = xs[n - w] :: recent w (n + 1) xs := by
  unfold recent
  have hlength : n - w < (xs.take (n + 1)).length := by
    rw [List.length_take]
    omega
  have hsucc : n + 1 - w = n - w + 1 := by omega
  have htake : (xs.take (n + 1))[n - w] = xs[n - w] := List.getElem_take
  rw [hsucc, ← htake, ← List.drop_eq_getElem_cons hlength,
    List.take_succ_eq_append_getElem hn,
    List.drop_append_of_le_length (by rw [List.length_take]; omega)]

lemma recent_length {w n : ℕ} {xs : List α} (hn : n ≤ xs.length) :
    (recent w n xs).length = min w n := by
  unfold recent
  rw [List.length_drop, List.length_take]
  omega

lemma windowed_length (w : ℕ) (f : List α → Option β) (xs : List (Option α)) :
    (windowed w f xs).length = xs.length := by
  simp [windowed]

lemma reduceOption_length_of_all {xs : List (Option α)} (h : xs.all Option.isSome) :
    xs.reduceOption.length = xs.length := by
  rw [List.reduceOption_length_eq, List.filter_eq_self.mpr (by simpa using h)]

/-- Windows of the images are images of the windows. -/
lemma windowed_map {w : ℕ} {g : α → β} {f : List α → Option α} {f' : List β → Option β}
    {xs : List (Option α)}
    (h : ∀ values, (∀ value ∈ values, some value ∈ xs) → f' (values.map g) = (f values).map g) :
    windowed w f' (xs.map (Option.map g)) = (windowed w f xs).map (Option.map g) := by
  unfold windowed
  rw [List.length_map, List.map_map]
  apply List.map_congr_left
  intro index _
  have hall : ((recent w (index + 1) xs).map (Option.map g)).all Option.isSome
      = (recent w (index + 1) xs).all Option.isSome := by
    simp [List.all_map, Function.comp_def]
  rw [recent_map, hall, List.reduceOption_map, Function.comp_apply]
  split
  · apply h
    intro value hvalue
    exact mem_of_mem_recent (List.reduceOption_mem_iff.mp hvalue)
  · rfl

lemma mem_windowed {w : ℕ} {f : List α → Option β} {xs : List (Option α)} {y : β}
    (h : some y ∈ windowed w f xs) : ∃ values, (∀ value ∈ values, some value ∈ xs)
      ∧ f values = some y := by
  obtain ⟨index, _, hvalue⟩ := List.mem_map.mp h
  split at hvalue
  · refine ⟨_, ?_, hvalue⟩
    intro value hmem
    exact mem_of_mem_recent (List.reduceOption_mem_iff.mp hmem)
  · cases hvalue

/-! ### Deques -/

/-- Dropping from the back keeps the front, or drops everything behind it as well. -/
lemma rdropWhile_cons (p : α → Bool) (x : α) (xs : List α) :
    (x :: xs).rdropWhile p = xs.rdropWhile p ∨ (x :: xs).rdropWhile p = x :: xs.rdropWhile p := by
  induction xs using List.reverseRecOn with
  | nil =>
    rw [List.rdropWhile_singleton, List.rdropWhile_nil]
    split
    · exact .inl rfl
    · exact .inr rfl
  | append_singleton xs y ih =>
    rw [← List.cons_append]
    by_cases hy : p y
    · rw [List.rdropWhile_concat_pos _ _ _ hy, List.rdropWhile_concat_pos _ _ _ hy]
      exact ih
    · rw [List.rdropWhile_concat_neg _ _ _ hy, List.rdropWhile_concat_neg _ _ _ hy]
      exact .inr rfl

lemma rdropWhile_map (p : β → Bool) (f : α → β) (xs : List α) :
    (xs.map f).rdropWhile p = (xs.rdropWhile fun x => p (f x)).map f := by
  induction xs using List.reverseRecOn with
  | nil => rfl
  | append_singleton xs x ih =>
    rw [List.map_append, List.map_singleton]
    by_cases hx : p (f x)
    · rw [List.rdropWhile_concat_pos _ _ _ hx,
        List.rdropWhile_concat_pos (fun x => p (f x)) _ _ hx, ih]
    · rw [List.rdropWhile_concat_neg _ _ _ hx,
        List.rdropWhile_concat_neg (fun x => p (f x)) _ _ hx, List.map_append,
        List.map_singleton]

lemma rdropWhile_congr {p q : α → Bool} {xs : List α} (h : ∀ x ∈ xs, p x = q x) :
    xs.rdropWhile p = xs.rdropWhile q := by
  induction xs using List.reverseRecOn with
  | nil => rfl
  | append_singleton xs x ih =>
    have hx := h x (by simp)
    by_cases hp : p x
    · rw [List.rdropWhile_concat_pos _ _ _ hp, List.rdropWhile_concat_pos _ _ _ (hx ▸ hp),
        ih fun y hy => h y (List.mem_append_left _ hy)]
    · rw [List.rdropWhile_concat_neg _ _ _ hp, List.rdropWhile_concat_neg _ _ _ (hx ▸ hp)]

/-! ### Sliding loops -/

/-- A loop over indices keeps an indexed invariant. -/
lemma foldl_range_invariant {step : σ → ℕ → σ} {I : ℕ → σ → Prop} {init : σ} {n : ℕ}
    (hinit : I 0 init)
    (hstep : ∀ index < n, ∀ state, I index state → I (index + 1) (step state index)) :
    I n ((List.range n).foldl step init) := by
  induction n with
  | zero => exact hinit
  | succ n ih =>
    rw [List.range_succ, List.foldl_append]
    apply hstep n (Nat.lt_succ_self n)
    exact ih fun index hindex => hstep index (Nat.lt_succ_of_lt hindex)

/-- A loop over cells is a loop over their indices. -/
lemma foldl_eq_foldl_range (step : σ → Option α → σ) (init : σ) (xs : List (Option α)) :
    xs.foldl step init
      = (List.range xs.length).foldl (fun state index => step state xs[index]?.join) init := by
  induction xs using List.reverseRecOn with
  | nil => rfl
  | append_singleton xs x ih =>
    rw [List.foldl_append, ih, List.length_append, List.length_singleton, List.range_succ,
      List.foldl_append]
    simp only [List.foldl_cons, List.foldl_nil, List.getElem?_append_right (Nat.le_refl _),
      Nat.sub_self, List.getElem?_cons_zero, Option.join_some]
    congr 1
    apply List.foldl_ext
    intro state index hindex
    rw [List.getElem?_append_left (List.mem_range.mp hindex)]

/-- How many cells are missing. -/
def missing (xs : List (Option α)) : ℤ := xs.countP Option.isNone

@[simp] lemma missing_nil : missing ([] : List (Option α)) = 0 := rfl

lemma missing_cons (x : Option α) (xs : List (Option α)) :
    missing (x :: xs) = missing xs + if x.isNone then 1 else 0 := by
  unfold missing
  rw [List.countP_cons]
  push_cast
  rfl

lemma missing_concat (xs : List (Option α)) (x : Option α) :
    missing (xs ++ [x]) = missing xs + if x.isNone then 1 else 0 := by
  unfold missing
  rw [List.countP_append, List.countP_singleton]
  push_cast
  rfl

@[simp] lemma missing_map (f : α → β) (xs : List (Option α)) :
    missing (xs.map (Option.map f)) = missing xs := by
  simp [missing, List.countP_map, Function.comp_def]

lemma missing_eq_zero_iff {xs : List (Option α)} : missing xs = 0 ↔ xs.all Option.isSome := by
  unfold missing
  rw [Int.natCast_eq_zero, List.countP_eq_zero, List.all_eq_true]
  simp [Option.isSome_iff_ne_none]

/-! ### Slices -/

/-- A slice that starts at cell `k` has the cells of the whole series from its own cell `L` on, and
all of them where it starts with the series. -/
structure AgreeFrom (L k : ℕ) (full slice : List α) : Prop where
  length : k + slice.length ≤ full.length
  cell : ∀ index, k = 0 ∨ L ≤ index → index < slice.length → slice[index]? = full[k + index]?

namespace AgreeFrom

variable {L L' k : ℕ} {full slice : List α}

lemma mono (h : AgreeFrom L k full slice) (hle : L ≤ L') : AgreeFrom L' k full slice :=
  ⟨h.length, fun index hindex => h.cell index (hindex.imp_right (Nat.le_trans hle))⟩

lemma take_drop {k n : ℕ} (h : k + n ≤ full.length) :
    AgreeFrom 0 k full ((full.drop k).take n) := by
  refine ⟨by rw [List.length_take, List.length_drop]; omega, ?_⟩
  intro index _ hindex
  rw [List.length_take] at hindex
  rw [List.getElem?_take, if_pos (by omega), List.getElem?_drop]

lemma map (h : AgreeFrom L k full slice) (f : α → β) :
    AgreeFrom L k (full.map f) (slice.map f) := by
  refine ⟨by rw [List.length_map, List.length_map]; exact h.length, ?_⟩
  intro index hindex hlt
  rw [List.length_map] at hlt
  rw [List.getElem?_map, List.getElem?_map, h.cell index hindex hlt]

lemma zipWith {full' slice' : List β} (h : AgreeFrom L k full slice)
    (h' : AgreeFrom L' k full' slice') (f : α → β → γ) :
    AgreeFrom (max L L') k (List.zipWith f full full') (List.zipWith f slice slice') := by
  have hlength := h.length
  have hlength' := h'.length
  refine ⟨?_, ?_⟩
  · rw [List.length_zipWith, List.length_zipWith]
    omega
  · intro index hindex hlt
    rw [List.length_zipWith] at hlt
    rw [List.getElem?_zipWith, List.getElem?_zipWith, h.cell index (by omega) (by omega),
      h'.cell index (by omega) (by omega)]

lemma getD (h : AgreeFrom L k full slice) (default : α) {index : ℕ} (hL : k = 0 ∨ L ≤ index)
    (hlt : index < slice.length) : slice.getD index default = full.getD (k + index) default := by
  rw [List.getD_eq_getElem?_getD, List.getD_eq_getElem?_getD, h.cell index hL hlt]

lemma replicate {n m : ℕ} (h : k + m ≤ n) (x : α) :
    AgreeFrom 0 k (List.replicate n x) (List.replicate m x) := by
  refine ⟨by rw [List.length_replicate, List.length_replicate]; exact h, ?_⟩
  intro index _ hlt
  rw [List.length_replicate] at hlt
  rw [List.getElem?_replicate, List.getElem?_replicate, if_pos hlt, if_pos (by omega)]

/-- Cells that are computed from their index as well. -/
lemma map_zipIdx (h : AgreeFrom 0 k full slice) {f g : α × ℕ → β}
    (hcell : ∀ index x, k = 0 ∨ L ≤ index → slice[index]? = some x →
      g (x, index) = f (x, k + index)) :
    AgreeFrom L k (full.zipIdx.map f) (slice.zipIdx.map g) := by
  refine ⟨by simpa using h.length, ?_⟩
  intro index hL hlt
  rw [List.length_map, List.length_zipIdx] at hlt
  have hx := List.getElem?_eq_getElem hlt
  have hfull := h.cell index (.inr (Nat.zero_le index)) hlt
  simp only [List.getElem?_map, List.getElem?_zipIdx, ← hfull, hx, Option.map_some, Nat.zero_add]
  rw [hcell index _ hL hx]

/-- The windows of both series agree once they start after cell `L`. -/
lemma recent (h : AgreeFrom L k full slice) {w n : ℕ} (hL : k = 0 ∨ L + w ≤ n)
    (hn : n ≤ slice.length) : recent w n slice = SlidingWindow.recent w (k + n) full := by
  apply List.ext_getElem?
  intro index
  unfold SlidingWindow.recent
  rw [List.getElem?_drop, List.getElem?_drop, List.getElem?_take, List.getElem?_take]
  by_cases hlt : n - w + index < n
  · rw [if_pos hlt, if_pos (by omega), h.cell _ (by omega) (by omega)]
    congr 1
    omega
  · rw [if_neg hlt, if_neg (by omega)]

/-- A windowed function reads `w - 1` cells back. -/
theorem windowed {full slice : List (Option α)} (h : AgreeFrom L k full slice) {w : ℕ}
    (hw : 0 < w) (f : List α → Option β) :
    AgreeFrom (L + w - 1) k (windowed w f full) (SlidingWindow.windowed w f slice) := by
  have hlength := h.length
  refine ⟨by rw [windowed_length, windowed_length]; exact hlength, ?_⟩
  intro index hindex hlt
  rw [windowed_length] at hlt
  have hrecent := h.recent (w := w) (n := index + 1) (by omega) (by omega)
  have hcomplete : w ≤ index + 1 ↔ w ≤ k + index + 1 := by omega
  unfold SlidingWindow.windowed
  rw [List.getElem?_map, List.getElem?_map, List.getElem?_range hlt,
    List.getElem?_range (by omega), Option.map_some, Option.map_some, hrecent, ← Nat.add_assoc]
  simp only [hcomplete]

end AgreeFrom

end SlidingWindow
