import Mathlib.Algebra.BigOperators.Ring.Finset
import Mathlib.Tactic.FieldSimp
import Mathlib.Tactic.Linarith
import Mathlib.Tactic.Ring
import ThesisTrace.Alpha.Rolling
import ThesisTrace.Alpha.Rounding

/-!
# Rolling builtins equal their window definitions

The minimum, the maximum and the population standard deviation of a window are defined on the
values of its cells. The sliding loops report these values, and their counters and running sums
stand for the last window of cells after every step.
-/

namespace ThesisTrace.Alpha
open Numeric SlidingWindow

variable {F : Type} [Numeric F]

/-- The window that ends at a cell has all its cells, and none of them is missing. -/
def Complete {α : Type} (w index : ℕ) (series : Series α) : Prop :=
  w ≤ index + 1 ∧ (recent w (index + 1) series).all Option.isSome

instance {α : Type} (w index : ℕ) (series : Series α) : Decidable (Complete w index series) := by
  unfold Complete
  infer_instance

def values (series : Series (Item F)) : Series ℚ := series.map (Option.map Item.value)

/-! ### Extremes -/

section Extreme

variable {α : Type} {value : α → ℚ} {minimum : Bool}

lemma dominated_trans {a b c : ℚ} (hab : dominated minimum a b = true)
    (hbc : dominated minimum b c = true) : dominated minimum a c = true := by
  unfold dominated at *
  cases minimum <;> simp only [Bool.false_eq_true, if_false, if_true, decide_eq_true_eq] at *
  · exact hab.trans hbc
  · exact hbc.trans hab

lemma dominated_of_not {a b : ℚ} (h : ¬dominated minimum a b = true) :
    dominated minimum b a = true := by
  unfold dominated at *
  cases minimum <;> simp only [Bool.false_eq_true, if_false, if_true, decide_eq_true_eq] at *
  · exact (not_le.mp h).le
  · exact (not_le.mp h).le

lemma dominated_refl (a : ℚ) : dominated minimum a a = true := by
  unfold dominated
  cases minimum <;> simp

/-- Earlier candidates dominate later ones. -/
lemma extremeStack_pairwise (items : List α) :
    (extremeStack value minimum items).Pairwise
      fun a b => dominated minimum (value b) (value a) = true := by
  induction items using List.reverseRecOn with
  | nil => exact List.Pairwise.nil
  | append_singleton items last ih =>
    have hkept := ih.sublist (List.rdropWhile_prefix
      (fun other => dominated minimum (value other) (value last)) _).sublist
    rw [extremeStack_concat]
    refine List.pairwise_append.mpr ⟨hkept, List.pairwise_singleton _ _, ?_⟩
    intro item hitem other hother
    obtain rfl := List.mem_singleton.mp hother
    have hnonempty := List.ne_nil_of_mem hitem
    have hlast := List.rdropWhile_last_not
      (fun item => dominated minimum (value item) (value other)) _ hnonempty
    have hitemLast := hkept.rel_getLast_of_rel_getLast_getLast hitem (dominated_refl _)
    exact dominated_trans (dominated_of_not hlast) hitemLast

/-- Every item is dominated by a candidate. -/
lemma exists_mem_extremeStack {items : List α} {item : α} (h : item ∈ items) :
    ∃ candidate ∈ extremeStack value minimum items,
      dominated minimum (value item) (value candidate) = true := by
  induction items using List.reverseRecOn with
  | nil => cases h
  | append_singleton items last ih =>
    rw [extremeStack_concat]
    rcases List.mem_append.mp h with hold | hnew
    · obtain ⟨candidate, hcandidate, hdominated⟩ := ih hold
      rw [← List.rdropWhile_append_rtakeWhile (l := extremeStack value minimum items)
        (p := fun other => dominated minimum (value other) (value last))] at hcandidate
      rcases List.mem_append.mp hcandidate with hkept | hdropped
      · exact ⟨candidate, List.mem_append_left _ hkept, hdominated⟩
      · have hlast := List.mem_rtakeWhile_imp hdropped
        exact ⟨last, by simp, dominated_trans hdominated hlast⟩
    · obtain rfl := List.mem_singleton.mp hnew
      exact ⟨item, by simp, dominated_refl _⟩

/-- The extreme of some items dominates all of them. -/
lemma dominated_of_extreme {items : List α} {item other : α}
    (h : extreme value minimum items = some item) (hother : other ∈ items) :
    dominated minimum (value other) (value item) = true := by
  obtain ⟨candidate, hcandidate, hdominated⟩ :=
    @exists_mem_extremeStack α value minimum _ _ hother
  have hpairwise := @extremeStack_pairwise α value minimum items
  obtain ⟨rest, hstack⟩ := List.head?_eq_some_iff.mp h
  rw [hstack] at hcandidate hpairwise
  rcases List.mem_cons.mp hcandidate with rfl | hrest
  · exact hdominated
  · exact dominated_trans hdominated ((List.pairwise_cons.mp hpairwise).1 _ hrest)

/-- The direct definition of `ts_min` and `ts_max`. -/
def windowExtreme (minimum : Bool) (values : List ℚ) : Option ℚ :=
  if minimum then values.min? else values.max?

lemma extreme_isSome {items : List α} (h : items ≠ []) :
    (extreme value minimum items).isSome = true := by
  obtain ⟨item, hitem⟩ := List.exists_mem_of_ne_nil _ h
  obtain ⟨candidate, hcandidate, _⟩ := @exists_mem_extremeStack α value minimum _ _ hitem
  rw [extreme, List.isSome_head?]
  exact List.ne_nil_of_mem hcandidate

/-- The front of the deque has the least, or the greatest, value. -/
theorem extreme_eq_windowExtreme (items : List α) :
    (extreme value minimum items).map value = windowExtreme minimum (items.map value) := by
  cases h : extreme value minimum items with
  | none =>
    have hempty : items = [] := by
      by_contra hne
      simpa [h] using @extreme_isSome α value minimum _ hne
    subst hempty
    cases minimum <;> rfl
  | some item =>
    have hmem : value item ∈ items.map value := List.mem_map_of_mem (mem_of_extreme h)
    have hbound : ∀ other ∈ items.map value, dominated minimum other (value item) = true := by
      intro other hother
      obtain ⟨item', hitem', rfl⟩ := List.mem_map.mp hother
      exact dominated_of_extreme h hitem'
    cases minimum with
    | false => exact (List.max?_eq_some_iff.mpr ⟨hmem, by simpa [dominated] using hbound⟩).symm
    | true => exact (List.min?_eq_some_iff.mpr ⟨hmem, by simpa [dominated] using hbound⟩).symm

end Extreme

/-! ### Standard deviations -/

def mean (values : List ℚ) : ℚ := values.sum / values.length

/-- The direct definition of the variance of a window. -/
def populationVariance (values : List ℚ) : ℚ :=
  (values.map fun value => (value - mean values) ^ 2).sum / values.length

/-- The direct definition of `ts_std`; nothing where the variance overflows. -/
def standardDeviation (values : List ℚ) : Option F :=
  (finite (ofRat (populationVariance values) : F)).map fun variance =>
    sqrt (if 0 < toRat variance then variance else ofInt 0)

lemma sum_squared_deviations (values : List ℚ) (center : ℚ) :
    (values.map fun value => (value - center) ^ 2).sum
      = (values.map fun value => value * value).sum - 2 * center * values.sum
        + values.length * center ^ 2 := by
  induction values with
  | nil => simp
  | cons value values ih =>
    simp only [List.map_cons, List.sum_cons, List.length_cons, ih]
    push_cast
    ring

/-- The deviations from the mean, multiplied out. -/
lemma populationVariance_eq {values : List ℚ} (h : values ≠ []) :
    populationVariance values
      = ((values.map fun value => value * value).sum * values.length - values.sum * values.sum)
        / (values.length * values.length) := by
  have hlength : (values.length : ℚ) ≠ 0 := by
    exact_mod_cast (List.length_pos_of_ne_nil h).ne'
  unfold populationVariance mean
  rw [sum_squared_deviations]
  field_simp
  ring

lemma populationVariance_nonneg (values : List ℚ) : 0 ≤ populationVariance values := by
  apply div_nonneg _ (Nat.cast_nonneg _)
  apply List.sum_nonneg
  intro square hsquare
  obtain ⟨value, _, rfl⟩ := List.mem_map.mp hsquare
  exact sq_nonneg _

/-- The running sums of at most `w` integers have a variance numerator that is not negative. -/
lemma sum_mul_sum_le {w : ℕ} {values : List ℤ} (h : values.length ≤ w) :
    values.sum * values.sum ≤ (values.map fun exact => exact * exact).sum * w := by
  have hsquares : 0 ≤ (values.map fun exact => exact * exact).sum := by
    apply List.sum_nonneg
    intro square hsquare
    obtain ⟨value, _, rfl⟩ := List.mem_map.mp hsquare
    exact mul_self_nonneg _
  have hlength : values.sum * values.sum
      ≤ (values.map fun exact => exact * exact).sum * values.length := by
    by_cases hempty : values = []
    · simp [hempty]
    · have hpos : (0 : ℚ) < values.length := by exact_mod_cast List.length_pos_of_ne_nil hempty
      have hvariance := populationVariance_nonneg (values.map ((↑) : ℤ → ℚ))
      rw [populationVariance_eq (by simpa using hempty), List.length_map, List.map_map,
        le_div_iff₀ (mul_pos hpos hpos), zero_mul, sub_nonneg] at hvariance
      have hsum : (values.map ((↑) : ℤ → ℚ)).sum = (values.sum : ℚ) := (Int.cast_list_sum _).symm
      have hsquare : (values.map ((fun value : ℚ => value * value) ∘ ((↑) : ℤ → ℚ))).sum
          = ((values.map fun exact => exact * exact).sum : ℤ) := by
        rw [Int.cast_list_sum, List.map_map]
        simp [Function.comp_def]
      rw [hsum, hsquare] at hvariance
      exact_mod_cast hvariance
  calc values.sum * values.sum
      ≤ (values.map fun exact => exact * exact).sum * values.length := hlength
    _ ≤ (values.map fun exact => exact * exact).sum * w :=
        mul_le_mul_of_nonneg_left (by exact_mod_cast h) hsquares

/-- A binary64 number becomes an integer at the scale of the least positive one. -/
lemma scaledBinary64_eq {value : ℚ} (h : value.den ∣ binary64Scale) :
    (scaledBinary64 value : ℚ) = value * binary64Scale := by
  obtain ⟨factor, hfactor⟩ := h
  have hden : 0 < value.den := value.den_pos
  unfold scaledBinary64
  rw [hfactor, Nat.mul_div_cancel_left _ hden]
  push_cast
  rw [← mul_assoc, Rat.mul_den_eq_num]

/-- The exact sums of the scaled values give the variance of the values. -/
lemma deviation_eq_standardDeviation {w : ℕ} (hw : 0 < w) {values : List ℚ}
    (hlength : values.length = w) (hscale : ∀ value ∈ values, value.den ∣ binary64Scale) :
    (deviation w (values.map scaledBinary64) : Option F) = standardDeviation values := by
  have hnonempty : values ≠ [] := List.ne_nil_of_length_pos (by omega)
  have hscaled : values.map (fun value => (scaledBinary64 value : ℚ))
      = values.map fun value => value * (binary64Scale : ℚ) :=
    List.map_congr_left fun value hvalue => scaledBinary64_eq (hscale value hvalue)
  have hsum : (((values.map scaledBinary64).sum : ℤ) : ℚ) = values.sum * binary64Scale := by
    have hfactor := List.sum_map_mul_right values id (binary64Scale : ℚ)
    rw [List.map_id] at hfactor
    rw [Int.cast_list_sum, List.map_map, ← hfactor]
    exact congrArg List.sum hscaled
  have hsquares : ((((values.map scaledBinary64).map fun exact => exact * exact).sum : ℤ) : ℚ)
      = (values.map fun value => value * value).sum * (binary64Scale * binary64Scale) := by
    rw [Int.cast_list_sum, List.map_map, List.map_map, ← List.sum_map_mul_right]
    apply congrArg List.sum
    apply List.map_congr_left
    intro value hvalue
    simp only [Function.comp_apply, Int.cast_mul, scaledBinary64_eq (hscale value hvalue)]
    ring
  have hscalePos : (binary64Scale : ℚ) ≠ 0 := by
    unfold binary64Scale
    positivity
  have hwPos : (w : ℚ) ≠ 0 := by exact_mod_cast hw.ne'
  unfold deviation populationDeviation standardDeviation
  rw [hsum, hsquares, populationVariance_eq hnonempty, hlength]
  field_simp

lemma forall_mem_recent {α : Type} {P : α → Prop} {w n : ℕ} {series : Series α}
    (h : ∀ item, some item ∈ series → P item) :
    ∀ item ∈ (recent w n series).reduceOption, P item := by
  intro item hitem
  exact h item (mem_of_mem_recent (List.reduceOption_mem_iff.mp hitem))

/-! ### States of the loops -/

def extremeState {α : Type} (value : α → ℚ) (minimum : Bool) (w : ℕ) (series : Series α) (n : ℕ) :
    RollingExtreme α :=
  (List.range n).foldl (rollingExtremeStep value minimum w series) ⟨[], 0, []⟩

def deviationState (w : ℕ) (series : Series ℤ) (n : ℕ) : RollingDeviation F :=
  (series.take n).foldl (rollingDeviationStep w) ⟨[], 0, 0, 0, []⟩

def totalState (sum : RollingSum F) (w divisor : ℕ) (series : Series F) (n : ℕ) :
    RollingTotal F sum :=
  (List.range n).foldl (rollingTotalStep sum w divisor series) ⟨sum.empty, 0, []⟩

/-- The deque and its counter stand for the last window of cells. -/
lemma extremeState_stands {α : Type} (value : α → ℚ) (minimum : Bool) (w : ℕ) {series : Series α}
    {n : ℕ} (hn : n ≤ series.length) :
    ExtremeStandsFor value minimum (entries w n series) (recent w n series)
      (extremeState value minimum w series n) := by
  apply foldl_range_invariant (I := fun n state =>
    ExtremeStandsFor value minimum (entries w n series) (recent w n series) state)
  · exact ⟨by simp [entries, candidatesOf], by simp⟩
  · intro index hindex state hstate
    exact rollingExtremeStep_slides (by omega) hstate

lemma recent_take {α : Type} {w m n : ℕ} (series : List α) (h : m ≤ n) :
    recent w m (series.take n) = recent w m series := by
  unfold recent
  rw [List.take_take, Nat.min_eq_left h]

/-- The queue, its counter and the running sums stand for the last window of cells. -/
lemma deviationState_stands (w : ℕ) {series : Series ℤ} {n : ℕ} (hn : n ≤ series.length) :
    DeviationStandsFor (recent w n series) (deviationState w series n : RollingDeviation F) := by
  have hlength : (series.take n).length = n := by
    rw [List.length_take]
    omega
  unfold deviationState
  rw [foldl_eq_foldl_range, hlength]
  rw [← recent_take series (Nat.le_refl n)]
  apply foldl_range_invariant (I := fun m (state : RollingDeviation F) =>
    DeviationStandsFor (recent w m (series.take n)) state)
  · exact ⟨by simp, by simp, by simp, by simp⟩
  · intro index hindex state hstate
    exact rollingDeviationStep_slides (by omega) hstate

/-- The counter of a rolling total counts the missing cells, however the total is kept. -/
lemma totalState_missing (sum : RollingSum F) (w divisor : ℕ) {series : Series F} {n : ℕ}
    (hn : n ≤ series.length) :
    (totalState sum w divisor series n).missing = missing (recent w n series) := by
  apply foldl_range_invariant (I := fun n (state : RollingTotal F sum) =>
    state.missing = missing (recent w n series))
  · simp
  · intro index hindex state hstate
    have hcell : series[index]?.join = series[index] := by
      rw [List.getElem?_eq_getElem (by omega)]
      rfl
    have hpushed : (state.push series[index]).missing
        = missing (recent w index series ++ [series[index]]) := by
      rw [missing_concat, ← hstate]
      cases series[index]
      · rfl
      · exact (add_zero _).symm
    unfold rollingTotalStep
    rw [hcell]
    by_cases hw : w ≤ index
    · have hexpired : series[index - w]?.join = series[index - w] := by
        rw [List.getElem?_eq_getElem (by omega)]
        rfl
      rw [recent_succ_of_le hw (by omega), missing_cons] at hpushed
      simp only [if_pos hw, hexpired]
      cases hcell' : series[index - w] with
      | none =>
        rw [hcell'] at hpushed
        simp [RollingTotal.expire, hpushed]
      | some value =>
        rw [hcell'] at hpushed
        simpa [RollingTotal.expire] using hpushed
    · rw [← recent_succ_of_lt (by omega) (by omega)] at hpushed
      simp only [if_neg hw]
      exact hpushed

/-! ### The builtins -/

/-- A windowed function is missing where its window is incomplete or where it has no value. -/
lemma windowed_missing_iff {α β : Type} {w index : ℕ} {f : List α → Option β} {series : Series α}
    (hindex : index < series.length) :
    (windowed w f series)[index]? = some none ↔
      ¬Complete w index series ∨ f (recent w (index + 1) series).reduceOption = none := by
  unfold windowed Complete
  rw [List.getElem?_map, List.getElem?_range hindex, Option.map_some, Option.some_inj]
  split
  · next hcomplete => simp [hcomplete]
  · next hincomplete => exact iff_of_true rfl (.inl hincomplete)

lemma complete_values {w index : ℕ} {series : Series (Item F)} :
    Complete w index (values series) ↔ Complete w index series := by
  unfold Complete values
  rw [recent_map, List.all_map]
  simp [Function.comp_def]

lemma recent_reduceOption_ne_nil {α : Type} {w index : ℕ} {series : Series α} (hw : 0 < w)
    (hindex : index < series.length) (h : Complete w index series) :
    (recent w (index + 1) series).reduceOption ≠ [] := by
  have hlength := reduceOption_length_of_all h.2
  rw [recent_length (by omega)] at hlength
  exact List.ne_nil_of_length_pos (by omega)

/-- The monotone deque reports the least, or the greatest, value of every complete window. -/
theorem values_rollingExtreme (minimum : Bool) (w : ℕ) (series : Series (Item F)) :
    values (rollingExtreme Item.value minimum w series)
      = windowed w (windowExtreme minimum) (values series) := by
  rw [rollingExtreme_eq_windowed]
  exact (windowed_map fun window _ => (extreme_eq_windowExtreme window).symm).symm

/-- It reports a missing cell exactly where the window is incomplete. -/
theorem rollingExtreme_missing_iff (minimum : Bool) {w index : ℕ} {series : Series (Item F)}
    (hw : 0 < w) (hindex : index < series.length) :
    (rollingExtreme Item.value minimum w series)[index]? = some none
      ↔ ¬Complete w index series := by
  rw [rollingExtreme_eq_windowed, windowed_missing_iff hindex]
  constructor
  · rintro (hincomplete | hnone) hcomplete
    · exact hincomplete hcomplete
    · have hsome := @extreme_isSome _ Item.value minimum _
        (recent_reduceOption_ne_nil hw hindex hcomplete)
      simp [hnone] at hsome
  · exact .inl

def scaledValues (series : Series (Item F)) : Series ℤ :=
  series.map (Option.map fun item => scaledBinary64 item.value)

/-- The exact running sums report the standard deviation of every complete window. -/
theorem populationStd_eq_standardDeviation {w : ℕ} (hw : 0 < w) {series : Series (Item F)}
    (hbinary : ∀ item, some item ∈ series → item.value.den ∣ binary64Scale) :
    (populationStd w (scaledValues series) : Series F)
      = windowed w standardDeviation (values series) := by
  rw [populationStd_eq_windowed]
  have hscaled : scaledValues series = (values series).map (Option.map scaledBinary64) := by
    simp [scaledValues, values, Function.comp_def]
  have hvalues : ∀ value, some value ∈ values series → value.den ∣ binary64Scale := by
    intro value hvalue
    obtain ⟨cell, hcell, hsome⟩ := List.mem_map.mp hvalue
    obtain ⟨item, rfl, rfl⟩ := Option.map_eq_some_iff.mp hsome
    exact hbinary item hcell
  unfold windowed
  rw [hscaled, List.length_map]
  apply List.map_congr_left
  intro index hindex
  have hall : ((recent w (index + 1) (values series)).map (Option.map scaledBinary64)).all
      Option.isSome = (recent w (index + 1) (values series)).all Option.isSome := by
    simp [List.all_map, Function.comp_def]
  rw [recent_map, hall, List.reduceOption_map]
  split
  · next hcomplete =>
    apply deviation_eq_standardDeviation hw
    · rw [reduceOption_length_of_all hcomplete.2, recent_length (List.mem_range.mp hindex)]
      omega
    · exact forall_mem_recent hvalues
  · rfl

lemma standardDeviation_eq_none_iff {window : List ℚ} :
    (standardDeviation window : Option F) = none
      ↔ isFinite (ofRat (populationVariance window) : F) = false := by
  unfold standardDeviation finite
  rw [Option.map_eq_none_iff]
  split <;> simp_all

/-- The sliding builtins report the direct definitions over the last window of cells. The extremes
are missing exactly where the window is incomplete or has a missing cell, the deviation also where
the exact variance overflows. After every step each counter is the number of missing cells of the
window, and the variance numerator is not negative. -/
theorem rolling_builtins_windowed (sum : RollingSum F) {w : ℕ} (hw : 0 < w)
    {series : Series (Item F)}
    (hbinary : ∀ item, some item ∈ series → item.value.den ∣ binary64Scale) :
    (∃ minima maxima : Series (Item F), ∃ deviations : Series F,
      evaluateTemporal sum .tsMin w series = .ok minima
      ∧ evaluateTemporal sum .tsMax w series = .ok maxima
      ∧ evaluateTemporal sum .tsStd w series = .ok (deviations.map (Option.map .float))
      ∧ values minima = windowed w List.min? (values series)
      ∧ values maxima = windowed w List.max? (values series)
      ∧ deviations = windowed w standardDeviation (values series)
      ∧ ∀ index < series.length,
        (minima[index]? = some none ↔ ¬Complete w index series)
        ∧ (maxima[index]? = some none ↔ ¬Complete w index series)
        ∧ (deviations[index]? = some none ↔ ¬Complete w index series ∨ isFinite
            (ofRat (populationVariance (recent w (index + 1) (values series)).reduceOption) : F)
              = false))
    ∧ ∀ n ≤ series.length,
      (∀ minimum, (extremeState Item.value minimum w series n).missing
        = missing (recent w n series))
      ∧ (deviationState w (scaledValues series) n : RollingDeviation F).missing
        = missing (recent w n series)
      ∧ (∀ divisor, (totalState sum w divisor (series.map (Option.map Item.toFloat)) n).missing
        = missing (recent w n series))
      ∧ 0 ≤ (deviationState w (scaledValues series) n : RollingDeviation F).squares * w
        - (deviationState w (scaledValues series) n : RollingDeviation F).total
          * (deviationState w (scaledValues series) n : RollingDeviation F).total := by
  refine ⟨⟨rollingExtreme Item.value true w series, rollingExtreme Item.value false w series,
    populationStd w (scaledValues series), rfl, rfl, rfl, values_rollingExtreme true w series,
    values_rollingExtreme false w series, populationStd_eq_standardDeviation hw hbinary, ?_⟩, ?_⟩
  · intro index hindex
    refine ⟨rollingExtreme_missing_iff true hw hindex, rollingExtreme_missing_iff false hw hindex, ?_⟩
    have hlength : index < (values series).length := by simpa [values] using hindex
    rw [populationStd_eq_standardDeviation hw hbinary, windowed_missing_iff hlength,
      complete_values, standardDeviation_eq_none_iff]
  · intro n hn
    have hlength : n ≤ (scaledValues series).length := by simpa [scaledValues] using hn
    have hdeviation := deviationState_stands (F := F) w hlength
    have hmissing : missing (recent w n (scaledValues series)) = missing (recent w n series) := by
      rw [scaledValues, recent_map, missing_map]
    refine ⟨fun minimum => (extremeState_stands Item.value minimum w hn).missing,
      hdeviation.missing.trans hmissing, ?_, ?_⟩
    · intro divisor
      rw [totalState_missing sum w divisor (by simpa using hn), recent_map, missing_map]
    · rw [hdeviation.squares, hdeviation.total]
      apply sub_nonneg.mpr
      apply sum_mul_sum_le
      have hcells := List.reduceOption_length_le (recent w n (scaledValues series))
      rw [recent_length hlength] at hcells
      omega

def shortSeries : Series (Item Binary64) :=
  [some (.int 3), none, some (.float (some (-5))), some (.int 3)]

theorem rolling_builtins_windowed_short :
    (∃ minima : Series (Item Binary64),
      evaluateTemporal compensatedSum .tsMin 2 shortSeries = .ok minima
      ∧ values minima = windowed 2 List.min? (values shortSeries))
    ∧ ∀ n ≤ 4, 0 ≤
      (deviationState 2 (scaledValues shortSeries) n : RollingDeviation Binary64).squares * 2
        - (deviationState 2 (scaledValues shortSeries) n : RollingDeviation Binary64).total
          * (deviationState 2 (scaledValues shortSeries) n : RollingDeviation Binary64).total := by
  have hbinary : ∀ item, some item ∈ shortSeries → item.value.den ∣ binary64Scale := by
    intro item hitem
    have hcases : item = .int 3 ∨ item = .float (some (-5)) := by
      simpa [shortSeries, or_assoc, or_comm, or_left_comm] using hitem
    rcases hcases with rfl | rfl
    · exact one_dvd _
    · exact one_dvd _
  obtain ⟨⟨minima, _, _, hminima, _, _, hvalues, _⟩, hstates⟩ :=
    rolling_builtins_windowed (w := 2) compensatedSum (by decide) hbinary
  exact ⟨⟨minima, hminima, hvalues⟩, fun n hn => (hstates n hn).2.2.2⟩

/-- Two numbers whose variance exceeds the greatest binary64 number. -/
def wideSeries : Series (Item Binary64) :=
  [some (.float (some (2 ^ 600 : ℚ))), some (.float (some (-2 ^ 600 : ℚ)))]

/-- A complete window without missing cells has no deviation where its variance overflows. -/
theorem complete_window_without_deviation :
    Complete 2 1 wideSeries ∧ ∃ deviations : Series (Item Binary64),
      evaluateTemporal compensatedSum .tsStd 2 wideSeries = .ok deviations
      ∧ deviations[1]? = some none :=
  ⟨by decide +kernel, _, rfl, by decide +kernel⟩

end ThesisTrace.Alpha
