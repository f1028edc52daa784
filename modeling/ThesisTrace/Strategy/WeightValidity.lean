import Mathlib.Algebra.BigOperators.Ring.List
import Mathlib.Algebra.Order.BigOperators.Group.List
import Mathlib.Tactic.FieldSimp
import ThesisTrace.Library.FirstError
import ThesisTrace.Strategy.PortfolioWeighting

/-!
# Valid weights

Weights are canonical when they are the texts of positive ratios with sum one. The validation
accepts canonical weights up to its limits on digits and denominators, and nothing else.
-/

namespace ThesisTrace.Weighting
open Transaction DecimalContext RatioText
open Strategy (InstrumentId Session)

/-! ### Canonical weights -/

/-- The texts of positive ratios with sum one, for the given instruments. -/
structure CanonicalRows (ids : List InstrumentId) (weights : WeightTexts)
    (rows : List (InstrumentId × ℚ)) : Prop where
  nodup : ids.Nodup
  instruments : (rows.map Prod.fst).Perm ids
  entries : weights.entries = rows.map fun row => ⟨row.1, ratioText row.2⟩
  positive : ∀ row ∈ rows, 0 < row.2
  total : rows ≠ [] → (rows.map Prod.snd).sum = 1

/-- The ratios are multiples of a common fraction. -/
def CommonFraction (denominator : ℕ) (rows : List (InstrumentId × ℚ)) : Prop :=
  0 < denominator ∧ ∀ row ∈ rows, ∃ part : ℕ, row.2 = part / denominator

/-- The limits of the validation. -/
def WithinLimits (rows : List (InstrumentId × ℚ)) : Prop :=
  (∀ row ∈ rows, Fits 128 row.2) ∧
    ∃ denominator, commonDenominator 1 (rows.map Prod.snd) = .ok denominator

section Canonical
variable {ids : List InstrumentId} {weights : WeightTexts} {rows : List (InstrumentId × ℚ)}

lemma CanonicalRows.keys_eq (h : CanonicalRows ids weights rows) :
    weights.keys = rows.map Prod.fst := by
  rw [AList.keys, h.entries, List.keys, List.map_map]
  rfl

lemma CanonicalRows.weightValues_eq (h : CanonicalRows ids weights rows) :
    weightValues weights = rows.map fun row => ratioText row.2 := by
  rw [weightValues, h.entries, List.map_map]
  rfl

/-- A part of the whole is at most the whole. -/
lemma CanonicalRows.le_one (h : CanonicalRows ids weights rows) {row : InstrumentId × ℚ}
    (hrow : row ∈ rows) : row.2 ≤ 1 := by
  rw [← h.total (List.ne_nil_of_mem hrow)]
  refine List.single_le_sum (fun x hx => ?_) _ (List.mem_map_of_mem hrow)
  obtain ⟨other, hother, rfl⟩ := List.mem_map.mp hx
  exact (h.positive other hother).le

lemma found_readRatio {q : ℚ} (hpos : 0 < q) {ratio : ℚ} :
    found (readRatio 128 (ratioText q)) WeightingError.ratioGrammar = .ok ratio ↔
      Fits 128 q ∧ ratio = q := by
  rw [found_ok_iff]
  by_cases hfits : Fits 128 q
  · rw [(readRatio_ratioText (by decide) hpos).1 hfits]
    simp [hfits, eq_comm]
  · rw [(readRatio_ratioText (by decide) hpos).2 hfits]
    simp [hfits]

/-- The ratios are read back, if they fit. -/
lemma mapM_readRatio (hpos : ∀ row ∈ rows, 0 < row.2) {ratios : List ℚ} :
    ((rows.map fun row => ratioText row.2).mapM fun text =>
        found (readRatio 128 text) WeightingError.ratioGrammar) = .ok ratios ↔
      (∀ row ∈ rows, Fits 128 row.2) ∧ ratios = rows.map Prod.snd := by
  induction rows generalizing ratios with
  | nil =>
    rw [List.map_nil, List.mapM_nil, pure_ok_iff]
    simp [eq_comm]
  | cons row rows ih =>
    have hrest := @ih fun other hother => hpos other (List.mem_cons_of_mem row hother)
    simp only [List.map_cons, List.mapM_cons, bind_ok_iff, pure_ok_iff,
      found_readRatio (hpos row List.mem_cons_self), hrest, List.forall_mem_cons]
    constructor
    · rintro ⟨_, ⟨hhead, rfl⟩, _, ⟨htail, rfl⟩, rfl⟩
      exact ⟨⟨hhead, htail⟩, rfl⟩
    · rintro ⟨⟨hhead, htail⟩, rfl⟩
      exact ⟨_, ⟨hhead, rfl⟩, _, ⟨htail, rfl⟩, rfl⟩

/-- Canonical weights are accepted up to the limits. -/
theorem CanonicalRows.valid_iff (h : CanonicalRows ids weights rows) :
    validateTargetWeights ids weights = .ok () ↔ WithinLimits rows := by
  unfold validateTargetWeights
  simp only [bind_ok_iff, require_ok_iff, h.weightValues_eq, mapM_readRatio h.positive, h.keys_eq]
  constructor
  · rintro ⟨-, -, ratios, ⟨hfits, rfl⟩, -, -, denominator, hdenominator, -⟩
    exact ⟨hfits, denominator, hdenominator⟩
  · rintro ⟨hfits, denominator, hdenominator⟩
    refine ⟨(), ⟨h.nodup, fun id hid => h.instruments.mem_iff.mp hid,
      fun id hid => h.instruments.mem_iff.mpr hid⟩, _, ⟨hfits, rfl⟩, (), ?_, denominator,
      hdenominator, ?_⟩
    · intro pair hpair
      rw [List.zip_map'] at hpair
      obtain ⟨row, hrow, rfl⟩ := List.mem_map.mp hpair
      exact ⟨rfl, h.positive row hrow, h.le_one hrow⟩
    · by_cases hnil : rows = []
      · left
        have hperm := h.instruments
        rw [hnil] at hperm
        exact hperm.nil_eq.symm
      · exact .inr (h.total hnil)

/-- Accepted texts are those of positive ratios. -/
lemma exists_rows {es : List (Sigma fun _ : InstrumentId => String)} {ratios : List ℚ}
    (h : ((es.map fun e => e.2).mapM fun text =>
      found (readRatio 128 text) WeightingError.ratioGrammar) = .ok ratios)
    (hcanonical : ∀ pair ∈ (es.map fun e => e.2).zip ratios,
      ratioText pair.2 = pair.1 ∧ 0 < pair.2 ∧ pair.2 ≤ 1) :
    ∃ rows : List (InstrumentId × ℚ), rows.map Prod.snd = ratios ∧
      (es = rows.map fun row => ⟨row.1, ratioText row.2⟩) ∧ ∀ row ∈ rows, 0 < row.2 := by
  induction es generalizing ratios with
  | nil =>
    rw [List.map_nil, List.mapM_nil, pure_ok_iff] at h
    exact ⟨[], h, rfl, by simp⟩
  | cons e es ih =>
    simp only [List.map_cons, List.mapM_cons, bind_ok_iff, pure_ok_iff] at h
    obtain ⟨ratio, -, rest, hrest, rfl⟩ := h
    obtain ⟨hhead, htail⟩ := List.forall_mem_cons.mp hcanonical
    obtain ⟨rows, hsnd, hes, hpos⟩ := ih hrest htail
    refine ⟨(e.1, ratio) :: rows, by rw [List.map_cons, hsnd], ?_, ?_⟩
    · rw [List.map_cons, hhead.1, ← hes]
    · exact List.forall_mem_cons.mpr ⟨hhead.2.1, hpos⟩

/-- What the validation accepts is canonical. -/
theorem canonicalRows_of_valid (h : validateTargetWeights ids weights = .ok ()) :
    ∃ rows, CanonicalRows ids weights rows := by
  unfold validateTargetWeights at h
  simp only [bind_ok_iff, require_ok_iff] at h
  obtain ⟨-, ⟨hnodup, hkeys, hids⟩, ratios, hratios, -, hcanonical, -, -, htotal⟩ := h
  obtain ⟨rows, rfl, hentries, hpos⟩ := exists_rows hratios hcanonical
  have hfst : rows.map Prod.fst = weights.keys := by
    rw [AList.keys, hentries, List.keys, List.map_map]
    rfl
  refine ⟨rows, hnodup, ?_, hentries, hpos, fun hne => htotal.resolve_left ?_⟩
  · rw [hfst]
    exact (List.perm_ext_iff_of_nodup weights.keys_nodup hnodup).mpr fun id =>
      ⟨hkeys id, hids id⟩
  · rintro rfl
    obtain ⟨row, hrow⟩ := List.exists_mem_of_ne_nil rows hne
    have hmem := hkeys row.1 (hfst ▸ List.mem_map_of_mem hrow)
    cases hmem

end Canonical

/-! ### Common fractions -/

section Common
variable {rows : List (InstrumentId × ℚ)} {denominator : ℕ}

end Common

/-! ### Normalization -/

section Normalized
variable {rows : List (InstrumentId × ℚ)}

end Normalized

end ThesisTrace.Weighting
