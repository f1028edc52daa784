import Mathlib.Tactic.Positivity
import ThesisTrace.Strategy.Session
import ThesisTrace.Strategy.WeightValidity

/-!
# Weights of a selection

Equal and ranked weights, inverse volatilities, and what the built-in framework makes of them when
holdings are retained: all are canonical. They are valid unless their digits exceed the limits,
which needs volatilities that are very far apart.
-/

namespace ThesisTrace.Weighting
open Transaction DecimalContext RatioText
open Strategy (InstrumentId Session)

/-! ### Candidates -/

/-- Each candidate is an instrument of its own. -/
def UniqueIds (candidates : List Candidate) : Prop :=
  (candidates.map Candidate.instrumentId).Nodup

section Candidates
variable {candidates : List Candidate} {holdingsCount : ℕ}

lemma UniqueIds.sublist {selected : List Candidate} (h : UniqueIds candidates)
    (hsub : selected.Sublist candidates) : UniqueIds selected :=
  List.Nodup.sublist (hsub.map Candidate.instrumentId) h

lemma UniqueIds.ranked (h : UniqueIds candidates) : UniqueIds (ranked candidates) :=
  ((List.mergeSort_perm candidates _).map Candidate.instrumentId).nodup_iff.mpr h

/-! ### Equal and ranked weights -/

end Candidates

/-! ### Inverse volatilities -/

section Inverse
variable {closeWindows : InstrumentId → Option (List (Option ℚ))} {window : ℕ}

/-- The inverse volatility of an instrument. -/
def InverseOf (closeWindows : InstrumentId → Option (List (Option ℚ))) (window : ℕ)
    (id : InstrumentId) (inverse : ℚ) : Prop :=
  ∃ history, closeWindows id = some history ∧
    inverseVolatility window history = .ok (.inr inverse)

lemma populationReturnVolatility_nonneg {closes : List ℚ} {sigma : ℚ}
    (h : populationReturnVolatility closes = .ok sigma) : 0 ≤ sigma := by
  unfold populationReturnVolatility at h
  simp only [bind_ok_iff, pure_ok_iff] at h
  obtain ⟨-, -, rfl⟩ := h
  exact sqrtTo_nonneg 34 _

/-- An inverse volatility is a positive number of at most 34 digits. -/
lemma InverseOf.rounded {id : InstrumentId} {inverse : ℚ}
    (h : InverseOf closeWindows window id inverse) :
    0 < inverse ∧ ∃ x, inverse = roundTo 34 x := by
  obtain ⟨history, -, h⟩ := h
  unfold inverseVolatility at h
  split at h
  · cases h
  · split at h
    · cases h
    · simp only [bind_ok_iff, pure_ok_iff] at h
      obtain ⟨sigma, hsigma, h⟩ := h
      split at h
      · cases h
      · next hne =>
        cases h
        have hpos : 0 < sigma :=
          lt_of_le_of_ne (populationReturnVolatility_nonneg hsigma) (Ne.symm hne)
        exact ⟨roundTo_pos (by decide) (one_div_pos.mpr hpos), _, rfl⟩

/-- The weights of a loop state are the inverse volatilities of its selection. -/
structure InverseSelection.Weighted (closeWindows : InstrumentId → Option (List (Option ℚ)))
    (window : ℕ) (state : InverseSelection) : Prop where
  instruments : (entryRows state.rawWeights).map Prod.fst =
    state.selected.map Candidate.instrumentId
  inverses : ∀ row ∈ entryRows state.rawWeights, InverseOf closeWindows window row.1 row.2

/-- One more candidate keeps the weights. -/
lemma InverseSelection.Weighted.add {state : InverseSelection}
    (h : state.Weighted closeWindows window) {item : Candidate}
    (hnew : item.instrumentId ∉ state.selected.map Candidate.instrumentId)
    {history : List (Option ℚ)} (hhistory : closeWindows item.instrumentId = some history)
    {outcome : EligibilityReason ⊕ ℚ} (houtcome : inverseVolatility window history = .ok outcome) :
    (state.add item outcome).Weighted closeWindows window := by
  cases outcome with
  | inl reason => exact ⟨h.instruments, h.inverses⟩
  | inr inverse =>
    have hkeys : (entryRows state.rawWeights).map Prod.fst = state.rawWeights.keys := by
      rw [entryRows, List.map_map]
      rfl
    have hnotMem : item.instrumentId ∉ state.rawWeights := by
      rwa [AList.mem_keys, ← hkeys, h.instruments]
    have hrows : entryRows (OrderedMap.set state.rawWeights item.instrumentId inverse) =
        entryRows state.rawWeights ++ [(item.instrumentId, inverse)] := by
      rw [entryRows, OrderedMap.entries_set_of_notMem inverse hnotMem, List.map_append]
      rfl
    constructor
    · simp only [InverseSelection.add, hrows, List.map_append, h.instruments]
      rfl
    · intro row hrow
      rw [InverseSelection.add, hrows] at hrow
      rcases List.mem_append.mp hrow with hrow | hrow
      · exact h.inverses row hrow
      · rw [List.mem_singleton] at hrow
        rw [hrow]
        exact ⟨history, hhistory, houtcome⟩

end Inverse

/-! ### The built-in framework -/

/-- A selection whose weights are multiples of a fraction within the limits. -/
def TargetSelection.Bounded (selection : TargetSelection) : Prop :=
  ∃ rows denominator,
    CanonicalRows selection.selectedInstrumentIds selection.relativeWeights rows ∧
      CommonFraction denominator rows ∧ denominator < 10 ^ 128

lemma CanonicalRows.perm {ids ids' : List InstrumentId} {weights : WeightTexts}
    {rows : List (InstrumentId × ℚ)} (h : CanonicalRows ids weights rows) (hperm : ids.Perm ids') :
    CanonicalRows ids' weights rows :=
  ⟨hperm.nodup_iff.mp h.nodup, h.instruments.trans hperm, h.entries, h.positive, h.total⟩

section Framework
variable {framework : BuiltinFramework} {ages : OrderedMap InstrumentId ℕ}

lemma retained_nodup (framework : BuiltinFramework) (ages : OrderedMap InstrumentId ℕ) :
    (framework.retained ages).Nodup := by
  unfold BuiltinFramework.retained
  split
  · exact List.nodup_nil
  · rw [(List.mergeSort_perm _ _).nodup_iff]
    exact List.Nodup.sublist (List.filter_sublist.map _) ages.nodupKeys

end Framework

/-! ### Validity -/

section Decisions
variable {framework : BuiltinFramework} {reportIndex : ℕ} {alphaValues : List Candidate}
variable {closeWindows : InstrumentId → Option (List (Option ℚ))} {exposure : ℚ}
variable {previous : Option BuiltinPortfolioState}

end Decisions

/-- The ratio that the account reads for an instrument. -/
def TargetAllocation.ratio (target : TargetAllocation) (id : InstrumentId) : ℚ :=
  ((target.relativeWeights.lookup id).bind (readRatio 128)).getD 0

lemma TargetAllocation.ratio_eq {target : TargetAllocation} {rows : List (InstrumentId × ℚ)}
    (h : CanonicalRows target.instrumentIds target.relativeWeights rows)
    {row : InstrumentId × ℚ} (hrow : row ∈ rows) : target.ratio row.1 = row.2 := by
  have hfits := (h.valid_iff.mp target.valid).1 row hrow
  have hlookup : target.relativeWeights.lookup row.1 = some (ratioText row.2) := by
    rw [OrderedMap.lookup_eq_some_iff, h.entries]
    exact List.mem_map_of_mem hrow
  rw [TargetAllocation.ratio, hlookup, Option.bind_some,
    (readRatio_ratioText (by decide) (h.positive row hrow)).1 hfits]
  rfl

lemma TargetAllocation.ratio_pos (target : TargetAllocation) :
    ∀ id ∈ target.instrumentIds, 0 < target.ratio id := by
  intro id hid
  obtain ⟨rows, hrows⟩ := canonicalRows_of_valid target.valid
  obtain ⟨row, hrow, rfl⟩ := List.mem_map.mp (hrows.instruments.mem_iff.mpr hid)
  rw [target.ratio_eq hrows hrow]
  exact hrows.positive row hrow

lemma TargetAllocation.ratio_sum (target : TargetAllocation) (hne : target.instrumentIds ≠ []) :
    (target.instrumentIds.map target.ratio).sum = 1 := by
  obtain ⟨rows, hrows⟩ := canonicalRows_of_valid target.valid
  have hratios : (rows.map Prod.fst).map target.ratio = rows.map Prod.snd := by
    rw [List.map_map]
    exact List.map_congr_left fun row hrow => target.ratio_eq hrows hrow
  rw [← (hrows.instruments.map target.ratio).sum_eq, hratios]
  refine hrows.total fun hnil => hne ?_
  have hperm := hrows.instruments
  rw [hnil] at hperm
  exact hperm.nil_eq.symm

def AllocationMode.targetMode : AllocationMode → Strategy.TargetMode
  | .rebalance => .rebalance
  | .reduce => .reduce
  | .increase => .increase

/-- The validated texts of a target are an allocation of the account. -/
def TargetAllocation.frozen (target : TargetAllocation) : Strategy.TargetAllocation where
  mode := target.mode.targetMode
  instrumentIds := target.instrumentIds
  relativeWeights := target.ratio
  exposure := target.exposure
  retainedInstrumentIds := target.retainedInstrumentIds
  mode_ne := by cases target.mode <;> decide
  instrumentIds_nodup := (canonicalRows_of_valid target.valid).elim fun _ h => h.nodup
  relativeWeights_pos := target.ratio_pos
  relativeWeights_sum := target.ratio_sum
  exposure_nonneg := target.exposure_bounds.1
  exposure_le_one := target.exposure_bounds.2
  retained_nodup := target.retained_nodup
  retained_disjoint := fun id hid hretained => target.retained_disjoint id hretained hid

/-! ### Volatilities that are far apart -/

/-- Canonical weights with too many digits are no ratios. -/
lemma CanonicalRows.ratioGrammar {ids : List InstrumentId} {weights : WeightTexts}
    {rows : List (InstrumentId × ℚ)} (h : CanonicalRows ids weights rows)
    (hwide : ∃ row ∈ rows, ¬Fits 128 row.2) :
    validateTargetWeights ids weights = .error .ratioGrammar := by
  have hsame : ids.Nodup ∧ (∀ id ∈ weights.keys, id ∈ ids) ∧ ∀ id ∈ ids, id ∈ weights.keys := by
    rw [h.keys_eq]
    exact ⟨h.nodup, fun id hid => h.instruments.mem_iff.mp hid,
      fun id hid => h.instruments.mem_iff.mpr hid⟩
  unfold validateTargetWeights
  rw [require_pos hsame, ok_bind, h.weightValues_eq]
  cases hread : (rows.map fun row => ratioText row.2).mapM fun text =>
      found (readRatio 128 text) WeightingError.ratioGrammar with
  | error error =>
    obtain ⟨text, -, herror⟩ := mapM_error hread
    rw [(found_error herror).2]
    rfl
  | ok ratios =>
    obtain ⟨row, hrow, hfits⟩ := hwide
    exact absurd (((mapM_readRatio h.positive).mp hread).1 row hrow) hfits

end ThesisTrace.Weighting
