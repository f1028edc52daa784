import Mathlib.Data.List.SplitBy
import Mathlib.Data.Nat.Size
import Mathlib.Data.Prod.Lex
import ThesisTrace.Library.RatioText
import ThesisTrace.Strategy.Orders

/-!
# Portfolio weights

The instruments of a portfolio and their weights: the first candidates by score with equal or
ranked weights, or with the inverses of their volatilities. Weights are exact ratios in canonical
text, which the schema of the strategy state validates.
-/

namespace ThesisTrace.Weighting
open Transaction DecimalContext RatioText
open Strategy (InstrumentId Session)

/-! ### Candidates -/

inductive PortfolioWeighting
  | equalWeight
  | rankWeight
  | inverseVolatility
  deriving DecidableEq, Repr

inductive EligibilityReason
  | zeroVolatility
  | insufficientHistory
  | unavailableReturn
  deriving DecidableEq, Repr

inductive WeightingError
  /-- Unsupported portfolio weighting -/
  | unsupportedWeighting
  /-- Invalid volatility window -/
  | invalidWindow
  /-- Volatility needs at least two Close observations -/
  | shortHistory
  | keyError
  /-- Pending target weights do not match the unique selection -/
  | selectionMismatch
  /-- Target weights must be canonical positive ratios of at most 128 digits -/
  | ratioGrammar
  /-- Target weights must be canonical positive ratios -/
  | notCanonical
  /-- Target weights exceed the common denominator size limit -/
  | denominatorLimit
  /-- Target weights must sum to one -/
  | sumNotOne
  /-- Retained holdings must be unique and separate from weighted targets -/
  | retainedOverlap
  /-- Exposure must be a finite number between 0 and 1 -/
  | invalidExposure
  /-- Framework decision has no retained Selection -/
  | noSelection
  deriving DecidableEq, Repr

structure Candidate where
  instrumentId : InstrumentId
  value : ℚ
  deriving DecidableEq, Repr

/-- `_candidate_order` -/
def candidateOrder (item : Candidate) : ℚ ×ₗ InstrumentId :=
  toLex (-item.value, item.instrumentId)

/-- `sorted(candidates, key=_candidate_order)` -/
def ranked (candidates : List Candidate) : List Candidate :=
  candidates.mergeSort fun x y => candidateOrder x ≤ candidateOrder y

/-- A dictionary of weights, in their canonical texts. -/
abbrev WeightTexts := OrderedMap InstrumentId String

/-- `{name: str(ratio)}` -/
def weightTexts (rows : List (InstrumentId × ℚ)) : WeightTexts :=
  OrderedMap.ofRows (rows.map fun row => ⟨row.1, ratioText row.2⟩)

/-! ### Equal and ranked weights -/

/-- The weights of groups of equal scores: twice the average occupied raw rank, divided by twice
the total. -/
def rankRows (count : ℕ) : ℕ → List (List Candidate) → List (InstrumentId × ℚ)
  | _, [] => []
  | offset, group :: rest =>
    let weight : ℚ :=
      (2 * count - 2 * offset - group.length + 1 : ℤ) / (count * (count + 1) : ℕ)
    group.map (fun item => (item.instrumentId, weight)) ++
      rankRows count (offset + group.length) rest

/-- `select_portfolio` -/
def selectPortfolio (candidates : List Candidate) (holdingsCount : ℕ)
    (weighting : PortfolioWeighting) : Except WeightingError (List Candidate × WeightTexts) := do
  require (weighting = .equalWeight ∨ weighting = .rankWeight) .unsupportedWeighting
  let selected := (ranked candidates).take holdingsCount
  let count := selected.length
  if count = 0 then return (selected, ∅)
  else if weighting = .equalWeight then
    return (selected, weightTexts (selected.map fun item => (item.instrumentId, 1 / count)))
  else
    return (selected, weightTexts
      (rankRows count 0 (selected.splitBy fun x y => x.value = y.value)))

/-! ### Inverse volatilities -/

/-- `sum(values)` with 34 digits. -/
def decimalSum (values : List ℚ) : ℚ :=
  values.foldl (fun total value => roundTo 34 (total + value)) 0

/-- `population_return_volatility` -/
def populationReturnVolatility (closes : List ℚ) : Except WeightingError ℚ := do
  require (2 ≤ closes.length) .shortHistory
  let returns := (closes.zip closes.tail).map fun pair =>
    roundTo 34 (roundTo 34 (pair.2 / pair.1) - 1)
  let mean := roundTo 34 (decimalSum returns / returns.length)
  let variance := roundTo 34
    (decimalSum (returns.map fun value => roundTo 34 (roundTo 34 (value - mean) ^ 2))
      / returns.length)
  return sqrtTo 34 variance

/-- The last `window + 1` observations, when they are positive numbers. -/
def validCloses (window : ℕ) (history : List (Option ℚ)) : Option (List ℚ) :=
  (history.drop (history.length - (window + 1))).mapM fun value =>
    value.filter fun close => 0 < close

/-- What the loop finds out about one candidate: its inverse volatility, or why it has none. -/
def inverseVolatility (window : ℕ) (history : List (Option ℚ)) :
    Except WeightingError (EligibilityReason ⊕ ℚ) :=
  if history.length < window + 1 then .ok (.inl .insufficientHistory)
  else
    match validCloses window history with
    | none => .ok (.inl .unavailableReturn)
    | some closes => do
      let sigma ← populationReturnVolatility closes
      return if sigma = 0 then .inl .zeroVolatility else .inr (roundTo 34 (1 / sigma))

/-- What the loop over the candidates has collected. -/
structure InverseSelection where
  selected : List Candidate
  rawWeights : OrderedMap InstrumentId ℚ
  excluded : List (InstrumentId × EligibilityReason)

/-- One more candidate, with its inverse or the reason why it is passed over. -/
def InverseSelection.add (state : InverseSelection) (item : Candidate) :
    EligibilityReason ⊕ ℚ → InverseSelection
  | .inl reason => { state with excluded := state.excluded ++ [(item.instrumentId, reason)] }
  | .inr inverse =>
    { state with
      selected := state.selected ++ [item]
      rawWeights := OrderedMap.set state.rawWeights item.instrumentId inverse }

/-- The loop of `inverse_volatility_selection`. -/
def inverseLoop (holdingsCount : ℕ) (closeWindows : InstrumentId → Option (List (Option ℚ)))
    (window : ℕ) : List Candidate → InverseSelection → Except WeightingError InverseSelection
  | [], state => .ok state
  | item :: rest, state =>
    if holdingsCount ≤ state.selected.length then .ok state
    else do
      let history ← found (closeWindows item.instrumentId) .keyError
      let outcome ← inverseVolatility window history
      inverseLoop holdingsCount closeWindows window rest (state.add item outcome)

/-- `value / total` for each of the weights. -/
def normalized (weights : List (InstrumentId × ℚ)) : List (InstrumentId × ℚ) :=
  weights.map fun row => (row.1, row.2 / (weights.map Prod.snd).sum)

def entryRows (weights : OrderedMap InstrumentId ℚ) : List (InstrumentId × ℚ) :=
  weights.entries.map fun e => (e.1, e.2)

/-- `inverse_volatility_selection` -/
def inverseVolatilitySelection (candidates : List Candidate) (holdingsCount : ℕ)
    (closeWindows : InstrumentId → Option (List (Option ℚ))) (window : ℕ) :
    Except WeightingError
      (List Candidate × WeightTexts × List (InstrumentId × EligibilityReason)) := do
  require (1 ≤ window ∧ window ≤ 252) .invalidWindow
  let state ← inverseLoop holdingsCount closeWindows window (ranked candidates) ⟨[], ∅, []⟩
  return (state.selected, weightTexts (normalized (entryRows state.rawWeights)), state.excluded)

/-! ### Validation -/

/-- The running common denominator of the ratios, of at most 4096 bits. -/
def commonDenominator (denominator : ℕ) : List ℚ → Except WeightingError ℕ
  | [] => .ok denominator
  | ratio :: rest => do
    let denominator := denominator.lcm ratio.den
    require (denominator.size ≤ 4096) .denominatorLimit
    commonDenominator denominator rest

/-- `weights.values()` -/
def weightValues (weights : WeightTexts) : List String :=
  weights.entries.map fun e => e.2

/-- `_validate_target_weights` -/
def validateTargetWeights (selected : List InstrumentId) (weights : WeightTexts) :
    Except WeightingError Unit := do
  require (selected.Nodup ∧ (∀ id ∈ weights.keys, id ∈ selected) ∧
    ∀ id ∈ selected, id ∈ weights.keys) .selectionMismatch
  let ratios ← (weightValues weights).mapM fun text => found (readRatio 128 text) .ratioGrammar
  require (∀ pair ∈ (weightValues weights).zip ratios,
    ratioText pair.2 = pair.1 ∧ 0 < pair.2 ∧ pair.2 ≤ 1) .notCanonical
  let _ ← commonDenominator 1 ratios
  require (selected = [] ∨ ratios.sum = 1) .sumNotOne

/-! ### Retained decisions -/

/-- What is kept of a selection. -/
structure TargetSelection where
  signalSession : Session
  selectedInstrumentIds : List InstrumentId
  relativeWeights : WeightTexts
  eligibilityExclusions : List (EligibilityReason × ℕ)
  valid : validateTargetWeights selectedInstrumentIds relativeWeights = .ok ()

inductive AllocationMode
  | rebalance
  | reduce
  | increase
  deriving DecidableEq, Repr

/-- The weights of a decision, frozen at its Close. -/
structure TargetAllocation where
  mode : AllocationMode
  instrumentIds : List InstrumentId
  relativeWeights : WeightTexts
  exposure : ℚ
  retainedInstrumentIds : List InstrumentId
  valid : validateTargetWeights instrumentIds relativeWeights = .ok ()
  retained_nodup : retainedInstrumentIds.Nodup
  retained_disjoint : ∀ id ∈ retainedInstrumentIds, id ∉ instrumentIds
  exposure_bounds : 0 ≤ exposure ∧ exposure ≤ 1

structure BuiltinPortfolioState where
  selection : TargetSelection
  exposure : ℚ
  exposure_bounds : 0 ≤ exposure ∧ exposure ≤ 1

/-- A value whose weights pass the validation of its model. -/
def withValidWeights {α : Type} (selected : List InstrumentId) (weights : WeightTexts)
    (build : validateTargetWeights selected weights = .ok () → Except WeightingError α) :
    Except WeightingError α :=
  match h : validateTargetWeights selected weights with
  | .error e => .error e
  | .ok () => build h

/-! ### The built-in framework -/

structure BuiltinFramework where
  holdingsCount : ℕ
  selectionInterval : ℕ
  weighting : PortfolioWeighting
  volatilityWindow : ℕ
  minimumHoldingSessions : Option ℕ
  holdingsCount_bounds : 1 ≤ holdingsCount ∧ holdingsCount ≤ 100
  selectionInterval_bounds : 1 ≤ selectionInterval ∧ selectionInterval ≤ 20

structure BuiltinFrameworkDecision where
  state : BuiltinPortfolioState
  target : Option TargetAllocation
  /-- The candidates without a weight, with their reasons. -/
  diagnostics : List (InstrumentId × EligibilityReason)

section Decide
variable (framework : BuiltinFramework)

/-- The holdings that are too young to be sold, from the ages of all holdings. -/
def BuiltinFramework.retained (ages : OrderedMap InstrumentId ℕ) : List InstrumentId :=
  match framework.minimumHoldingSessions with
  | none => []
  | some minimum =>
    ((ages.entries.filter fun e => e.2 < minimum).map Sigma.fst).mergeSort (· ≤ ·)

/-- `dict(Counter(reasons))` -/
def countReasons (excluded : List (InstrumentId × EligibilityReason)) :
    List (EligibilityReason × ℕ) :=
  (excluded.map Prod.snd).dedup.map fun reason =>
    (reason, (excluded.map Prod.snd).count reason)

/-- The selection of a session on which one is due. -/
def BuiltinFramework.select (session : Session) (alphaValues : List Candidate)
    (closeWindows : InstrumentId → Option (List (Option ℚ))) (retained : List InstrumentId) :
    Except WeightingError (TargetSelection × List (InstrumentId × EligibilityReason)) := do
  let eligible := alphaValues.filter fun item => item.instrumentId ∉ retained
  let capacity := framework.holdingsCount - retained.length
  let (selected, weights, excluded) ← (
    if framework.weighting = .inverseVolatility then
      inverseVolatilitySelection eligible capacity closeWindows framework.volatilityWindow
    else do
      let (selected, weights) ← selectPortfolio eligible capacity framework.weighting
      pure (selected, weights, []))
  let ids := selected.map Candidate.instrumentId
  withValidWeights ids weights fun valid =>
    .ok (⟨session, ids, weights, countReasons excluded, valid⟩, excluded)

/-- The weights of a selection without the retained holdings, as ratios again. -/
def availableWeights (selection : TargetSelection) (retained : List InstrumentId) :
    Except WeightingError (List (InstrumentId × ℚ)) :=
  (selection.relativeWeights.entries.filter fun e => e.1 ∉ retained).mapM fun e => do
    let ratio ← found (readRatio 128 e.2) .ratioGrammar
    pure (e.1, ratio)

/-- The target of a decision. -/
def allocate (selection : TargetSelection) (retained : List InstrumentId) (mode : AllocationMode)
    (exposure : ℚ) : Except WeightingError TargetAllocation := do
  let available ← availableWeights selection retained
  let ids := selection.selectedInstrumentIds.filter fun id => id ∉ retained
  let weights := weightTexts (normalized available)
  withValidWeights ids weights fun valid =>
    if separate : retained.Nodup ∧ ∀ id ∈ retained, id ∉ ids then
      if bounds : 0 ≤ exposure ∧ exposure ≤ 1 then
        .ok ⟨mode, ids, weights, exposure, retained, valid, separate.1, separate.2, bounds⟩
      else .error .invalidExposure
    else .error .retainedOverlap

/-- The selection that a decision works with: a new one where the schedule has one due, and the
one before otherwise. -/
def BuiltinFramework.currentSelection (updated : Bool) (session : Session)
    (alphaValues : List Candidate) (closeWindows : InstrumentId → Option (List (Option ℚ)))
    (previous : Option BuiltinPortfolioState) (retained : List InstrumentId) :
    Except WeightingError (TargetSelection × List (InstrumentId × EligibilityReason)) :=
  if updated then framework.select session alphaValues closeWindows retained
  else do
    let state ← found previous .noSelection
    pure (state.selection, [])

/-- Why there is a new target, which also is its mode. -/
def decisionMode (updated : Bool) (exposure : ℚ) (previous : Option BuiltinPortfolioState) :
    Option AllocationMode :=
  if updated then some .rebalance
  else
    match previous with
    | none => none
    | some state =>
      if exposure = state.exposure then none
      else if exposure < state.exposure then some .reduce
      else some .increase

/-- `BuiltinFramework.decide` -/
def BuiltinFramework.decide (session : Session) (reportIndex : ℕ) (alphaValues : List Candidate)
    (closeWindows : InstrumentId → Option (List (Option ℚ))) (exposure : ℚ)
    (previous : Option BuiltinPortfolioState) (ages : OrderedMap InstrumentId ℕ) :
    Except WeightingError BuiltinFrameworkDecision :=
  if bounds : 0 ≤ exposure ∧ exposure ≤ 1 then do
    let updated := Decidable.decide (reportIndex % framework.selectionInterval = 0)
    let retained := framework.retained ages
    let (selection, diagnostics) ← framework.currentSelection updated session alphaValues
      closeWindows previous retained
    let target ← (
      match decisionMode updated exposure previous with
      | none => .ok none
      | some mode => (allocate selection retained mode exposure).map some)
    return ⟨⟨selection, exposure, bounds⟩, target, diagnostics⟩
  else .error .invalidExposure

end Decide

end ThesisTrace.Weighting
