import ThesisTrace.Library.DecimalText
import ThesisTrace.Strategy.RiskManagement

/-!
# Take profit

The take-profit policy follows the holdings whose Close return has reached one of its tiers. A
cycle remembers the units at which it began, and its limit keeps what the highest tier reached
leaves of them; what was sold meanwhile is read from the account and the fills of the session.
-/

namespace ThesisTrace.Risk
open Strategy DecimalText Transaction

/-! ### Policy and state -/

structure TakeProfitTier where
  profitThreshold : ℚ
  cumulativeReduction : ℚ
  threshold_pos : 0 < profitThreshold
  reduction_pos : 0 < cumulativeReduction
  reduction_le_one : cumulativeReduction ≤ 1

/-- `take_profit_tiers`: both values strictly increase. -/
structure TakeProfitPolicy where
  tiers : List TakeProfitTier
  length_le : tiers.length ≤ 100
  thresholds : tiers.Pairwise fun a b => a.profitThreshold < b.profitThreshold
  reductions : tiers.Pairwise fun a b => a.cumulativeReduction < b.cumulativeReduction

structure TakeProfitCycle where
  holdingCycleStartedSession : Session
  baselineAdjustedUnits : String
  baselineExecutionShares : ℤ
  highestTriggeredTier : ℕ
  executedReductionUnits : String
  lastAdjustedUnits : String
  lastExecutionShares : ℤ
  deriving DecidableEq, Repr

/-- One decimal field of a cycle. -/
def readQuantity (field text : String) : Except String ℚ :=
  if 128 < text.length then .error (field ++ ": String should have at most 128 characters")
  else
    match readDecimal text with
    | none => .error ("Invalid take-profit " ++ field)
    | some value =>
      if value < 0 ∨ canonicalDecimal value ≠ text then
        .error ("Invalid take-profit " ++ field)
      else .ok value

/-- `TakeProfitCycle.model_validate`. -/
def TakeProfitCycle.modelValidate (cycle : TakeProfitCycle) : Except String Unit := do
  require (0 < cycle.baselineExecutionShares)
    "baseline_execution_shares: Input should be greater than 0"
  require (cycle.highestTriggeredTier < 100)
    "highest_triggered_tier: Input should be less than 100"
  require (0 < cycle.lastExecutionShares)
    "last_execution_shares: Input should be greater than 0"
  let baseline ← readQuantity "baseline_adjusted_units" cycle.baselineAdjustedUnits
  let executed ← readQuantity "executed_reduction_units" cycle.executedReductionUnits
  let remaining ← readQuantity "last_adjusted_units" cycle.lastAdjustedUnits
  require (0 < baseline ∧ (0 < remaining ∧ remaining ≤ baseline) ∧ executed ≤ baseline)
    "Invalid take-profit baseline or actual progress"

abbrev TakeProfitState := OrderedMap InstrumentId TakeProfitCycle

/-- `TakeProfitState.model_validate`. -/
def validateState (state : TakeProfitState) : Except String Unit := do
  require (state.entries.length ≤ 3000)
    "take_profit_cycles: Dictionary should have at most 3000 items"
  state.entries.forM fun e => e.2.modelValidate

/-- `Decimal(text)` of a validated field. -/
def quantityOf (text : String) : ℚ :=
  (readDecimal text).getD 0

/-! ### One holding -/

/-- `sold.get(item)`: the shares of an instrument that the session sold, if it sold any. -/
def soldQuantity (fills : List FillEvent) (id : InstrumentId) : Option ℕ :=
  let sales := fills.filter fun fill =>
    fill.childOrder.side = .sell ∧ fill.childOrder.instrument = id
  if sales = [] then none else some (sales.map fun fill => fill.childOrder.quantity).sum

variable (R : Rounding)

def holdingReturn (row : PositionRow) : ℚ :=
  if 0 < row.remainingAcquisitionCost then
    R.accounting (R.accounting (R.accounting (row.adjustedUnits * row.lastCloseAdjustedPrice)
      / row.remainingAcquisitionCost) - 1)
  else 0

/-- `max(reached)`. -/
def highestReached (tiers : List TakeProfitTier) (value : ℚ) : Option ℕ :=
  ((List.range tiers.length).filter fun index =>
    ∃ tier ∈ tiers[index]?, tier.profitThreshold ≤ value).max?

def openedCycle (row : PositionRow) (tier : ℕ) : TakeProfitCycle where
  holdingCycleStartedSession := row.holdingCycleStartedSession
  baselineAdjustedUnits := canonicalDecimal row.adjustedUnits
  baselineExecutionShares := row.executionShares
  highestTriggeredTier := tier
  executedReductionUnits := "0"
  lastAdjustedUnits := canonicalDecimal row.adjustedUnits
  lastExecutionShares := row.executionShares

/-- `executed_reduction_units` after the sales of a session. -/
def executedAfter (cycle : TakeProfitCycle) (units : ℚ) : ℚ :=
  R.accounting (quantityOf cycle.executedReductionUnits
    + max 0 (R.accounting (quantityOf cycle.lastAdjustedUnits - units)))

def continuedCycle (cycle : TakeProfitCycle) (row : PositionRow) (sold : Option ℕ)
    (reached : Option ℕ) : TakeProfitCycle :=
  { cycle with
    executedReductionUnits :=
      if sold.isSome then canonicalDecimal (executedAfter R cycle row.adjustedUnits)
      else cycle.executedReductionUnits
    highestTriggeredTier := max cycle.highestTriggeredTier (reached.getD 0)
    lastAdjustedUnits := canonicalDecimal row.adjustedUnits
    lastExecutionShares := row.executionShares }

/-- The stored cycle of a holding; a later holding cycle does not continue it. -/
def heldCycle (previous : TakeProfitState) (row : PositionRow) : Option TakeProfitCycle :=
  (previous.lookup row.instrument).filter fun cycle =>
    cycle.holdingCycleStartedSession = row.holdingCycleStartedSession

def advancedCycle (tiers : List TakeProfitTier) (previous : TakeProfitState)
    (fills : List FillEvent) (row : PositionRow) : Option TakeProfitCycle :=
  let reached := highestReached tiers (holdingReturn R row)
  match heldCycle previous row with
  | none => reached.map (openedCycle row)
  | some cycle => some (continuedCycle R cycle row (soldQuantity fills row.instrument) reached)

/-- What a tier leaves of the units of a cycle. -/
def targetUnits (tier : TakeProfitTier) (cycle : TakeProfitCycle) : ℚ :=
  R.accounting (quantityOf cycle.baselineAdjustedUnits
    * R.accounting (1 - tier.cumulativeReduction))

def positionLimit (tier : TakeProfitTier) (cycle : TakeProfitCycle) (row : PositionRow) : ℤ :=
  min row.executionShares (truncate (R.accounting
    (R.accounting (targetUnits R tier cycle * row.executionShares) / row.adjustedUnits)))

/-! ### Decision -/

structure TakeProfitObservation where
  instrument : InstrumentId
  cycleEnded : Bool
  holdingReturn : Option String
  profitThreshold : String
  cumulativeReduction : String
  baselineExecutionShares : ℤ
  baselineAdjustedUnits : String
  targetAdjustedUnits : String
  executedReductionUnits : String
  remainingReductionUnits : String
  executionShares : ℤ
  positionLimit : Option ℤ
  deriving DecidableEq, Repr

structure TakeProfitDecision where
  state : TakeProfitState
  limits : PositionLimits
  observations : List TakeProfitObservation

def openObservation (tier : TakeProfitTier) (cycle : TakeProfitCycle) (row : PositionRow) :
    TakeProfitObservation where
  instrument := row.instrument
  cycleEnded := false
  holdingReturn := some (canonicalDecimal (holdingReturn R row))
  profitThreshold := canonicalDecimal tier.profitThreshold
  cumulativeReduction := canonicalDecimal tier.cumulativeReduction
  baselineExecutionShares := cycle.baselineExecutionShares
  baselineAdjustedUnits := cycle.baselineAdjustedUnits
  targetAdjustedUnits := canonicalDecimal (targetUnits R tier cycle)
  executedReductionUnits := cycle.executedReductionUnits
  remainingReductionUnits :=
    canonicalDecimal (max 0 (R.accounting (row.adjustedUnits - targetUnits R tier cycle)))
  executionShares := row.executionShares
  positionLimit := some (positionLimit R tier cycle row)

/-- One position of the account. -/
def takeProfitRow (tiers : List TakeProfitTier) (previous : TakeProfitState)
    (fills : List FillEvent) (decision : TakeProfitDecision) (row : PositionRow) :
    Except String TakeProfitDecision :=
  match advancedCycle R tiers previous fills row with
  | none => .ok decision
  | some cycle => do
    let tier ← found tiers[cycle.highestTriggeredTier]? "list index out of range"
    require (row.adjustedUnits ≠ 0) "division by zero"
    return {
      state := OrderedMap.set decision.state row.instrument cycle
      limits := OrderedMap.set decision.limits row.instrument
        (positionLimit R tier cycle row).toNat
      observations := decision.observations ++ [openObservation R tier cycle row] }

/-- A cycle whose holding is gone. -/
def endedObservation (fills : List FillEvent) (tier : TakeProfitTier) (id : InstrumentId)
    (cycle : TakeProfitCycle) : TakeProfitObservation :=
  let baseline := quantityOf cycle.baselineAdjustedUnits
  let planned := R.accounting (baseline * tier.cumulativeReduction)
  let executed := R.accounting (quantityOf cycle.executedReductionUnits
    + R.accounting (R.accounting (quantityOf cycle.lastAdjustedUnits
      * ((soldQuantity fills id).getD 0 : ℕ)) / cycle.lastExecutionShares))
  { instrument := id
    cycleEnded := true
    holdingReturn := none
    profitThreshold := canonicalDecimal tier.profitThreshold
    cumulativeReduction := canonicalDecimal tier.cumulativeReduction
    baselineExecutionShares := cycle.baselineExecutionShares
    baselineAdjustedUnits := cycle.baselineAdjustedUnits
    targetAdjustedUnits := canonicalDecimal (R.accounting (baseline - planned))
    executedReductionUnits := canonicalDecimal executed
    remainingReductionUnits := canonicalDecimal (max 0 (R.accounting (planned - executed)))
    executionShares := 0
    positionLimit := none }

def endedCycle (tiers : List TakeProfitTier) (fills : List FillEvent)
    (decision : TakeProfitDecision) (e : Sigma fun _ : InstrumentId => TakeProfitCycle) :
    Except String TakeProfitDecision :=
  if e.1 ∈ decision.state then .ok decision
  else do
    let tier ← found tiers[e.2.highestTriggeredTier]? "list index out of range"
    return { decision with
      observations := decision.observations ++ [endedObservation R fills tier e.1 e.2] }

def takeProfitDecision (tiers : List TakeProfitTier) (positions : List PositionRow)
    (previous : Option TakeProfitState) (fills : List FillEvent) :
    Except String TakeProfitDecision := do
  let cycles := previous.getD ∅
  validateState cycles
  require (∀ e ∈ cycles.entries, e.2.highestTriggeredTier < tiers.length)
    "Take-profit progress differs from configured tiers"
  let held ← positions.foldlM (takeProfitRow R tiers cycles fills) ⟨∅, ∅, []⟩
  cycles.entries.foldlM (endedCycle R tiers fills) held

/-! ### Continuations -/

/-- The take-profit part of `validate_continuation`. -/
def validateContinuation (tiers : List TakeProfitTier) (positions : List PositionRow)
    (state : TakeProfitState) : Except String Unit := do
  validateState state
  require (∀ e ∈ state.entries, ∃ row ∈ positions, row.instrument = e.1
      ∧ e.2.highestTriggeredTier < tiers.length
      ∧ e.2.holdingCycleStartedSession = row.holdingCycleStartedSession
      ∧ e.2.lastExecutionShares = row.executionShares
      ∧ e.2.lastAdjustedUnits = canonicalDecimal row.adjustedUnits)
    "Take-profit continuation differs from its actual holding cycle"

/-! ### The decision program -/

/-- What the other modules and policies of a Close decide: the proposal of the portfolio module,
the limits of the other holding policies with the reasons they report, and the exposure cap. -/
structure ModulesDecision (S E : Type) where
  state : S
  proposal : Option PendingTarget
  riskLimits : PositionLimits
  reasons : List String
  cap : Option ℚ
  cap_nonneg : ∀ exposure ∈ cap, 0 ≤ exposure
  laterReasons : List String
  diagnostics : List E
  framework : Option E

abbrev Modules (S E : Type) :=
  Session → ℤ → AccountObservation → List FillEvent → List RejectionEvent → Option S →
    Except String (ModulesDecision S E)

variable {S E : Type}

/-- The Close of a framework Strategy whose risk module takes profit. -/
def takeProfitProgram (policy : TakeProfitPolicy) (modules : Modules S E) :
    DecisionProgram (S × TakeProfitState) E :=
  fun session reportIndex account fills rejections previous => do
    let others ← modules session reportIndex account fills rejections (previous.map Prod.fst)
    let decision ← takeProfitDecision R policy.tiers account.positions (previous.map Prod.snd) fills
    let riskLimits := decision.limits.entries.foldl tightenLimit others.riskLimits
    let reasons := others.reasons ++ decision.observations.map (fun _ => "take_profit")
      ++ others.laterReasons
    return {
      state := (others.state, decision.state)
      target := riskTarget session others.proposal riskLimits others.cap others.cap_nonneg reasons
      diagnostics := others.diagnostics
      framework := others.framework }

end ThesisTrace.Risk
