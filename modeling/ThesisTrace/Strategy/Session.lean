import Mathlib.Algebra.BigOperators.Group.Finset.Basic
import Mathlib.Data.Finset.Union
import ThesisTrace.Strategy.Orders

/-!
# One session of the Strategy simulator

A session marks the held positions at the Open, executes the pending target (first the sells
in instrument order, then the buys in candidate order), marks them again at the Close, writes
the daily row and asks the decision program for the next target.
-/

namespace ThesisTrace.Strategy
open Transaction

/-! ### Targets -/

inductive TargetMode
  | rebalance
  | reduce
  | increase
  | localLimits
  deriving DecidableEq, Repr

/-- Close-frozen weights. An allocation is never of the mode `localLimits`. -/
structure TargetAllocation where
  mode : TargetMode
  instrumentIds : List InstrumentId
  relativeWeights : InstrumentId → ℚ
  exposure : ℚ
  retainedInstrumentIds : List InstrumentId
  mode_ne : mode ≠ .localLimits
  instrumentIds_nodup : instrumentIds.Nodup
  relativeWeights_pos : ∀ id ∈ instrumentIds, 0 < relativeWeights id
  relativeWeights_sum : instrumentIds ≠ [] → (instrumentIds.map relativeWeights).sum = 1
  exposure_nonneg : 0 ≤ exposure
  exposure_le_one : exposure ≤ 1
  retained_nodup : retainedInstrumentIds.Nodup
  retained_disjoint : instrumentIds.Disjoint retainedInstrumentIds

/-- One final decision. `positionLimits` caps execution shares frozen at Close. -/
structure PendingTarget where
  decisionSession : Session
  reason : String
  allocation : Option TargetAllocation
  positionLimits : OrderedMap InstrumentId ℕ
  maximumStockExposure : Option ℚ
  maximumStockExposure_nonneg : ∀ cap ∈ maximumStockExposure, 0 ≤ cap
  not_empty : allocation.isSome = true ∨ positionLimits.entries ≠ []
    ∨ maximumStockExposure.isSome = true

def PendingTarget.instrumentIds (target : PendingTarget) : List InstrumentId :=
  target.positionLimits.keys ++
    match target.allocation with
    | some allocation => allocation.instrumentIds ++ allocation.retainedInstrumentIds
    | none => []

def PendingTarget.mode (target : PendingTarget) : TargetMode :=
  (target.allocation.map TargetAllocation.mode).getD .localLimits

def PendingTarget.candidates (target : PendingTarget) : List InstrumentId :=
  (target.allocation.map TargetAllocation.instrumentIds).getD []

def PendingTarget.retained (target : PendingTarget) : List InstrumentId :=
  (target.allocation.map TargetAllocation.retainedInstrumentIds).getD []

/-! ### Events of a session -/

inductive ValuationType
  | valuationCarry
  | terminalDelistingWriteoff
  deriving DecidableEq, Repr

structure ValuationEvent where
  session : Session
  instrument : InstrumentId
  type : ValuationType
  executionSharesDelta : ℤ
  adjustedUnitsDelta : ℚ
  netCashDelta : ℚ
  grossCashDelta : ℚ
  valuationDelta : ℚ
  lastAdjustedPrice : ℚ
  deriving DecidableEq, Repr

inductive ConstraintReason
  | belowBoardLot
  | insufficientCash
  deriving DecidableEq, Repr

structure ConstraintEvent where
  context : OrderContext
  instrument : InstrumentId
  side : Side
  mode : TargetMode
  reason : ConstraintReason
  intendedValue : ℚ
  unroundedQuantity : ℤ
  legalQuantity : ℕ
  submittedQuantity : ℕ
  availableCash : ℚ
  deriving DecidableEq, Repr

/-- Diagnostics of the simulator and, as `program`, of the decision program. -/
inductive Diagnostic (E : Type)
  | insufficientCandidates (session : Session)
  | belowBoardLot (session : Session) (id : InstrumentId) (side : Side) (unrounded : ℤ)
  | insufficientCash (session : Session) (id : InstrumentId) (legalQuantity : ℕ)
  | ineligible (session : Session) (id : InstrumentId)
  | program (evidence : E)

/-- The event lists that the simulator appends to. -/
structure Journal (E : Type) where
  orders : List OrderEvent := []
  childOrders : List ChildOrderEvent := []
  fills : List FillEvent := []
  rejections : List RejectionEvent := []
  constraints : List ConstraintEvent := []
  diagnostics : List (Diagnostic E) := []

variable {F S E : Type}

def Journal.record (journal : Journal E) (outcome : OrderOutcome) : Journal E :=
  { journal with
    orders := journal.orders ++ [outcome.order]
    childOrders := journal.childOrders ++ outcome.childOrders
    fills := journal.fills ++ outcome.fills
    rejections := journal.rejections ++ outcome.rejections }

def Journal.constrain (journal : Journal E) (event : ConstraintEvent) : Journal E :=
  { journal with constraints := journal.constraints ++ [event] }

def Journal.diagnose (journal : Journal E) (diagnostic : Diagnostic E) : Journal E :=
  { journal with diagnostics := journal.diagnostics ++ [diagnostic] }

structure DailyObservation (F : Type) where
  session : Session
  rebalance : Bool
  preTradeGrossNav : ℚ
  preTradeNetNav : ℚ
  grossNav : ℚ
  netNav : ℚ
  closeRiskNav : ℚ
  grossReturn : F
  netReturn : F
  grossCash : ℚ
  netCash : ℚ
  cumulativeTransactionCost : ℚ
  holdingsCount : ℕ
  maximumSingleNameWeight : F
  cashRatio : F
  executionRoundingResidual : ℚ
  valuationEvents : List ValuationEvent

structure HoldingRow (F : Type) where
  instrument : InstrumentId
  executionShares : ℤ
  adjustedUnits : ℚ
  adjustedMark : ℚ
  marketValue : ℚ
  weight : F

/-- One row of `_position_payload`. -/
structure PositionRow where
  instrument : InstrumentId
  executionShares : ℤ
  adjustedUnits : ℚ
  lastAdjustedPrice : ℚ
  holdingCycleStartedSession : Session
  holdingAge : ℕ
  lastCloseAdjustedPrice : ℚ
  remainingAcquisitionCost : ℚ
  deriving DecidableEq, Repr

/-! ### Decision program -/

structure AccountObservation where
  cash : ℚ
  postOpenNetNav : ℚ
  closeRiskNav : ℚ
  positions : List PositionRow

structure Decision (S E : Type) where
  state : S
  target : Option PendingTarget
  diagnostics : List E
  framework : Option E

/-- A daily decision sees the session, the account, the session's fills and rejections and
its own previous state. -/
abbrev DecisionProgram (S E : Type) :=
  Session → ℤ → AccountObservation → List FillEvent → List RejectionEvent → Option S →
    Except String (Decision S E)

/-- What is fixed over a Strategy execution. -/
structure Simulation (F S E : Type) where
  rounding : Rounding
  floats : Binary64 F
  data : MarketData
  costs : Costs
  initialCash : ℚ
  initialCash_pos : 0 < initialCash
  decide : DecisionProgram S E

/-! ### Marks -/

inductive OpenMark
  | priced (adjustedOpen : ℚ)
  | carried
  | writtenOff
  | failed (error : StrategyError)

def openMark (data : MarketData) (session : Session) (id : InstrumentId) : OpenMark :=
  match data.executionPrices session id with
  | some price => .priced price.adjustedOpen
  | none =>
    if data.unavailable session id then .carried
    else
      match data.instruments id with
      | none => .failed .keyError
      | some profile =>
        if profile.delisted session then .writtenOff
        else .failed (.unexplainedMissingOpen id session)

def OpenMark.error? : OpenMark → Option StrategyError
  | .failed error => some error
  | _ => none

/-- The position after its Open mark; a delisted position is removed. -/
def OpenMark.position (mark : OpenMark) (position : Position) : Option Position :=
  match mark with
  | .priced adjustedOpen => some { position with lastAdjustedPrice := adjustedOpen }
  | .carried => some position
  | .writtenOff => none
  | .failed _ => some position

variable (R : Rounding)

def OpenMark.event (mark : OpenMark) (session : Session) (id : InstrumentId)
    (position : Position) : Option ValuationEvent :=
  match mark with
  | .carried => some {
      session := session
      instrument := id
      type := .valuationCarry
      executionSharesDelta := 0
      adjustedUnitsDelta := 0
      netCashDelta := 0
      grossCashDelta := 0
      valuationDelta := 0
      lastAdjustedPrice := position.lastAdjustedPrice }
  | .writtenOff => some {
      session := session
      instrument := id
      type := .terminalDelistingWriteoff
      executionSharesDelta := -position.executionShares
      adjustedUnitsDelta := -position.adjustedUnits
      netCashDelta := 0
      grossCashDelta := 0
      valuationDelta :=
        R.ambient (R.ambient (-position.adjustedUnits) * position.lastAdjustedPrice)
      lastAdjustedPrice := position.lastAdjustedPrice }
  | _ => none

/-- The valuation events of one pass over the positions, in their order. -/
def openEvents (data : MarketData) (session : Session) (positions : Positions) :
    List ValuationEvent :=
  positions.entries.filterMap fun e => (openMark data session e.1).event R session e.1 e.2

/-- Positions after `mark_positions`. -/
def openMarked (data : MarketData) (session : Session) (positions : Positions) : Positions :=
  OrderedMap.filterMap (fun id position => (openMark data session id).position position) positions

/-- `mark_positions`; the first position without an explained Open stops the simulator. -/
def markPositions (data : MarketData) (session : Session) (positions : Positions) :
    Except StrategyError (Positions × List ValuationEvent) :=
  match positions.entries.findSome? fun e => (openMark data session e.1).error? with
  | some error => .error error
  | none => .ok (openMarked data session positions, openEvents R data session positions)

abbrev Marks := InstrumentId → ℚ

/-- The marks of freshly marked positions: each mark is the position's last adjusted price. -/
def marksOf (positions : Positions) : Marks :=
  fun id => ((positions.lookup id).map Position.lastAdjustedPrice).getD 0

inductive CloseMark
  | observed (price : ℚ)
  | carried
  | failed (error : StrategyError)

def closeMark (data : MarketData) (session : Session) (id : InstrumentId) (position : Position) :
    CloseMark :=
  match data.closes session id with
  | some price => if price ≤ 0 then .failed (.invalidClose id session) else .observed price
  | none =>
    if data.tradingStates session id = some .fullSessionSuspension
        ∧ position.lastCloseAdjustedPrice ≠ none then .carried
    else .failed (.missingClose id session)

def CloseMark.error? : CloseMark → Option StrategyError
  | .failed error => some error
  | _ => none

def CloseMark.position (mark : CloseMark) (position : Position) : Position :=
  match mark with
  | .observed price => { position with lastCloseAdjustedPrice := some price }
  | _ => position

/-- Positions after `mark_close_positions`. -/
def closeMarked (data : MarketData) (session : Session) (positions : Positions) : Positions :=
  OrderedMap.filterMap
    (fun id position => some ((closeMark data session id position).position position)) positions

def markClosePositions (data : MarketData) (session : Session) (positions : Positions) :
    Except StrategyError Positions :=
  match positions.entries.findSome? fun e => (closeMark data session e.1 e.2).error? with
  | some error => .error error
  | none => .ok (closeMarked data session positions)

/-- The marks of positions after their Close mark. -/
def closeMarksOf (positions : Positions) : Marks :=
  fun id => ((positions.lookup id).bind Position.lastCloseAdjustedPrice).getD 0

/-! ### Valuation -/

/-- `money(position.adjusted_units * marks[instrument_id])`. -/
def holdingValue (marks : Marks) (id : InstrumentId) (position : Position) : ℚ :=
  R.money (R.ambient (position.adjustedUnits * marks id))

def sumPositionValues (positions : Positions) (marks : Marks) : ℚ :=
  R.money ((OrderedMap.sortEntries positions.entries).foldl
    (fun total e => R.accounting (total + R.accounting (e.2.adjustedUnits * marks e.1))) 0)

/-- Cash plus the value of the positions. -/
def navOf (cash : ℚ) (positions : Positions) (marks : Marks) : ℚ :=
  R.money (R.ambient (cash + sumPositionValues R positions marks))

/-- `account_weights`: cash and holdings as shares of a NAV, or nothing at NAV zero. -/
structure AccountWeights (F : Type) where
  cash : Option F
  holdings : OrderedMap InstrumentId F

variable (B : Binary64 F)

def accountWeights (cash nav : ℚ) (positions : Positions) (marks : Marks) : AccountWeights F :=
  if nav = 0 then ⟨none, ∅⟩
  else
    { cash := some (B.ofRat (R.ambient (cash / nav)))
      holdings := OrderedMap.filterMap (fun id position =>
        some (B.ofRat (R.ambient (R.ambient (position.adjustedUnits * marks id) / nav))))
        positions }

/-- `abs(after.get(asset, 0.0) - before.get(asset, 0.0))`. -/
def weightChange (before after : Option F) : ℚ :=
  B.toRat (B.abs (B.sub (after.getD (B.ofRat 0)) (before.getD (B.ofRat 0))))

def weightTurnover (before after : AccountWeights F) : F :=
  let cash := if before.cash.isSome ∨ after.cash.isSome then
    weightChange B before.cash after.cash else 0
  let assets := before.holdings.keys.toFinset ∪ after.holdings.keys.toFinset
  let holdings := ∑ id ∈ assets,
    weightChange B (before.holdings.lookup id) (after.holdings.lookup id)
  B.mul (B.ofRat (1 / 2)) (B.ofRat (cash + holdings))

/-- `max` of binary64 values: the first of the largest. -/
def Binary64.maximum (values : List F) : Option F :=
  values.argmax B.toRat

/-- `float(a / b) if b != 0 else 0.0`. -/
def ratioOrZero (a b : ℚ) : F :=
  if b = 0 then B.ofRat 0 else B.ofRat (R.ambient (a / b))

/-- `float(a / b - 1) if b != 0 else 0.0`. -/
def returnOrZero (a b : ℚ) : F :=
  if b = 0 then B.ofRat 0 else B.ofRat (R.ambient (R.ambient (a / b) - 1))

/-! ### Target sizing -/

/-- The values that a target asks for, frozen before the first order; zero where the target
dictionaries have no entry. -/
structure Sizing where
  targetCapital : ℚ
  targetValues : InstrumentId → ℚ
  monetaryTargetValues : InstrumentId → ℚ
  buyCandidates : List InstrumentId
  buyDeficits : InstrumentId → ℚ

def targetCapital (target : PendingTarget) (preNetNav : ℚ) : ℚ :=
  match target.allocation with
  | none => 0
  | some allocation =>
    let capital := R.money (R.ambient (preNetNav * allocation.exposure))
    match target.maximumStockExposure with
    | none => capital
    | some cap => min capital (R.money (R.ambient (preNetNav * cap)))

def retainedValues (target : PendingTarget) (positions : Positions) (marks : Marks) :
    List (Sigma fun _ : InstrumentId => ℚ) :=
  target.retained.filterMap fun id =>
    (positions.lookup id).map fun position => ⟨id, holdingValue R marks id position⟩

/-- A candidate's share of the available capital. -/
def weightedValue (available ratio : ℚ) : ℚ :=
  R.money (R.ambient (R.ambient (available * ratio.num) / ratio.den))

def candidateValues (target : PendingTarget) (available : ℚ) :
    List (Sigma fun _ : InstrumentId => ℚ) :=
  match target.allocation with
  | none => []
  | some allocation =>
    allocation.instrumentIds.map fun id =>
      ⟨id, weightedValue R available (allocation.relativeWeights id)⟩

/-- `target_values` of the mode `reduce`: every holding that is not retained, scaled. -/
def reducedValues (target : PendingTarget) (positions : Positions) (marks : Marks)
    (ratio : ℚ) : OrderedMap InstrumentId ℚ :=
  OrderedMap.filterMap (fun id position =>
    if id ∈ target.retained then none
    else some (R.money (R.ambient (R.ambient (position.adjustedUnits * marks id) * ratio))))
    positions

def updateAll (values : OrderedMap InstrumentId ℚ) (rows : List (Sigma fun _ : InstrumentId => ℚ)) :
    OrderedMap InstrumentId ℚ :=
  rows.foldl (fun values e => OrderedMap.set values e.1 e.2) values

/-- The modes that never sell below the actual holding raise every target to it. -/
def raiseToActual (positions : Positions) (marks : Marks) (values : OrderedMap InstrumentId ℚ) :
    OrderedMap InstrumentId ℚ :=
  positions.entries.foldl (fun values e =>
    let actual := holdingValue R marks e.1 e.2
    OrderedMap.set values e.1 (max ((values.lookup e.1).getD actual) actual)) values

/-- The targets before share limits and the exposure cap. -/
def uncappedValues (target : PendingTarget) (positions : Positions) (marks : Marks)
    (capital : ℚ) : OrderedMap InstrumentId ℚ :=
  let retained := retainedValues R target positions marks
  let retainedSum := R.ambientSum (retained.map Sigma.snd)
  let available := max 0 (R.ambient (capital - retainedSum))
  let actual := R.ambient (sumPositionValues R positions marks - retainedSum)
  let values :=
    if target.mode = .reduce then
      reducedValues R target positions marks
        (if actual = 0 then 0 else min 1 (R.ambient (available / actual)))
    else OrderedMap.ofRows (candidateValues R target available)
  let values := updateAll values retained
  if target.mode = .localLimits ∨ target.mode = .increase then
    raiseToActual R positions marks values
  else values

/-- One share limit; delisting can have removed the holding at the Open mark. -/
def limitValue (positions : Positions) (marks : Marks) (values : OrderedMap InstrumentId ℚ)
    (id : InstrumentId) (maximum : ℕ) : Except StrategyError (OrderedMap InstrumentId ℚ) :=
  match positions.lookup id with
  | none => .ok values
  | some position =>
    if position.executionShares = 0 then .error .divisionByZero
    else
      let capped := R.money (R.ambient
        (R.ambient (R.ambient (position.adjustedUnits * marks id) * maximum)
          / position.executionShares))
      .ok (OrderedMap.set values id (min ((values.lookup id).getD 0) capped))

def limitValues (target : PendingTarget) (positions : Positions) (marks : Marks)
    (values : OrderedMap InstrumentId ℚ) : Except StrategyError (OrderedMap InstrumentId ℚ) :=
  target.positionLimits.entries.foldlM
    (fun values e => limitValue R positions marks values e.1 e.2) values

/-- `sum(target_values.values())`, in the order of the dictionary. -/
def proposedCapital (values : OrderedMap InstrumentId ℚ) : ℚ :=
  R.ambientSum (values.entries.map Sigma.snd)

/-- Target and monetary target values under the stock exposure cap. -/
def capValues (target : PendingTarget) (preNetNav : ℚ)
    (monetary values : OrderedMap InstrumentId ℚ) :
    Except StrategyError (OrderedMap InstrumentId ℚ × OrderedMap InstrumentId ℚ) :=
  match target.maximumStockExposure with
  | none => .ok (monetary, values)
  | some cap =>
    let stockCapital := R.money (R.ambient (preNetNav * cap))
    if proposedCapital R values ≤ stockCapital then .ok (monetary, values)
    else do
      let ratio ← R.divide stockCapital (proposedCapital R values)
      let scaled := OrderedMap.filterMap
        (fun _ value => some (R.money (R.accounting (value * ratio)))) values
      return (scaled, scaled)

def buyDeficit (positions : Positions) (marks : Marks) (values : OrderedMap InstrumentId ℚ)
    (id : InstrumentId) : ℚ :=
  let held := ((positions.lookup id).map (holdingValue R marks id)).getD 0
  R.ambient ((values.lookup id).getD 0 - held)

def sizeTarget (target : PendingTarget) (positions : Positions) (marks : Marks)
    (preNetNav : ℚ) : Except StrategyError Sizing := do
  let capital := targetCapital R target preNetNav
  let uncapped := uncappedValues R target positions marks capital
  let limited ← limitValues R target positions marks uncapped
  let (monetary, values) ← capValues R target preNetNav uncapped limited
  return {
    targetCapital := capital
    targetValues := fun id => (values.lookup id).getD 0
    monetaryTargetValues := fun id => (monetary.lookup id).getD 0
    buyCandidates := if target.mode = .reduce then [] else target.candidates
    buyDeficits := buyDeficit R positions marks values }

/-! ### Sells -/

/-- The account and the event lists between two orders. -/
structure Trading (E : Type) where
  account : Account
  journal : Journal E

/-- What the orders of one target read. -/
structure TargetTerms where
  data : MarketData
  costs : Costs
  session : Session
  target : PendingTarget
  sizing : Sizing

def TargetTerms.context (terms : TargetTerms) : OrderContext where
  decisionSession := terms.target.decisionSession
  session := terms.session
  reason := terms.target.reason

structure SellIntent where
  intendedValue : ℚ
  unroundedQuantity : ℤ
  legalQuantity : ℕ

/-- Shares whose slipped sale raises the reduction of a holding. -/
def reductionShares (costs : Costs) (position : Position) (current monetary : ℚ) :
    Except StrategyError ℤ := do
  let reduction := max 0 (R.ambient (current - monetary))
  let settlementValue := R.accounting (current * executionPriceFactor R .sell costs)
  let shares ← R.divide (R.accounting (position.executionShares * reduction)) settlementValue
  return min position.executionShares (truncate shares)

def sellUnrounded (terms : TargetTerms) (id : InstrumentId) (position : Position)
    (current desired : ℚ) : Except StrategyError ℤ := do
  let unrounded ← (
    if desired = 0 then .ok position.executionShares
    else reductionShares R terms.costs position current (terms.sizing.monetaryTargetValues id))
  match terms.target.positionLimits.lookup id with
  | some maximum => return max unrounded (position.executionShares - maximum)
  | none => return unrounded

def sellIntent (terms : TargetTerms) (marks : Marks) (id : InstrumentId) (position : Position) :
    Except StrategyError (Option SellIntent) := do
  if terms.target.mode = .increase ∧ id ∉ terms.target.positionLimits
      ∧ terms.target.maximumStockExposure = none then
    return none
  else do
    let current := holdingValue R marks id position
    let desired := terms.sizing.targetValues id
    if current ≤ desired then return none
    else do
      let unrounded ← sellUnrounded R terms id position current desired
      let profile ← found (terms.data.instruments id) StrategyError.keyError
      let legal ← legalOrderQuantity profile.board unrounded
        (decide (unrounded = position.executionShares))
      return some ⟨R.ambient (current - desired), unrounded, legal⟩

def TargetTerms.sellConstraint (terms : TargetTerms) (id : InstrumentId) (intent : SellIntent)
    (netCash : ℚ) : ConstraintEvent where
  context := terms.context
  instrument := id
  side := .sell
  mode := terms.target.mode
  reason := .belowBoardLot
  intendedValue := intent.intendedValue
  unroundedQuantity := intent.unroundedQuantity
  legalQuantity := 0
  submittedQuantity := 0
  availableCash := netCash

def TargetTerms.sellOrder (terms : TargetTerms) (id : InstrumentId) (intent : SellIntent) :
    Order where
  context := terms.context
  instrument := id
  side := .sell
  quantity := intent.legalQuantity
  intendedValue := intent.intendedValue
  unroundedQuantity := intent.unroundedQuantity

/-- Execute an order and book its outcome. -/
def trade (data : MarketData) (costs : Costs) (trading : Trading E) (order : Order) :
    Except StrategyError (Trading E) := do
  let outcome ← executeOrder R data costs trading.account order
  return ⟨trading.account.settle R outcome, trading.journal.record outcome⟩

def sellStep (terms : TargetTerms) (marks : Marks) (trading : Trading E) (id : InstrumentId) :
    Except StrategyError (Trading E) := do
  let position ← found (trading.account.positions.lookup id) StrategyError.keyError
  match ← sellIntent R terms marks id position with
  | none => return trading
  | some intent =>
    if intent.legalQuantity = 0 then
      return ⟨trading.account, (trading.journal.constrain
        (terms.sellConstraint id intent trading.account.netCash)).diagnose
          (.belowBoardLot terms.session id .sell intent.unroundedQuantity)⟩
    else trade R terms.data terms.costs trading (terms.sellOrder id intent)

/-! ### Buys -/

inductive BuyIntent
  | skipped
  | unavailable (deficit : ℚ) (reason : RejectionReason)
  | ineligible
  | sized (deficit : ℚ) (unrounded : ℤ) (legalQuantity quantity : ℕ)

def buyIntent (terms : TargetTerms) (netCash deficit : ℚ) (id : InstrumentId) :
    Except StrategyError BuyIntent := do
  match terms.data.executionPrices terms.session id with
  | none =>
    if deficit ≤ 0 then return .skipped
    else do
      let profile ← found (terms.data.instruments id) StrategyError.keyError
      match terms.data.tradingStates terms.session id with
      | some .fullSessionSuspension => return .unavailable deficit .suspension
      | some .dataUnavailable => return .unavailable deficit (.other "data_unavailable")
      | _ =>
        if profile.delisted terms.session then return .ineligible
        else .error (.unexplainedExecutableOpen id terms.session)
  | some price => do
    let buyPrice := R.accounting (price.rawOpen * executionPriceFactor R .buy terms.costs)
    let unrounded ← (
      if 0 < deficit then (R.divide deficit buyPrice).map truncate else .ok 0)
    let profile ← found (terms.data.instruments id) StrategyError.keyError
    let legal ← (
      if 0 < price.rawOpen then legalOrderQuantity profile.board unrounded false else .ok 0)
    let quantity ← affordableQuantity R profile.board legal price.rawOpen netCash terms.costs
    return .sized deficit unrounded legal quantity

def TargetTerms.unavailableOrder (terms : TargetTerms) (id : InstrumentId) (deficit : ℚ)
    (reason : RejectionReason) : OrderEvent where
  context := terms.context
  instrument := id
  side := .buy
  rejectionReason := some reason
  intendedValue := deficit
  unroundedQuantity := none
  legalQuantity := none

def TargetTerms.unavailableRejection (terms : TargetTerms) (id : InstrumentId) (deficit : ℚ)
    (reason : RejectionReason) : RejectionEvent where
  session := terms.session
  instrument := id
  side := .buy
  quantity := none
  intendedValue := deficit
  reason := reason

def TargetTerms.buyConstraint (terms : TargetTerms) (id : InstrumentId) (deficit : ℚ)
    (unrounded : ℤ) (legalQuantity quantity : ℕ) (netCash : ℚ) : ConstraintEvent where
  context := terms.context
  instrument := id
  side := .buy
  mode := terms.target.mode
  reason := if legalQuantity = 0 then .belowBoardLot else .insufficientCash
  intendedValue := deficit
  unroundedQuantity := unrounded
  legalQuantity := legalQuantity
  submittedQuantity := quantity
  availableCash := netCash

def TargetTerms.buyOrder (terms : TargetTerms) (id : InstrumentId) (deficit : ℚ)
    (unrounded : ℤ) (quantity : ℕ) : Order where
  context := terms.context
  instrument := id
  side := .buy
  quantity := quantity
  intendedValue := deficit
  unroundedQuantity := unrounded

/-- The diagnostic of a buy that submits nothing. -/
def buyDiagnose (session : Session) (id : InstrumentId) (unrounded : ℤ) (legalQuantity : ℕ)
    (journal : Journal E) : Journal E :=
  if legalQuantity = 0 then
    if 0 < unrounded then journal.diagnose (.belowBoardLot session id .buy unrounded)
    else journal
  else journal.diagnose (.insufficientCash session id legalQuantity)

/-- The buy loop carries the capital that the mode `increase` may still deploy. -/
structure Buying (E : Type) where
  trading : Trading E
  budget : ℚ

def TargetTerms.deficit (terms : TargetTerms) (budget : ℚ) (id : InstrumentId) : ℚ :=
  let deficit := terms.sizing.buyDeficits id
  if terms.target.mode = .increase then min deficit budget else deficit

/-- The budget after a buy moved net cash from `before` to `after`. -/
def TargetTerms.remainingBudget (terms : TargetTerms) (budget before after cost : ℚ) : ℚ :=
  if terms.target.mode = .increase then
    max 0 (R.ambient (budget - R.ambient (R.ambient (before - after) - cost)))
  else budget

/-- A sized buy: its constraint event, then its diagnostic or its order. -/
def buySized (terms : TargetTerms) (buying : Buying E) (id : InstrumentId) (deficit : ℚ)
    (unrounded : ℤ) (legalQuantity quantity : ℕ) : Except StrategyError (Buying E) := do
  let account := buying.trading.account
  let journal :=
    if 0 < deficit ∧ (legalQuantity = 0 ∨ quantity < legalQuantity) then
      buying.trading.journal.constrain
        (terms.buyConstraint id deficit unrounded legalQuantity quantity account.netCash)
    else buying.trading.journal
  if quantity = 0 then
    return { buying with
      trading := ⟨account, buyDiagnose terms.session id unrounded legalQuantity journal⟩ }
  else do
    let outcome ← executeOrder R terms.data terms.costs account
      (terms.buyOrder id deficit unrounded quantity)
    return {
      trading := ⟨account.settle R outcome, journal.record outcome⟩
      budget := terms.remainingBudget R buying.budget account.netCash
        outcome.settlement.netCash outcome.cost }

def buyStep (terms : TargetTerms) (buying : Buying E) (id : InstrumentId) :
    Except StrategyError (Buying E) := do
  let account := buying.trading.account
  let journal := buying.trading.journal
  match ← buyIntent R terms account.netCash (terms.deficit buying.budget id) id with
  | .skipped => return buying
  | .unavailable deficit reason =>
    return { buying with
      trading := ⟨account, { journal with
        orders := journal.orders ++ [terms.unavailableOrder id deficit reason]
        rejections := journal.rejections ++ [terms.unavailableRejection id deficit reason] }⟩ }
  | .ineligible =>
    return { buying with trading := ⟨account, journal.diagnose (.ineligible terms.session id)⟩ }
  | .sized deficit unrounded legal quantity =>
    buySized R terms buying id deficit unrounded legal quantity

/-! ### Target execution -/

/-- The account after the Open marks of a session. -/
structure OpenedSession where
  account : Account
  marks : Marks
  events : List ValuationEvent
  preGrossNav : ℚ
  preNetNav : ℚ

def openSession (data : MarketData) (session : Session) (account : Account) :
    Except StrategyError OpenedSession := do
  let (positions, events) ← markPositions R data session account.positions
  let marks := marksOf positions
  return {
    account := { account with positions := positions }
    marks := marks
    events := events
    preGrossNav := navOf R account.grossCash positions marks
    preNetNav := navOf R account.netCash positions marks }

/-- What is left of a session for its Close: the account, its marks and its events. -/
structure TradedSession (F E : Type) where
  trading : Trading E
  marks : Marks
  events : List ValuationEvent
  rebalance : Bool
  turnover : Option F

/-- A session without a pending target. -/
def OpenedSession.untraded (opened : OpenedSession) : TradedSession F E :=
  ⟨⟨opened.account, {}⟩, opened.marks, opened.events, false, none⟩

/-- Checks on a pending target before the session opens. -/
def checkTarget (data : MarketData) (positions : Positions) (target : PendingTarget) :
    Except StrategyError Unit := do
  require (∀ id ∈ target.instrumentIds, (data.instruments id).isSome = true)
    StrategyError.unknownInstruments
  require (∀ e ∈ target.positionLimits.entries,
    ∃ position ∈ positions.lookup e.1, (e.2 : ℤ) ≤ position.executionShares)
    StrategyError.notActualHolding

/-- `diagnostics` before the first order. -/
def emptyTargetDiagnostics (session : Session) (target : PendingTarget) : Journal E :=
  if target.allocation.isSome ∧ target.candidates = [] ∧ target.retained = [] then
    { diagnostics := [.insufficientCandidates session] }
  else {}

/-- The sells, over a snapshot of the held instruments in order. -/
def runSells (terms : TargetTerms) (opened : OpenedSession) (journal : Journal E) :
    Except StrategyError (Trading E) :=
  (OrderedMap.sorted opened.account.positions).keys.foldlM
    (sellStep R terms opened.marks) ⟨opened.account, journal⟩

/-- Marks between two passes, with the budget that the buys start from. -/
def remarkForBuys (terms : TargetTerms) (trading : Trading E) :
    Except StrategyError (Buying E × List ValuationEvent) := do
  let (positions, events) ← markPositions R terms.data terms.session trading.account.positions
  let budget := max 0 (R.ambient
    (terms.sizing.targetCapital - sumPositionValues R positions (marksOf positions)))
  return (⟨⟨{ trading.account with positions := positions }, trading.journal⟩, budget⟩, events)

def runBuys (terms : TargetTerms) (buying : Buying E) : Except StrategyError (Buying E) :=
  terms.sizing.buyCandidates.foldlM (buyStep R terms) buying

/-- The end of a target: the marks of what its orders left, and the turnover. -/
def settleTarget (data : MarketData) (session : Session) (opened : OpenedSession)
    (events : List ValuationEvent) (trading : Trading E) :
    Except StrategyError (TradedSession F E) := do
  let account := trading.account
  let preWeights := accountWeights R B opened.account.netCash opened.preNetNav
    opened.account.positions opened.marks
  let (positions, post) ← markPositions R data session account.positions
  let marks := marksOf positions
  let postWeights := accountWeights R B account.netCash (navOf R account.netCash positions marks)
    positions marks
  return {
    trading := ⟨{ account with positions := positions }, trading.journal⟩
    marks := marks
    events := opened.events ++ events ++ post
    rebalance := true
    turnover := some (weightTurnover B preWeights postWeights) }

def executeTarget (data : MarketData) (costs : Costs) (session : Session)
    (target : PendingTarget) (opened : OpenedSession) :
    Except StrategyError (TradedSession F E) := do
  let sizing ← sizeTarget R target opened.account.positions opened.marks opened.preNetNav
  let terms : TargetTerms := ⟨data, costs, session, target, sizing⟩
  let sold ← runSells R terms opened (emptyTargetDiagnostics session target)
  let (buying, events) ← remarkForBuys R terms sold
  let bought ← runBuys R terms buying
  settleTarget R B data session opened events bought.trading

/-- The pending target of a session, when there is one, and its checks against the calendar. -/
def executePending (data : MarketData) (costs : Costs) (session : Session)
    (signalSession : Option Session) (reportIndex : ℤ) (pending : Option PendingTarget)
    (opened : OpenedSession) : Except StrategyError (TradedSession F E) :=
  match pending with
  | none => .ok opened.untraded
  | some target => do
    require (0 < reportIndex) StrategyError.initialBaseline
    require (signalSession = some target.decisionSession) StrategyError.staleTarget
    executeTarget R B data costs session target opened

/-! ### Close -/

/-- `unique_events`: the first event of every kind of an instrument. -/
def uniqueEvents (events : List ValuationEvent) : List ValuationEvent :=
  events.foldl (fun result event =>
    if result.any fun seen => seen.session = event.session
        ∧ seen.instrument = event.instrument ∧ seen.type = event.type
    then result else result ++ [event]) []

def positionRow (id : InstrumentId) (position : Position) : Except StrategyError PositionRow := do
  let lastClose ← found position.lastCloseAdjustedPrice StrategyError.keyError
  return {
    instrument := id
    executionShares := position.executionShares
    adjustedUnits := position.adjustedUnits
    lastAdjustedPrice := position.lastAdjustedPrice
    holdingCycleStartedSession := position.holdingCycleStartedSession
    holdingAge := position.holdingAge
    lastCloseAdjustedPrice := lastClose
    remainingAcquisitionCost := position.remainingAcquisitionCost }

/-- `_position_payload`: the positions in instrument order. -/
def positionPayload (positions : Positions) : Except StrategyError (List PositionRow) :=
  (OrderedMap.sortEntries positions.entries).mapM fun e => positionRow e.1 e.2

def agePositions (positions : Positions) : Positions :=
  OrderedMap.filterMap
    (fun _ position => some { position with holdingAge := position.holdingAge + 1 }) positions

def holdingRows (positions : Positions) (marks : Marks) (netNav : ℚ) : List (HoldingRow F) :=
  (OrderedMap.sortEntries positions.entries).map fun e =>
    { instrument := e.1
      executionShares := e.2.executionShares
      adjustedUnits := e.2.adjustedUnits
      adjustedMark := marks e.1
      marketValue := holdingValue R marks e.1 e.2
      weight := ratioOrZero R B (holdingValue R marks e.1 e.2) netNav }

def maximumWeight (positions : Positions) (marks : Marks) (netNav : ℚ) : F :=
  if netNav = 0 then B.ofRat 0
  else
    (B.maximum (positions.entries.map fun e =>
      B.ofRat (R.ambient (holdingValue R marks e.1 e.2 / netNav)))).getD (B.ofRat 0)

/-- The account and decision state between two sessions, with the last daily row. -/
structure StrategyState (F S : Type) where
  account : Account
  lastDaily : Option (DailyObservation F)
  pendingTarget : Option PendingTarget
  decisionState : Option S

/-- Everything that one session appends to the result. -/
structure SessionRecord (F E : Type) where
  daily : DailyObservation F
  journal : Journal E
  holdings : List (HoldingRow F)
  turnover : Option F
  target : Option PendingTarget
  framework : Option E

/-- The daily row of a session. `account` has aged positions, `netNav` is its post-Open NAV. -/
def dailyObservation (session : Session) (opened : OpenedSession) (traded : TradedSession F E)
    (account : Account) (last : Option (DailyObservation F)) (grossNav netNav closeRiskNav : ℚ) :
    DailyObservation F where
  session := session
  rebalance := traded.rebalance
  preTradeGrossNav := opened.preGrossNav
  preTradeNetNav := opened.preNetNav
  grossNav := grossNav
  netNav := netNav
  closeRiskNav := closeRiskNav
  grossReturn := returnOrZero R B grossNav ((last.map DailyObservation.grossNav).getD grossNav)
  netReturn := returnOrZero R B netNav ((last.map DailyObservation.netNav).getD netNav)
  grossCash := account.grossCash
  netCash := account.netCash
  cumulativeTransactionCost := account.cumulativeCost
  holdingsCount := account.positions.entries.length
  maximumSingleNameWeight := maximumWeight R B account.positions traded.marks netNav
  cashRatio := ratioOrZero R B account.netCash netNav
  executionRoundingResidual :=
    R.money (R.ambient (R.ambient (grossNav - netNav) - account.cumulativeCost))
  valuationEvents := uniqueEvents traded.events

/-- The Close of a session: valuation, the daily row and the next decision. -/
def closeSession (sim : Simulation F S E) (session : Session) (reportIndex : ℤ)
    (opened : OpenedSession) (traded : TradedSession F E) (state : StrategyState F S) :
    Except StrategyError (StrategyState F S × SessionRecord F E) := do
  let R := sim.rounding
  let B := sim.floats
  let account := traded.trading.account
  let grossNav := navOf R account.grossCash account.positions traded.marks
  let netNav := navOf R account.netCash account.positions traded.marks
  require (0 ≤ account.netCash) StrategyError.negativeNetCash
  let aged := agePositions account.positions
  let closed ← markClosePositions sim.data session aged
  let closeRiskNav := navOf R account.netCash closed (closeMarksOf closed)
  let account := { account with positions := closed }
  let daily := dailyObservation R B session opened traded account state.lastDaily grossNav netNav
    closeRiskNav
  let payload ← positionPayload closed
  let journal := traded.trading.journal
  let decision ← (sim.decide session reportIndex
    ⟨account.netCash, netNav, closeRiskNav, payload⟩ journal.fills journal.rejections
    state.decisionState).mapError .program
  return (
    { account := account
      lastDaily := some daily
      pendingTarget := decision.target
      decisionState := some decision.state },
    { daily := daily
      journal := { journal with
        diagnostics := journal.diagnostics ++ decision.diagnostics.map .program }
      holdings := holdingRows R B closed traded.marks netNav
      turnover := traded.turnover
      target := decision.target
      framework := decision.framework })

/-- One pass of the session loop. -/
def runSession (sim : Simulation F S E) (signalSession : Option Session) (reportIndex : ℤ)
    (state : StrategyState F S) (session : Session) :
    Except StrategyError (StrategyState F S × SessionRecord F E) := do
  if let some target := state.pendingTarget then
    checkTarget sim.data state.account.positions target
  let opened ← openSession sim.rounding sim.data session state.account
  let traded ← executePending sim.rounding sim.floats sim.data sim.costs session signalSession
    reportIndex state.pendingTarget opened
  closeSession sim session reportIndex opened traded state

end ThesisTrace.Strategy
