import Mathlib.Data.Rat.Floor
import Mathlib.Order.Monotone.Basic
import ThesisTrace.Library.DecimalContext
import ThesisTrace.Library.OrderedMap
import ThesisTrace.Strategy.Metrics

/-!
# Orders of the Strategy account

Market data, simulation costs and the execution of one order on the account: legal
quantities, child orders, transaction cost, the affordability search and settlement. Decimals
are rationals; the rounding of the two decimal contexts is a parameter.
-/

namespace ThesisTrace.Strategy
open Transaction

abbrev InstrumentId := Nat

inductive StrategyError
  | unsupportedBoard
  | notBoardLot
  | missingPriceLimit (instrument : InstrumentId) (session : Session)
  | unexplainedExecutableOpen (instrument : InstrumentId) (session : Session)
  | unexplainedMissingOpen (instrument : InstrumentId) (session : Session)
  | invalidClose (instrument : InstrumentId) (session : Session)
  | missingClose (instrument : InstrumentId) (session : Session)
  | unknownInstruments
  | notActualHolding
  | initialBaseline
  | staleTarget
  | negativeNetCash
  | noHistory
  | invalidReportSessionCount
  | initialCashDiffers
  | sessionNotInCalendar
  | keyError
  | divisionByZero
  | metrics (error : MetricsError)
  | program (message : String)
  deriving DecidableEq, Repr

/-! ### Decimal contexts -/

/-- The roundings of the default decimal context, in which the simulator computes outside
`with accounting_context()`, and of the wider accounting context. -/
structure Rounding where
  ambient : ℚ → ℚ
  accounting : ℚ → ℚ
  ambient_mono : Monotone ambient
  accounting_mono : Monotone accounting
  ambient_zero : ambient 0 = 0
  ambient_ambient : ∀ x, ambient (ambient x) = ambient x
  accounting_ambient : ∀ x, accounting (ambient x) = ambient x

/-- Exact decimal arithmetic. -/
def Rounding.exact : Rounding where
  ambient := id
  accounting := id
  ambient_mono := monotone_id
  accounting_mono := monotone_id
  ambient_zero := rfl
  ambient_ambient _ := rfl
  accounting_ambient _ := rfl

/-- The contexts of the source: 28 digits by default, 34 in `ACCOUNTING_CONTEXT`. -/
def Rounding.decimal : Rounding where
  ambient := DecimalContext.roundTo 28
  accounting := DecimalContext.roundTo 34
  ambient_mono := DecimalContext.roundTo_mono (by decide)
  accounting_mono := DecimalContext.roundTo_mono (by decide)
  ambient_zero := DecimalContext.roundTo_zero 28
  ambient_ambient := DecimalContext.roundTo_roundTo (by decide) (by decide)
  accounting_ambient := DecimalContext.roundTo_roundTo (by decide) (by decide)

@[simp] lemma Rounding.exact_ambient (x : ℚ) : Rounding.exact.ambient x = x := rfl

@[simp] lemma Rounding.exact_accounting (x : ℚ) : Rounding.exact.accounting x = x := rfl

variable (R : Rounding)

/-- `money`: one more rounding in the accounting context. -/
def Rounding.money (x : ℚ) : ℚ := R.accounting x

@[simp] lemma Rounding.exact_money (x : ℚ) : Rounding.exact.money x = x := rfl

/-- Division inside the accounting context. -/
def Rounding.divide (a b : ℚ) : Except StrategyError ℚ :=
  if b = 0 then .error .divisionByZero else .ok (R.accounting (a / b))

/-- `sum(values)` outside the accounting context. -/
def Rounding.ambientSum (values : List ℚ) : ℚ :=
  values.foldl (fun total x => R.ambient (total + x)) 0

/-- `int` of a decimal drops the fraction. -/
def truncate (x : ℚ) : ℤ :=
  if 0 ≤ x then ⌊x⌋ else ⌈x⌉

/-! ### Market data -/

inductive Board
  | main
  | chinext
  | star
  | other
  deriving DecidableEq, Repr

inductive TradingState
  | normal
  | fullSessionSuspension
  | partialOpeningSuspension
  | afterOpenSuspension
  | dataUnavailable
  deriving DecidableEq, Repr

structure InstrumentProfile where
  board : Board
  listedTo : Option Session

/-- The Open of one session. The adjusted price is the raw price times a positive factor. -/
structure ExecutionPrice where
  rawOpen : ℚ
  adjustedOpen : ℚ
  adjusted_nonneg : 0 ≤ rawOpen → 0 ≤ adjustedOpen

structure PriceLimit where
  upper : ℚ
  lower : ℚ

/-- The series resolved for one calculation. A missing or NaN Close is `none`. -/
structure MarketData where
  instruments : InstrumentId → Option InstrumentProfile
  executionPrices : Session → InstrumentId → Option ExecutionPrice
  tradingStates : Session → InstrumentId → Option TradingState
  priceLimits : Session → InstrumentId → Option PriceLimit
  closes : Session → InstrumentId → Option ℚ

/-- `state in {"full_session_suspension", "data_unavailable"}`. -/
def MarketData.unavailable (data : MarketData) (session : Session) (id : InstrumentId) : Prop :=
  data.tradingStates session id = some .fullSessionSuspension
    ∨ data.tradingStates session id = some .dataUnavailable

instance (data : MarketData) (session : Session) (id : InstrumentId) :
    Decidable (data.unavailable session id) :=
  inferInstanceAs (Decidable (_ ∨ _))

/-- `listed_to and listed_to <= session`. -/
def InstrumentProfile.delisted (profile : InstrumentProfile) (session : Session) : Prop :=
  ∃ last ∈ profile.listedTo, last ≤ session

instance (profile : InstrumentProfile) (session : Session) :
    Decidable (profile.delisted session) :=
  match h : profile.listedTo with
  | none => isFalse (by simp [InstrumentProfile.delisted, h])
  | some last => decidable_of_iff (last ≤ session) (by simp [InstrumentProfile.delisted, h])

/-! ### Costs -/

inductive Side
  | buy
  | sell
  deriving DecidableEq, Repr

/-- Simulation costs, as the simulator admits them. -/
structure Costs where
  commissionRateAllIn : ℚ
  commissionMin : ℚ
  stampDutySellRate : ℚ
  transferFeeRate : ℚ
  slippageBps : ℚ
  commissionRateAllIn_nonneg : 0 ≤ commissionRateAllIn
  commissionMin_nonneg : 0 ≤ commissionMin
  stampDutySellRate_nonneg : 0 ≤ stampDutySellRate
  transferFeeRate_nonneg : 0 ≤ transferFeeRate
  slippageBps_nonneg : 0 ≤ slippageBps
  slippageBps_lt : slippageBps < 10000

structure FeeParts where
  commission : ℚ
  stampDuty : ℚ
  transferFee : ℚ

def transactionCostParts (notional : ℚ) (side : Side) (costs : Costs) : FeeParts where
  commission := max (R.accounting (notional * costs.commissionRateAllIn)) costs.commissionMin
  stampDuty :=
    match side with
    | .sell => R.accounting (notional * costs.stampDutySellRate)
    | .buy => 0
  transferFee := R.accounting (notional * costs.transferFeeRate)

/-- `sum(parts.values())` in the accounting context. -/
def FeeParts.total (parts : FeeParts) : ℚ :=
  R.accounting (R.accounting (R.accounting parts.commission + parts.stampDuty) + parts.transferFee)

def transactionCost (rawNotional : ℚ) (side : Side) (costs : Costs) : ℚ :=
  (transactionCostParts R rawNotional side costs).total R

def executionPriceFactor (side : Side) (costs : Costs) : ℚ :=
  match side with
  | .buy => R.accounting (R.accounting (10000 + costs.slippageBps) / 10000)
  | .sell => R.accounting (R.accounting (10000 - costs.slippageBps) / 10000)

def marketRejectionReason (side : Side) (state : Option TradingState) (rawOpen : Option ℚ)
    (upper lower : ℚ) : Option RejectionReason :=
  match state with
  | some .fullSessionSuspension => some .suspension
  | some .dataUnavailable => some (.other "data_unavailable")
  | _ =>
    match side, rawOpen with
    | _, none => none
    | .buy, some price => if upper ≤ price then some .upperLimitBuy else none
    | .sell, some price => if price ≤ lower then some .lowerLimitSell else none

/-! ### Legal quantities and child orders -/

def legalOrderQuantity (board : Board) (targetQuantity : ℤ) (completeLiquidation : Bool) :
    Except StrategyError ℕ :=
  let quantity := targetQuantity.toNat
  if completeLiquidation then .ok quantity
  else
    match board with
    | .main | .chinext => .ok (quantity / 100 * 100)
    | .star => .ok (if 200 ≤ quantity then quantity else 0)
    | .other => .error .unsupportedBoard

/-- The largest child order of a board. -/
def Board.cap : Board → Option ℕ
  | .main => some 1000000
  | .chinext => some 300000
  | .star => some 100000
  | .other => none

def Board.minimum : Board → ℕ
  | .star => 200
  | _ => 100

/-- `while remaining > cap`, for at most `fuel` rounds: the full children and the remainder. -/
def fullChildren (cap : ℕ) : ℕ → ℕ → List ℕ × ℕ
  | 0, remaining => ([], remaining)
  | fuel + 1, remaining =>
    if cap < remaining then
      let rest := fullChildren cap fuel (remaining - cap)
      (cap :: rest.1, rest.2)
    else ([], remaining)

/-- The last child, topped up to the board minimum from the child before it. -/
def lastChild (children : List ℕ) (remaining minimum : ℕ) : List ℕ :=
  if children ≠ [] ∧ remaining < minimum then
    let adjustment := minimum - remaining
    children.dropLast ++ [children.getLastD 0 - adjustment, remaining + adjustment]
  else children ++ [remaining]

def splitChildOrders (board : Board) (quantity : ℕ) (completeLiquidation : Bool) :
    Except StrategyError (List ℕ) := do
  let cap ← found board.cap StrategyError.unsupportedBoard
  require (completeLiquidation = true ∨ board = .star ∨ quantity % 100 = 0)
    StrategyError.notBoardLot
  let (children, remaining) := fullChildren cap quantity quantity
  if remaining = 0 then return children
  else if completeLiquidation then return children ++ [remaining]
  else return lastChild children remaining board.minimum

/-! ### Affordability -/

/-- `is_affordable`: notional and cost of a candidate, split as it would be executed. -/
def isAffordable (board : Board) (executionPrice netCash : ℚ) (costs : Costs) (candidate : ℕ) :
    Except StrategyError Bool := do
  let children ← splitChildOrders board candidate false
  let notional := R.money (R.ambient (candidate * executionPrice))
  let totalCost := R.ambientSum (children.map fun child : ℕ =>
    transactionCost R (R.money (R.ambient (child * executionPrice))) .buy costs)
  return decide (R.ambient (notional + totalCost) ≤ netCash)

/-- The binary search of `affordable_quantity` between two unit counts. -/
def affordableUnits (affordable : ℕ → Except StrategyError Bool) :
    ℕ → ℕ → ℕ → Except StrategyError ℕ
  | 0, low, _ => .ok low
  | fuel + 1, low, high =>
    if low < high then do
      let middle := (low + high + 1) / 2
      if ← affordable middle then affordableUnits affordable fuel middle high
      else affordableUnits affordable fuel low (middle - 1)
    else .ok low

def Board.step : Board → ℕ
  | .star => 1
  | _ => 100

def affordableQuantity (board : Board) (quantity : ℕ) (rawOpen netCash : ℚ) (costs : Costs) :
    Except StrategyError ℕ := do
  let executionPrice := R.accounting (rawOpen * executionPriceFactor R .buy costs)
  let minimum := board.minimum
  if quantity < minimum then return 0
  let highUnits := (quantity - minimum) / board.step + 1
  let units ← affordableUnits
    (fun units => isAffordable R board executionPrice netCash costs
      (minimum + (units - 1) * board.step))
    highUnits 0 highUnits
  return if units = 0 then 0 else minimum + (units - 1) * board.step

/-! ### Positions and events -/

structure Position where
  executionShares : ℤ
  adjustedUnits : ℚ
  lastAdjustedPrice : ℚ
  remainingAcquisitionCost : ℚ
  holdingCycleStartedSession : Session
  holdingAge : ℕ
  lastCloseAdjustedPrice : Option ℚ
  deriving DecidableEq, Repr

abbrev Positions := OrderedMap InstrumentId Position

/-- What the events of one order share. -/
structure OrderContext where
  decisionSession : Session
  session : Session
  reason : String
  deriving DecidableEq, Repr

structure OrderEvent where
  context : OrderContext
  instrument : InstrumentId
  side : Side
  rejectionReason : Option RejectionReason
  intendedValue : ℚ
  unroundedQuantity : Option ℤ
  legalQuantity : Option ℕ
  deriving DecidableEq, Repr

structure RejectionEvent where
  session : Session
  instrument : InstrumentId
  side : Side
  quantity : Option ℕ
  intendedValue : ℚ
  reason : RejectionReason
  deriving DecidableEq, Repr

/-- A child order covers the shares `firstShare .. firstShare + quantity` of its order. -/
structure ChildOrderEvent where
  context : OrderContext
  instrument : InstrumentId
  side : Side
  firstShare : ℕ
  quantity : ℕ
  deriving DecidableEq, Repr

structure FillEvent where
  childOrder : ChildOrderEvent
  rawOpen : ℚ
  executionPrice : ℚ
  priceSlippage : ℚ
  commission : ℚ
  stampDuty : ℚ
  transferFee : ℚ
  rawNotional : ℚ
  cost : ℚ
  adjustedOpen : ℚ
  researchSettlement : ℚ
  grossCashDelta : ℚ
  netCashDelta : ℚ
  cashRoundingDelta : ℚ
  executionSharesDelta : ℤ
  adjustedUnitsDelta : ℚ
  deriving DecidableEq, Repr

structure Account where
  positions : Positions
  grossCash : ℚ
  netCash : ℚ
  cumulativeCost : ℚ
  deriving DecidableEq

/-! ### One order -/

structure Order where
  context : OrderContext
  instrument : InstrumentId
  side : Side
  quantity : ℕ
  intendedValue : ℚ
  unroundedQuantity : ℤ

/-- The cost of one child order at its execution price. -/
structure ChildCost where
  firstShare : ℕ
  quantity : ℕ
  rawNotional : ℚ
  fees : FeeParts
  cost : ℚ

/-- The children of an order, each with its own fees. -/
def childCosts (costs : Costs) (side : Side) (executionPrice : ℚ) : ℕ → List ℕ → List ChildCost
  | _, [] => []
  | firstShare, quantity :: rest =>
    let rawNotional := R.money (R.ambient (quantity * executionPrice))
    let fees := transactionCostParts R rawNotional side costs
    { firstShare := firstShare, quantity := quantity, rawNotional := rawNotional, fees := fees
      cost := fees.total R } :: childCosts costs side executionPrice (firstShare + quantity) rest

/-- `total_cost` of the child loop. -/
def totalChildCost (children : List ChildCost) : ℚ :=
  children.foldl (fun total child => R.money (R.ambient (total + child.cost))) 0

/-- What an order did to the account. -/
structure Settlement where
  positions : Positions
  grossCash : ℚ
  netCash : ℚ

def boughtPosition (session : Session) (quantity : ℕ)
    (rawNotional totalCost addedUnits adjustedOpen : ℚ) : Option Position → Position
  | none =>
    { executionShares := quantity
      adjustedUnits := addedUnits
      lastAdjustedPrice := adjustedOpen
      remainingAcquisitionCost := R.money (R.ambient (rawNotional + totalCost))
      holdingCycleStartedSession := session
      holdingAge := 0
      lastCloseAdjustedPrice := none }
  | some position =>
    { position with
      remainingAcquisitionCost :=
        R.money (R.ambient
          (R.ambient (position.remainingAcquisitionCost + rawNotional) + totalCost))
      executionShares := position.executionShares + quantity
      adjustedUnits := R.money (R.ambient (position.adjustedUnits + addedUnits))
      lastAdjustedPrice := adjustedOpen }

def settleBuy (account : Account) (order : Order) (price : ExecutionPrice)
    (totalQuantity : ℕ) (executionPrice totalCost : ℚ) : Except StrategyError Settlement := do
  let rawNotional := R.money (R.ambient (totalQuantity * executionPrice))
  let unitPrice ← R.divide price.adjustedOpen price.rawOpen
  let addedUnits ← R.divide totalQuantity unitPrice
  let position := boughtPosition R order.context.session totalQuantity rawNotional totalCost
    addedUnits price.adjustedOpen (account.positions.lookup order.instrument)
  return {
    positions := OrderedMap.set account.positions order.instrument position
    grossCash := R.money (R.ambient (account.grossCash - rawNotional))
    netCash := R.money (R.ambient (R.ambient (account.netCash - rawNotional) - totalCost)) }

/-- The units that leave a position when `quantity` of its shares are sold. -/
def removedUnits (position : Position) (quantity : ℕ) : Except StrategyError ℚ :=
  if position.executionShares = quantity then .ok position.adjustedUnits
  else R.divide (R.accounting (position.adjustedUnits * quantity)) position.executionShares

/-- What is left of a position after a partial sale. -/
def reducedPosition (position : Position) (quantity : ℕ) (removed adjustedOpen : ℚ) :
    Except StrategyError Position := do
  let kept ← R.divide
    (R.accounting (position.remainingAcquisitionCost * (position.executionShares - quantity)))
    position.executionShares
  return { position with
    remainingAcquisitionCost := R.money kept
    executionShares := position.executionShares - quantity
    adjustedUnits := R.money (R.ambient (position.adjustedUnits - removed))
    lastAdjustedPrice := adjustedOpen }

def settleSell (account : Account) (order : Order) (price : ExecutionPrice)
    (totalQuantity : ℕ) (executionFactor totalCost : ℚ) : Except StrategyError Settlement := do
  let position ← found (account.positions.lookup order.instrument) StrategyError.keyError
  let removed ← removedUnits R position totalQuantity
  let settlement := R.accounting (R.accounting (removed * price.adjustedOpen) * executionFactor)
  let positions ← (
    if position.executionShares = totalQuantity then
      .ok (account.positions.erase order.instrument)
    else
      (reducedPosition R position totalQuantity removed price.adjustedOpen).map
        (OrderedMap.set account.positions order.instrument))
  return {
    positions := positions
    grossCash := R.money (R.ambient (account.grossCash + settlement))
    netCash := R.money (R.ambient (R.ambient (account.netCash + settlement) - totalCost)) }

/-! ### Fills -/

/-- Cash and unit changes, of a whole order or of its first fills. -/
structure Deltas where
  gross : ℚ
  net : ℚ
  units : ℚ

/-- The share of the order's changes that its first `cumulative` of `total` shares account for. -/
def Deltas.prorate (deltas : Deltas) (cumulative total : ℕ) : Deltas :=
  if cumulative = total then deltas
  else
    let part := fun value => R.accounting (R.accounting (value * cumulative) / total)
    ⟨part deltas.gross, part deltas.net, part deltas.units⟩

/-- What all fills of one order have in common. -/
structure FillTerms where
  order : Order
  rawOpen : ℚ
  executionPrice : ℚ
  adjustedOpen : ℚ
  totalQuantity : ℕ
  deltas : Deltas

def Order.childOrder (order : Order) (child : ChildCost) : ChildOrderEvent where
  context := order.context
  instrument := order.instrument
  side := order.side
  firstShare := child.firstShare
  quantity := child.quantity

/-- Order-level changes allocated to the fills, the last one taking what is left. -/
def allocateFills (terms : FillTerms) : Deltas → ℚ → List ChildCost → List FillEvent
  | _, _, [] => []
  | prior, cumulativeNet, child :: rest =>
    let cumulativeQuantity := child.firstShare + child.quantity
    let cumulative := terms.deltas.prorate R cumulativeQuantity terms.totalQuantity
    let grossDelta := R.accounting (cumulative.gross - prior.gross)
    let unitsDelta := R.accounting (cumulative.units - prior.units)
    let netDelta :=
      if cumulativeQuantity = terms.totalQuantity then
        R.accounting (terms.deltas.net - cumulativeNet)
      else R.accounting (grossDelta - child.cost)
    { childOrder := terms.order.childOrder child
      rawOpen := terms.rawOpen
      executionPrice := terms.executionPrice
      priceSlippage := R.accounting (terms.executionPrice - terms.rawOpen)
      commission := child.fees.commission
      stampDuty := child.fees.stampDuty
      transferFee := child.fees.transferFee
      rawNotional := child.rawNotional
      cost := child.cost
      adjustedOpen := terms.adjustedOpen
      researchSettlement := |grossDelta|
      grossCashDelta := grossDelta
      netCashDelta := netDelta
      cashRoundingDelta := R.accounting (R.accounting (netDelta - grossDelta) + child.cost)
      executionSharesDelta :=
        match terms.order.side with
        | .buy => child.quantity
        | .sell => -child.quantity
      adjustedUnitsDelta := unitsDelta } ::
      allocateFills terms cumulative (R.accounting (cumulativeNet + netDelta)) rest

def unitsHeld (positions : Positions) (id : InstrumentId) : ℚ :=
  ((positions.lookup id).map Position.adjustedUnits).getD 0

/-- What `execute_order` appends to the account history. -/
structure OrderOutcome where
  settlement : Settlement
  cost : ℚ
  order : OrderEvent
  childOrders : List ChildOrderEvent
  fills : List FillEvent
  rejections : List RejectionEvent

def Order.event (order : Order) (rejection : Option RejectionReason) : OrderEvent where
  context := order.context
  instrument := order.instrument
  side := order.side
  rejectionReason := rejection
  intendedValue := order.intendedValue
  unroundedQuantity := some order.unroundedQuantity
  legalQuantity := some order.quantity

def rejectOrder (account : Account) (order : Order) (reason : RejectionReason) : OrderOutcome where
  settlement := ⟨account.positions, account.grossCash, account.netCash⟩
  cost := 0
  order := order.event (some reason)
  childOrders := []
  fills := []
  rejections := [{
    session := order.context.session
    instrument := order.instrument
    side := order.side
    quantity := some order.quantity
    intendedValue := order.intendedValue
    reason := reason }]

/-- An order that the market takes. -/
def fillOrder (data : MarketData) (costs : Costs) (account : Account) (order : Order)
    (price : ExecutionPrice) : Except StrategyError OrderOutcome := do
  let executionFactor := executionPriceFactor R order.side costs
  let executionPrice := R.accounting (price.rawOpen * executionFactor)
  let profile ← found (data.instruments order.instrument) StrategyError.keyError
  let complete := order.side = .sell
    ∧ (account.positions.lookup order.instrument).map Position.executionShares
      = some (order.quantity : ℤ)
  let quantities ← splitChildOrders profile.board order.quantity (decide complete)
  let children := childCosts R costs order.side executionPrice 0 quantities
  let totalCost := totalChildCost R children
  let settlement ← (
    match order.side with
    | .buy => settleBuy R account order price quantities.sum executionPrice totalCost
    | .sell => settleSell R account order price quantities.sum executionFactor totalCost)
  let deltas : Deltas := {
    gross := R.accounting (settlement.grossCash - account.grossCash)
    net := R.accounting (settlement.netCash - account.netCash)
    units := R.accounting (unitsHeld settlement.positions order.instrument
      - unitsHeld account.positions order.instrument) }
  let terms : FillTerms :=
    ⟨order, price.rawOpen, executionPrice, price.adjustedOpen, quantities.sum, deltas⟩
  return {
    settlement := settlement
    cost := totalCost
    order := order.event none
    childOrders := children.map order.childOrder
    fills := allocateFills R terms ⟨0, 0, 0⟩ 0 children
    rejections := [] }

/-- Why the market of its session refuses an order. -/
def orderRejection (data : MarketData) (order : Order) : Option RejectionReason :=
  let session := order.context.session
  let limit := data.priceLimits session order.instrument
  marketRejectionReason order.side (data.tradingStates session order.instrument)
    ((data.executionPrices session order.instrument).map ExecutionPrice.rawOpen)
    ((limit.map PriceLimit.upper).getD 0) ((limit.map PriceLimit.lower).getD 0)

def executeOrder (data : MarketData) (costs : Costs) (account : Account) (order : Order) :
    Except StrategyError OrderOutcome := do
  let session := order.context.session
  require ((data.priceLimits session order.instrument).isSome = true
      ∨ data.unavailable session order.instrument)
    (StrategyError.missingPriceLimit order.instrument session)
  match orderRejection data order with
  | some reason => return rejectOrder account order reason
  | none => do
    let price ← found (data.executionPrices session order.instrument)
      (StrategyError.unexplainedExecutableOpen order.instrument session)
    fillOrder R data costs account order price

/-- The account after an order, with its cost added to the running total. -/
def Account.settle (account : Account) (outcome : OrderOutcome) : Account where
  positions := outcome.settlement.positions
  grossCash := outcome.settlement.grossCash
  netCash := outcome.settlement.netCash
  cumulativeCost := R.money (R.ambient (account.cumulativeCost + outcome.cost))

end ThesisTrace.Strategy
