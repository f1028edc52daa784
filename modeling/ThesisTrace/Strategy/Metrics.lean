import Mathlib.Data.List.MinMax
import Mathlib.Data.Nat.Size
import Mathlib.Data.Rat.Init
import Mathlib.Algebra.Order.Field.Rat
import Mathlib.Algebra.BigOperators.Group.List.Basic
import ThesisTrace.Library.Transaction

/-!
# Strategy metrics

The metrics of a list of daily Strategy rows, computed at once by `strategyMetrics` or from a
bounded state that `advanceStrategyMetricState` feeds with consecutive batches. Decimals are
rationals; binary64 numbers are an abstract type with uninterpreted conversions.
-/

namespace ThesisTrace.Strategy
open Transaction

abbrev Session := Nat

/-- The binary64 operations that the metrics use. -/
structure Binary64 (F : Type) where
  /-- `float` of a decimal, a fraction or an integer. -/
  ofRat : ℚ → F
  /-- `Fraction.from_float`. -/
  toRat : F → ℚ
  sub : F → F → F
  mul : F → F → F
  div : F → F → F
  abs : F → F
  pow : F → F → F
  sqrt : F → F

inductive MetricsError
  | emptyRows
  | divisionByZero
  | initialCashDiffers
  | invalidInitialCash
  | noObservations
  deriving DecidableEq, Repr

inductive RejectionReason
  | upperLimitBuy
  | lowerLimitSell
  | suspension
  | other (text : String)
  deriving DecidableEq, Repr

structure DailyRow (F : Type) where
  session : Session
  grossNav : ℚ
  netNav : ℚ
  rebalance : Bool
  holdingsCount : Nat
  maximumSingleNameWeight : F
  cashRatio : F

structure TurnoverEvent (F : Type) where
  session : Session
  value : F

structure DrawdownMetrics (F : Type) where
  value : F
  peakSession : Session
  troughSession : Session
  recoverySession : Option Session
  unrecovered : Bool

structure HoldingsMetrics (F : Type) where
  mean : F
  minimum : Nat
  maximum : Nat
  ending : Nat

/-- The largest value of a daily column, with the first session that reached it. -/
structure DatedMaximum (F : Type) where
  value : F
  session : Session

structure RejectionCounts where
  upperLimitBuy : Nat
  lowerLimitSell : Nat
  suspension : Nat

/-- The metrics other than the daily and event histories. -/
structure CompactMetrics (F : Type) where
  grossCumulativeReturn : F
  netCumulativeReturn : F
  grossCagr : Option F
  netCagr : Option F
  maximumDrawdown : DrawdownMetrics F
  annualizedVolatility : Option F
  sharpe : Option F
  riskFreeRate : Nat
  calmar : Option F
  averageRebalance : Option F
  annualizedTurnover : Option F
  cumulativeAmount : F
  costRatio : F
  returnDrag : F
  holdingsCount : HoldingsMetrics F
  weightMaximum : DatedMaximum F
  weightEnding : F
  cashMean : F
  cashMaximum : DatedMaximum F
  cashEnding : F
  marketRejections : RejectionCounts

structure MetricHistories (F : Type) where
  drawdownSeries : List (Session × F)
  turnoverEvents : List (TurnoverEvent F)
  holdings : List Nat
  weights : List F
  cash : List F

structure StrategyMetrics (F : Type) where
  compact : CompactMetrics F
  histories : MetricHistories F

variable {F : Type} (B : Binary64 F)

/-! ### Numbers -/

/-- Decimal division. -/
def quotient (a b : ℚ) : Except MetricsError ℚ :=
  if b = 0 then .error .divisionByZero else .ok (a / b)

/-- `/` of two integers: both convert to binary64. -/
def Binary64.trueDiv (a b : ℤ) : F :=
  B.div (B.ofRat a) (B.ofRat b)

/-- `math.fsum` rounds the exact sum once. -/
def Binary64.fsum (values : List ℚ) : F :=
  B.ofRat values.sum

def integerSqrtFractionRoundToOdd (numerator denominator : Nat) : Nat :=
  let root := Nat.sqrt (numerator / denominator)
  root ||| if root * root * denominator ≠ numerator then 1 else 0

/-- The square root of a variance, rounded once to binary64. -/
def Binary64.sqrtOfFraction (variance : ℚ) : F :=
  let numerator := variance.num.toNat
  let denominator := variance.den
  let bitShift : ℤ := ((numerator.size : ℤ) - denominator.size - 109) / 2
  if 0 ≤ bitShift then
    let shift := bitShift.toNat
    B.trueDiv ((integerSqrtFractionRoundToOdd numerator (denominator <<< (2 * shift))) <<< shift : Nat)
      1
  else
    let shift := (-bitShift).toNat
    B.trueDiv (integerSqrtFractionRoundToOdd (numerator <<< (2 * shift)) denominator)
      (1 <<< shift : Nat)

/-- `_sample_stdev_from_exact_moments`. -/
def Binary64.sampleStdevFromExactMoments (count : Nat) (total squaredTotal : ℚ) : F :=
  let squaredDeviations := (count * squaredTotal - total * total) / count
  B.sqrtOfFraction (squaredDeviations / (count - 1))

/-- `statistics.stdev`: the root of the exact sample variance. -/
def Binary64.stdev (values : List F) : F :=
  let exact := values.map B.toRat
  B.sampleStdevFromExactMoments values.length exact.sum (exact.map (· ^ 2)).sum

def Binary64.cagr (wealth : ℚ) (intervals : Nat) : Option F :=
  if intervals = 0 ∨ wealth ≤ 0 then none
  else some (B.sub (B.pow (B.ofRat wealth) (B.trueDiv 252 intervals)) (B.ofRat 1))

/-- The daily return `nav / prior - 1`, or zero on a zero prior NAV. -/
def Binary64.dailyReturn (prior nav : ℚ) : F :=
  if prior ≠ 0 then B.ofRat (nav / prior - 1) else B.ofRat 0

/-- Annualized Sharpe ratio from an annualized volatility. -/
def Binary64.sharpe (volatility returnMean : Option F) : Option F :=
  match volatility, returnMean with
  | some v, some mean =>
    if B.toRat v = 0 then none
    else some (B.mul (B.div mean (B.div v (B.sqrt (B.ofRat 252)))) (B.sqrt (B.ofRat 252)))
  | _, _ => none

def Binary64.calmar (netCagr : Option F) (drawdown : F) : Option F :=
  match netCagr with
  | some rate => if B.toRat drawdown = 0 then none else some (B.div rate (B.abs drawdown))
  | none => none

def countRejections (rejections : List RejectionReason) : RejectionCounts where
  upperLimitBuy := rejections.count .upperLimitBuy
  lowerLimitSell := rejections.count .lowerLimitSell
  suspension := rejections.count .suspension

/-! ### Metrics of a whole list -/

/-- The indices that `maximum_drawdown` carries through its loop. -/
structure DrawdownScan where
  peakIndex : Nat
  worstValue : ℚ
  worstPeak : Nat
  worstTrough : Nat

def drawdownStep (netNav : List ℚ) (scan : DrawdownScan) (index : Nat) :
    Except MetricsError DrawdownScan := do
  let value := netNav.getD index 0
  let peakIndex := if netNav.getD scan.peakIndex 0 < value then index else scan.peakIndex
  let ratio ← quotient value (netNav.getD peakIndex 0)
  let drawdown := 1 - ratio
  if scan.worstValue < drawdown then
    return ⟨peakIndex, drawdown, peakIndex, index⟩
  else
    return { scan with peakIndex := peakIndex }

def drawdownScan (netNav : List ℚ) : Except MetricsError DrawdownScan :=
  (List.range netNav.length).foldlM (drawdownStep netNav) ⟨0, 0, 0, 0⟩

/-- The first index after the trough that regains the peak. -/
def recoveryIndex (netNav : List ℚ) (scan : DrawdownScan) : Option Nat :=
  (List.range' (scan.worstTrough + 1) (netNav.length - (scan.worstTrough + 1))).find? fun index =>
    0 < scan.worstValue ∧ netNav.getD scan.worstPeak 0 ≤ netNav.getD index 0

def runningMaximum (netNav : List ℚ) (index : Nat) : ℚ :=
  (netNav.take (index + 1)).foldl max (netNav.getD 0 0)

def maximumDrawdown (daily : List (DailyRow F)) (netNav : List ℚ) :
    Except MetricsError (DrawdownMetrics F × List (Session × F)) := do
  let session := fun index => (daily[index]?.map DailyRow.session).getD 0
  let scan ← drawdownScan netNav
  let recovery := recoveryIndex netNav scan
  let series ← (List.range netNav.length).mapM fun index => do
    let ratio ← quotient (netNav.getD index 0) (runningMaximum netNav index)
    return (session index, B.ofRat (1 - ratio))
  return (
    { value := B.ofRat scan.worstValue
      peakSession := session scan.worstPeak
      troughSession := session scan.worstTrough
      recoverySession := recovery.map session
      unrecovered := recovery.isNone && decide (0 < scan.worstValue) }, series)

def netReturns (netNav : List ℚ) : List F :=
  (List.range' 1 (netNav.length - 1)).map fun index =>
    B.dailyReturn (netNav.getD (index - 1) 0) (netNav.getD index 0)

/-- The index of the first rebalance row, or of the last row when there is none. -/
def entryIndex (daily : List (DailyRow F)) : Nat :=
  (daily.findIdx? DailyRow.rebalance).getD (daily.length - 1)

/-- `max(range(len(column)), key=column.__getitem__)` picks the first largest entry. -/
def firstMaximum (column : DailyRow F → F) (daily : List (DailyRow F)) :
    Option (DatedMaximum F) :=
  (daily.argmax fun row => B.toRat (column row)).map fun row => ⟨column row, row.session⟩

def strategyMetrics (initialCash : ℚ) (daily : List (DailyRow F))
    (turnoverEvents : List (TurnoverEvent F)) (cumulativeCost : ℚ)
    (rejections : List RejectionReason) : Except MetricsError (StrategyMetrics F) := do
  let first ← found daily.head? .emptyRows
  let last ← found daily.getLast? .emptyRows
  let netNav := daily.map DailyRow.netNav
  let investmentIntervals := daily.length - entryIndex daily - 1
  let reportIntervals := daily.length - 1
  let grossWealth ← quotient last.grossNav initialCash
  let netWealth ← quotient last.netNav initialCash
  let grossCumulative := B.ofRat (grossWealth - 1)
  let netCumulative := B.ofRat (netWealth - 1)
  let grossCagr := B.cagr grossWealth investmentIntervals
  let netCagr := B.cagr netWealth investmentIntervals
  let returns := netReturns B netNav
  let volatility :=
    if 2 ≤ returns.length then some (B.mul (B.stdev returns) (B.sqrt (B.ofRat 252))) else none
  let returnMean :=
    if returns.length ≠ 0 then
      some (B.div (B.fsum (returns.map B.toRat)) (B.ofRat returns.length))
    else none
  let (drawdown, series) ← maximumDrawdown B daily netNav
  let turnover := B.fsum (turnoverEvents.map fun event => B.toRat event.value)
  let costRatio ← quotient cumulativeCost initialCash
  let holdings := daily.map DailyRow.holdingsCount
  let weightMaximum ← found (firstMaximum B DailyRow.maximumSingleNameWeight daily) .emptyRows
  let cashMaximum ← found (firstMaximum B DailyRow.cashRatio daily) .emptyRows
  return {
    compact :=
      { grossCumulativeReturn := grossCumulative
        netCumulativeReturn := netCumulative
        grossCagr := grossCagr
        netCagr := netCagr
        maximumDrawdown := drawdown
        annualizedVolatility := volatility
        sharpe := B.sharpe volatility returnMean
        riskFreeRate := 0
        calmar := B.calmar netCagr drawdown.value
        averageRebalance :=
          if turnoverEvents.length ≠ 0 then some (B.div turnover (B.ofRat turnoverEvents.length))
          else none
        annualizedTurnover :=
          if reportIntervals ≠ 0 then
            some (B.div (B.mul turnover (B.ofRat 252)) (B.ofRat reportIntervals))
          else none
        cumulativeAmount := B.ofRat cumulativeCost
        costRatio := B.ofRat costRatio
        returnDrag := B.sub grossCumulative netCumulative
        holdingsCount :=
          { mean := B.div (B.fsum (holdings.map Nat.cast)) (B.ofRat holdings.length)
            minimum := holdings.foldl min first.holdingsCount
            maximum := holdings.foldl max first.holdingsCount
            ending := last.holdingsCount }
        weightMaximum := weightMaximum
        weightEnding := last.maximumSingleNameWeight
        cashMean :=
          B.div (B.fsum (daily.map fun row => B.toRat row.cashRatio)) (B.ofRat daily.length)
        cashMaximum := cashMaximum
        cashEnding := last.cashRatio
        marketRejections := countRejections rejections }
    histories :=
      { drawdownSeries := series
        turnoverEvents := turnoverEvents
        holdings := holdings
        weights := daily.map DailyRow.maximumSingleNameWeight
        cash := daily.map DailyRow.cashRatio } }

/-! ### Streaming state -/

/-- The entries that the metric state holds from its first row on. -/
structure ObservedState (F : Type) where
  entrySession : Option Session
  entrySessionOrdinal : Option Nat
  returnCount : Nat
  returnSum : ℚ
  returnSquareSum : ℚ
  peakNetNav : ℚ
  peakSession : Session
  worstDrawdown : ℚ
  worstPeakNav : ℚ
  worstPeakSession : Session
  worstTroughSession : Session
  worstRecoverySession : Option Session
  holdingsSum : Nat
  holdingsMinimum : Nat
  holdingsMaximum : Nat
  holdingsEnding : Nat
  weightMaximum : DatedMaximum F
  weightEnding : F
  cashSum : ℚ
  cashMaximum : DatedMaximum F
  cashEnding : F
  sessionCount : Nat
  lastGrossNav : ℚ
  lastNetNav : ℚ

structure StrategyMetricState (F : Type) where
  initialCash : ℚ
  observed : Option (ObservedState F)
  turnoverSum : ℚ
  turnoverCount : Nat
  cumulativeCost : ℚ
  rejections : RejectionCounts

/-- The state after the first row. -/
def firstObservation (row : DailyRow F) : ObservedState F where
  entrySession := if row.rebalance then some row.session else none
  entrySessionOrdinal := if row.rebalance then some 1 else none
  returnCount := 0
  returnSum := 0
  returnSquareSum := 0
  peakNetNav := row.netNav
  peakSession := row.session
  worstDrawdown := 0
  worstPeakNav := row.netNav
  worstPeakSession := row.session
  worstTroughSession := row.session
  worstRecoverySession := none
  holdingsSum := row.holdingsCount
  holdingsMinimum := row.holdingsCount
  holdingsMaximum := row.holdingsCount
  holdingsEnding := row.holdingsCount
  weightMaximum := ⟨row.maximumSingleNameWeight, row.session⟩
  weightEnding := row.maximumSingleNameWeight
  cashSum := B.toRat row.cashRatio
  cashMaximum := ⟨row.cashRatio, row.session⟩
  cashEnding := row.cashRatio
  sessionCount := 1
  lastGrossNav := row.grossNav
  lastNetNav := row.netNav

/-- The drawdown entries after one more row. -/
def advanceDrawdown (state : ObservedState F) (row : DailyRow F) :
    Except MetricsError (ObservedState F) := do
  let recovered := 0 < state.worstDrawdown ∧ state.worstRecoverySession = none
    ∧ state.worstPeakNav ≤ row.netNav
  let recovery := if recovered then some row.session else state.worstRecoverySession
  let peak := if state.peakNetNav < row.netNav then (row.netNav, row.session)
    else (state.peakNetNav, state.peakSession)
  let ratio ← quotient row.netNav peak.1
  let drawdown := 1 - ratio
  if state.worstDrawdown < drawdown then
    return { state with
      peakNetNav := peak.1, peakSession := peak.2, worstDrawdown := drawdown
      worstPeakNav := peak.1, worstPeakSession := peak.2, worstTroughSession := row.session
      worstRecoverySession := none }
  else
    return { state with
      peakNetNav := peak.1, peakSession := peak.2, worstRecoverySession := recovery }

def advanceMaximum (maximum : DatedMaximum F) (value : F) (session : Session) : DatedMaximum F :=
  if B.toRat maximum.value < B.toRat value then ⟨value, session⟩ else maximum

def advanceObservation (state : ObservedState F) (row : DailyRow F) :
    Except MetricsError (ObservedState F) := do
  let netReturn := B.dailyReturn state.lastNetNav row.netNav
  let scanned ← advanceDrawdown state row
  let enters := row.rebalance = true ∧ state.entrySession = none
  return { scanned with
    entrySession := if enters then some row.session else state.entrySession
    entrySessionOrdinal :=
      if enters then some (state.sessionCount + 1) else state.entrySessionOrdinal
    returnCount := state.returnCount + 1
    returnSum := state.returnSum + B.toRat netReturn
    returnSquareSum := state.returnSquareSum + B.toRat netReturn ^ 2
    holdingsSum := state.holdingsSum + row.holdingsCount
    holdingsMinimum := min state.holdingsMinimum row.holdingsCount
    holdingsMaximum := max state.holdingsMaximum row.holdingsCount
    holdingsEnding := row.holdingsCount
    weightMaximum := advanceMaximum B state.weightMaximum row.maximumSingleNameWeight row.session
    weightEnding := row.maximumSingleNameWeight
    cashSum := state.cashSum + B.toRat row.cashRatio
    cashMaximum := advanceMaximum B state.cashMaximum row.cashRatio row.session
    cashEnding := row.cashRatio
    sessionCount := state.sessionCount + 1
    lastGrossNav := row.grossNav
    lastNetNav := row.netNav }

def observe (observed : Option (ObservedState F)) (row : DailyRow F) :
    Except MetricsError (Option (ObservedState F)) :=
  match observed with
  | none => return some (firstObservation B row)
  | some state => do
    let next ← advanceObservation B state row
    return some next

/-- Consecutive daily rows with the events of the same sessions. -/
structure MetricBatch (F : Type) where
  daily : List (DailyRow F)
  turnoverEvents : List (TurnoverEvent F)
  cumulativeCost : ℚ
  rejections : List RejectionReason

def emptyMetricState (initialCash : ℚ) : StrategyMetricState F :=
  ⟨initialCash, none, 0, 0, 0, ⟨0, 0, 0⟩⟩

def RejectionCounts.add (counts : RejectionCounts) (rejections : List RejectionReason) :
    RejectionCounts where
  upperLimitBuy := counts.upperLimitBuy + rejections.count .upperLimitBuy
  lowerLimitSell := counts.lowerLimitSell + rejections.count .lowerLimitSell
  suspension := counts.suspension + rejections.count .suspension

def advanceStrategyMetricState (prior : Option (StrategyMetricState F)) (initialCash : ℚ)
    (batch : MetricBatch F) : Except MetricsError (StrategyMetricState F) := do
  let state := prior.getD (emptyMetricState initialCash)
  require (state.initialCash = initialCash) MetricsError.initialCashDiffers
  let observed ← batch.daily.foldlM (observe B) state.observed
  require (observed.isSome = true) MetricsError.noObservations
  return {
    initialCash := initialCash
    observed := observed
    turnoverSum := state.turnoverSum + (batch.turnoverEvents.map fun event => B.toRat event.value).sum
    turnoverCount := state.turnoverCount + batch.turnoverEvents.length
    cumulativeCost := batch.cumulativeCost
    rejections := state.rejections.add batch.rejections }

/-- The sessions since entry, or all intervals of the report when the Strategy never entered. -/
def ObservedState.investmentIntervals (observed : ObservedState F) : Nat :=
  match observed.entrySessionOrdinal with
  | none => observed.sessionCount - 1
  | some ordinal => observed.sessionCount - ordinal

def strategyMetricsFromState (state : StrategyMetricState F) :
    Except MetricsError (StrategyMetrics F) := do
  require (0 < state.initialCash) MetricsError.invalidInitialCash
  let observed ← found state.observed .noObservations
  let reportIntervals := observed.sessionCount - 1
  let investmentIntervals := observed.investmentIntervals
  let grossWealth ← quotient observed.lastGrossNav state.initialCash
  let netWealth ← quotient observed.lastNetNav state.initialCash
  let grossCumulative := B.ofRat (grossWealth - 1)
  let netCumulative := B.ofRat (netWealth - 1)
  let netCagr := B.cagr netWealth investmentIntervals
  let volatility :=
    if 2 ≤ observed.returnCount then
      some (B.mul
        (B.sampleStdevFromExactMoments observed.returnCount observed.returnSum
          observed.returnSquareSum)
        (B.sqrt (B.ofRat 252)))
    else none
  let returnMean :=
    if observed.returnCount ≠ 0 then
      some (B.div (B.ofRat observed.returnSum) (B.ofRat observed.returnCount))
    else none
  let drawdownValue := B.ofRat observed.worstDrawdown
  let turnover := B.ofRat state.turnoverSum
  let costRatio ← quotient state.cumulativeCost state.initialCash
  return {
    compact :=
      { grossCumulativeReturn := grossCumulative
        netCumulativeReturn := netCumulative
        grossCagr := B.cagr grossWealth investmentIntervals
        netCagr := netCagr
        maximumDrawdown :=
          { value := drawdownValue
            peakSession := observed.worstPeakSession
            troughSession := observed.worstTroughSession
            recoverySession := observed.worstRecoverySession
            unrecovered := observed.worstRecoverySession.isNone
              && decide (0 < B.toRat drawdownValue) }
        annualizedVolatility := volatility
        sharpe := B.sharpe volatility returnMean
        riskFreeRate := 0
        calmar := B.calmar netCagr drawdownValue
        averageRebalance :=
          if state.turnoverCount ≠ 0 then some (B.div turnover (B.ofRat state.turnoverCount))
          else none
        annualizedTurnover :=
          if reportIntervals ≠ 0 then
            some (B.div (B.mul turnover (B.ofRat 252)) (B.ofRat reportIntervals))
          else none
        cumulativeAmount := B.ofRat state.cumulativeCost
        costRatio := B.ofRat costRatio
        returnDrag := B.sub grossCumulative netCumulative
        holdingsCount :=
          { mean := B.trueDiv observed.holdingsSum observed.sessionCount
            minimum := observed.holdingsMinimum
            maximum := observed.holdingsMaximum
            ending := observed.holdingsEnding }
        weightMaximum := observed.weightMaximum
        weightEnding := observed.weightEnding
        cashMean := B.div (B.ofRat observed.cashSum) (B.ofRat observed.sessionCount)
        cashMaximum := observed.cashMaximum
        cashEnding := observed.cashEnding
        marketRejections := state.rejections }
    histories := ⟨[], [], [], [], []⟩ }

end ThesisTrace.Strategy
