import ThesisTrace.Library.Execution
import ThesisTrace.Strategy.Session

/-!
# Strategy execution over sessions and chunks

`executeStrategy` runs the session loop over the part of a calendar after its start. A Research
Run executes it chunk by chunk: every chunk restores the bounded continuation of the one before
it and projects its own.
-/

namespace ThesisTrace.Strategy
open Transaction

variable {F S E D : Type}

/-! ### Continuation -/

/-- The bounded `strategy_state` that one execution leaves for the next. -/
structure Continuation (F S : Type) where
  daily : List (DailyObservation F)
  positions : List PositionRow
  reportSessionCount : ℕ
  decisionState : Option S
  pendingTarget : Option PendingTarget
  metricState : StrategyMetricState F

def restorePosition (row : PositionRow) : Sigma fun _ : InstrumentId => Position :=
  ⟨row.instrument, {
    executionShares := row.executionShares
    adjustedUnits := row.adjustedUnits
    lastAdjustedPrice := row.lastAdjustedPrice
    remainingAcquisitionCost := row.remainingAcquisitionCost
    holdingCycleStartedSession := row.holdingCycleStartedSession
    holdingAge := row.holdingAge
    lastCloseAdjustedPrice := some row.lastCloseAdjustedPrice }⟩

def restorePositions (rows : List PositionRow) : Positions :=
  OrderedMap.ofRows (rows.map restorePosition)

/-- The account and decision state that an execution resumes from its last daily row. -/
def restoreState (rows : List PositionRow) (last : DailyObservation F)
    (pendingTarget : Option PendingTarget) (decisionState : Option S) : StrategyState F S where
  account :=
    { positions := restorePositions rows
      grossCash := last.grossCash
      netCash := last.netCash
      cumulativeCost := last.cumulativeTransactionCost }
  lastDaily := some last
  pendingTarget := pendingTarget
  decisionState := decisionState

def initialState (sim : Simulation F S E) : StrategyState F S where
  account :=
    { positions := ∅
      grossCash := sim.initialCash
      netCash := sim.initialCash
      cumulativeCost := 0 }
  lastDaily := none
  pendingTarget := none
  decisionState := none

/-! ### Session loop -/

/-- `calendar[index - 1]`; index `-1` is the last entry. -/
def signalSession (calendar : List Session) (globalIndex : ℕ) : Option Session :=
  if globalIndex = 0 then calendar.getLast? else calendar[globalIndex - 1]?

def runSessions (sim : Simulation F S E) (calendar : List Session) (originIndex : ℤ) :
    List Session → StrategyState F S →
      Except StrategyError (StrategyState F S × List (SessionRecord F E))
  | [], state => return (state, [])
  | session :: rest, state => do
    let globalIndex := calendar.idxOf session
    let (next, record) ← runSession sim (signalSession calendar globalIndex)
      (globalIndex - originIndex) state session
    let (last, records) ← runSessions sim calendar originIndex rest next
    return (last, record :: records)

/-- Where an execution starts in its calendar, and from which state. -/
structure Start (F S : Type) where
  processingStart : ℕ
  originIndex : ℤ
  state : StrategyState F S
  metricState : Option (StrategyMetricState F)

def startExecution (sim : Simulation F S E) (calendar : List Session) (originSession : Session)
    (continuation : Option (Continuation F S)) : Except StrategyError (Start F S) :=
  match continuation with
  | none => do
    require (originSession ∈ calendar) StrategyError.sessionNotInCalendar
    let originIndex := calendar.idxOf originSession
    return ⟨originIndex, originIndex, initialState sim, none⟩
  | some prior => do
    let last ← found prior.daily.getLast? StrategyError.noHistory
    require (last.session ∈ calendar) StrategyError.sessionNotInCalendar
    let processingStart := calendar.idxOf last.session + 1
    require (prior.daily.length ≤ prior.reportSessionCount)
      StrategyError.invalidReportSessionCount
    require (prior.metricState.initialCash = sim.initialCash) StrategyError.initialCashDiffers
    return {
      processingStart := processingStart
      originIndex := processingStart - prior.reportSessionCount
      state := restoreState prior.positions last prior.pendingTarget prior.decisionState
      metricState := some prior.metricState }

def DailyObservation.metricRow (row : DailyObservation F) : DailyRow F where
  session := row.session
  grossNav := row.grossNav
  netNav := row.netNav
  rebalance := row.rebalance
  holdingsCount := row.holdingsCount
  maximumSingleNameWeight := row.maximumSingleNameWeight
  cashRatio := row.cashRatio

def SessionRecord.turnoverEvents (record : SessionRecord F E) : List (TurnoverEvent F) :=
  match record.turnover with
  | some value => [⟨record.daily.session, value⟩]
  | none => []

/-- The batch that the new sessions of an execution feed to the metric state. -/
def metricBatch (records : List (SessionRecord F E)) (cumulativeCost : ℚ) : MetricBatch F where
  daily := records.map fun record => record.daily.metricRow
  turnoverEvents := records.flatMap SessionRecord.turnoverEvents
  cumulativeCost := cumulativeCost
  rejections := records.flatMap fun record => record.journal.rejections.map RejectionEvent.reason

structure Execution (F S E : Type) where
  state : StrategyState F S
  positions : List PositionRow
  records : List (SessionRecord F E)
  metricState : StrategyMetricState F

def advanceMetrics (B : Binary64 F) (prior : Option (StrategyMetricState F)) (initialCash : ℚ)
    (batch : MetricBatch F) : Except StrategyError (StrategyMetricState F) :=
  (advanceStrategyMetricState B prior initialCash batch).mapError .metrics

/-- `run_strategy_with_metric_state`. -/
def executeStrategy (sim : Simulation F S E) (calendar : List Session) (originSession : Session)
    (continuation : Option (Continuation F S)) : Except StrategyError (Execution F S E) := do
  let start ← startExecution sim calendar originSession continuation
  let (state, records) ← runSessions sim calendar start.originIndex
    (calendar.drop start.processingStart) start.state
  let positions ← positionPayload state.account.positions
  let metricState ← advanceMetrics sim.floats start.metricState sim.initialCash
    (metricBatch records state.account.cumulativeCost)
  return ⟨state, positions, records, metricState⟩

/-! ### Chunks -/

/-- A row of the published daily Strategy table. -/
structure StrategyObservation (F : Type) where
  session : Session
  grossNav : ℚ
  netNav : ℚ
  closeRiskNav : ℚ
  netCash : ℚ
  transactionCost : ℚ
  holdingsCount : ℕ
  maximumSingleNameWeight : F
  rejections : RejectionCounts

def strategyObservations (R : Rounding) (rejections : List RejectionEvent) :
    ℚ → List (DailyObservation F) → List (StrategyObservation F)
  | _, [] => []
  | priorCost, row :: rest =>
    { session := row.session
      grossNav := row.grossNav
      netNav := row.netNav
      closeRiskNav := row.closeRiskNav
      netCash := row.netCash
      transactionCost := R.ambient (row.cumulativeTransactionCost - priorCost)
      holdingsCount := row.holdingsCount
      maximumSingleNameWeight := row.maximumSingleNameWeight
      rejections := countRejections
        ((rejections.filter fun event => event.session = row.session).map RejectionEvent.reason) }
      :: strategyObservations R rejections row.cumulativeTransactionCost rest

/-- What the strategy part of a chunk continuation carries. -/
structure ChunkState (F S D : Type) where
  strategyState : Option (Continuation F S)
  strategyChecksum : Option D
  completedSessions : ℕ

structure ChunkOutcome (F S E D : Type) where
  continuation : ChunkState F S D
  observations : List (StrategyObservation F)
  records : List (SessionRecord F E)

/-- The bounded continuation of an execution: its last daily row only. -/
def Execution.continuation (execution : Execution F S E) (completedSessions : ℕ) :
    Continuation F S where
  daily := execution.state.lastDaily.toList
  positions := execution.positions
  reportSessionCount := completedSessions
  decisionState := execution.state.decisionState
  pendingTarget := execution.state.pendingTarget
  metricState := execution.metricState

/-- `calendar[context_start : calendar.index(research_sessions[-1]) + 1]`. -/
def contextSessions (calendar : List Session) (contextCount : ℕ) (first last : Session) :
    List Session :=
  (calendar.take (calendar.idxOf last + 1)).drop (calendar.idxOf first - contextCount)

/-- What is fixed over the chunks of a Run. -/
structure ChunkPlan (F S E D : Type) where
  simulation : Simulation F S E
  calendar : List Session
  originSession : Session
  effectiveLookback : ℕ
  advanceChecksum : Option D → StrategyObservation F → D

/-- `context_session_count`: sessions before a chunk that its data slice also resolves. -/
def ChunkPlan.contextCount (plan : ChunkPlan F S E D) : ℕ :=
  max plan.effectiveLookback (max 21 2)

/-- A prior continuation holds exactly one daily row. -/
def priorCost (state : ChunkState F S D) : Except StrategyError ℚ :=
  match state.strategyState with
  | none => .ok 0
  | some prior =>
    match prior.daily with
    | [row] => .ok row.cumulativeTransactionCost
    | _ => .error .noHistory

def executeChunk (plan : ChunkPlan F S E D) (state : ChunkState F S D) (sessions : List Session) :
    Except StrategyError (ChunkOutcome F S E D) := do
  let first ← found sessions.head? StrategyError.noHistory
  let last ← found sessions.getLast? StrategyError.noHistory
  let cost ← priorCost state
  let execution ← executeStrategy plan.simulation
    (contextSessions plan.calendar plan.contextCount first last) plan.originSession
    state.strategyState
  let rejections := execution.records.flatMap fun record => record.journal.rejections
  let observations := strategyObservations plan.simulation.rounding rejections cost
    (execution.records.map SessionRecord.daily)
  let completed := state.completedSessions + sessions.length
  return {
    continuation :=
      { strategyState := some (execution.continuation completed)
        strategyChecksum := observations.foldl
          (fun checksum row => some (plan.advanceChecksum checksum row)) state.strategyChecksum
        completedSessions := completed }
    observations := observations
    records := execution.records }

/-- The chunks of a Run, one after another, with everything they published. -/
def executeChunks (plan : ChunkPlan F S E D) :
    List (List Session) → ChunkState F S D → Except StrategyError (ChunkOutcome F S E D)
  | [], state => return ⟨state, [], []⟩
  | sessions :: rest, state => do
    let outcome ← executeChunk plan state sessions
    let later ← executeChunks plan rest outcome.continuation
    return {
      continuation := later.continuation
      observations := outcome.observations ++ later.observations
      records := outcome.records ++ later.records }

/-! ### Reachable states -/

/-- A session that executes a pending target. -/
structure SessionFrame where
  reportIndex : ℤ
  opened : OpenedSession
  terms : TargetTerms

/-- Where the simulator stands: between sessions, before one more order of a target, or before
the Close. `state` is the state before the session. -/
inductive Phase (F S E : Type)
  | between (state : StrategyState F S)
  | selling (state : StrategyState F S) (frame : SessionFrame) (rest : List InstrumentId)
      (trading : Trading E)
  | buying (state : StrategyState F S) (frame : SessionFrame) (events : List ValuationEvent)
      (rest : List InstrumentId) (buying : Buying E)
  | traded (state : StrategyState F S) (session : Session) (reportIndex : ℤ)
      (opened : OpenedSession) (traded : TradedSession F E)

def Phase.account : Phase F S E → Account
  | .between state => state.account
  | .selling _ _ _ trading => trading.account
  | .buying _ _ _ _ loop => loop.trading.account
  | .traded _ _ _ _ outcome => outcome.trading.account

/-- The events of the current session so far. -/
def Phase.journal : Phase F S E → Journal E
  | .between _ => {}
  | .selling _ _ _ trading => trading.journal
  | .buying _ _ _ _ loop => loop.trading.journal
  | .traded _ _ _ _ outcome => outcome.trading.journal

inductive SimulatorLabel
  | openIdle (session : Session)
  | openTarget (session : Session)
  | sell (id : InstrumentId)
  | turnToBuys
  | buy (id : InstrumentId)
  | settle
  | close
  | restore
  deriving DecidableEq, Repr

/-- One move of the simulator. A session opens, executes its target order by order and closes;
between sessions an execution may be restored from its continuation. -/
inductive Move (sim : Simulation F S E) : Phase F S E → SimulatorLabel → Phase F S E → Prop
  | openIdle {state : StrategyState F S} {session : Session} {reportIndex : ℤ}
      {opened : OpenedSession}
      (hpending : state.pendingTarget = none)
      (hopen : openSession sim.rounding sim.data session state.account = .ok opened) :
      Move sim (.between state) (.openIdle session)
        (.traded state session reportIndex opened opened.untraded)
  | openTarget {state : StrategyState F S} {session : Session} {reportIndex : ℤ}
      {opened : OpenedSession} {target : PendingTarget} {sizing : Sizing}
      (hpending : state.pendingTarget = some target)
      (hcheck : checkTarget sim.data state.account.positions target = .ok ())
      (hopen : openSession sim.rounding sim.data session state.account = .ok opened)
      (hreport : 0 < reportIndex)
      (hsizing : sizeTarget sim.rounding target opened.account.positions opened.marks
        opened.preNetNav = .ok sizing) :
      Move sim (.between state) (.openTarget session)
        (.selling state ⟨reportIndex, opened, ⟨sim.data, sim.costs, session, target, sizing⟩⟩
          (OrderedMap.sorted opened.account.positions).keys
          ⟨opened.account, emptyTargetDiagnostics session target⟩)
  | sell {state : StrategyState F S} {frame : SessionFrame} {id : InstrumentId}
      {rest : List InstrumentId} {trading next : Trading E}
      (hstep : sellStep sim.rounding frame.terms frame.opened.marks trading id = .ok next) :
      Move sim (.selling state frame (id :: rest) trading) (.sell id)
        (.selling state frame rest next)
  | turnToBuys {state : StrategyState F S} {frame : SessionFrame} {trading : Trading E}
      {start : Buying E} {events : List ValuationEvent}
      (hremark : remarkForBuys sim.rounding frame.terms trading = .ok (start, events)) :
      Move sim (.selling state frame [] trading) .turnToBuys
        (.buying state frame events frame.terms.sizing.buyCandidates start)
  | buy {state : StrategyState F S} {frame : SessionFrame} {events : List ValuationEvent}
      {id : InstrumentId} {rest : List InstrumentId} {buying next : Buying E}
      (hstep : buyStep sim.rounding frame.terms buying id = .ok next) :
      Move sim (.buying state frame events (id :: rest) buying) (.buy id)
        (.buying state frame events rest next)
  | settle {state : StrategyState F S} {frame : SessionFrame} {events : List ValuationEvent}
      {buying : Buying E} {traded : TradedSession F E}
      (hsettle : settleTarget sim.rounding sim.floats frame.terms.data frame.terms.session
        frame.opened events buying.trading = .ok traded) :
      Move sim (.buying state frame events [] buying) .settle
        (.traded state frame.terms.session frame.reportIndex frame.opened traded)
  | close {state next : StrategyState F S} {session : Session} {reportIndex : ℤ}
      {opened : OpenedSession} {traded : TradedSession F E} {record : SessionRecord F E}
      (hclose : closeSession sim session reportIndex opened traded state = .ok (next, record)) :
      Move sim (.traded state session reportIndex opened traded) .close (.between next)
  | restore {state : StrategyState F S} {last : DailyObservation F} {rows : List PositionRow}
      (hlast : state.lastDaily = some last)
      (hrows : positionPayload state.account.positions = .ok rows) :
      Move sim (.between state) .restore
        (.between (restoreState rows last state.pendingTarget state.decisionState))

end ThesisTrace.Strategy
