import ThesisTrace.Strategy.Execution

/-!
# Advances of a Track

A Track continues a Run from its terminal account boundary. Every Advance restores the boundary of
its predecessor with one daily row, executes the sessions of its target, and commits a checkpoint
with the observations of these sessions and the next boundary.
-/

namespace ThesisTrace.DailyTrack.Advances
open Strategy Transaction LabelledTransition

variable {F S E : Type}

/-! ### Boundaries -/

/-- `TerminalStrategyStateValue` -/
structure TerminalStrategyState (F S : Type) where
  session : Strategy.Session
  grossCash : ℚ
  netCash : ℚ
  grossNav : ℚ
  netNav : ℚ
  closeRiskNav : ℚ
  cumulativeTransactionCost : ℚ
  positions : List PositionRow
  reportSessionCount : ℕ
  decisionState : Option S
  pendingTarget : Option PendingTarget
  lastDailyObservation : DailyObservation F
  metricState : StrategyMetricState F
  /-- Terminal continuation sessions match. -/
  last_session : lastDailyObservation.session = session

/-- The boundary that a daily row closes. -/
def terminalState (terminal : DailyObservation F) (positions : List PositionRow)
    (reportSessionCount : ℕ) (decisionState : Option S) (pendingTarget : Option PendingTarget)
    (metricState : StrategyMetricState F) : TerminalStrategyState F S where
  session := terminal.session
  grossCash := terminal.grossCash
  netCash := terminal.netCash
  grossNav := terminal.grossNav
  netNav := terminal.netNav
  closeRiskNav := terminal.closeRiskNav
  cumulativeTransactionCost := terminal.cumulativeTransactionCost
  positions := positions
  reportSessionCount := reportSessionCount
  decisionState := decisionState
  pendingTarget := pendingTarget
  lastDailyObservation := terminal
  metricState := metricState
  last_session := rfl

/-- The boundary that the last execution of a Run publishes. -/
def runTerminal (execution : Execution F S E) (completed : ℕ) :
    Option (TerminalStrategyState F S) :=
  execution.state.lastDaily.map fun row =>
    terminalState row execution.positions completed execution.state.decisionState
      execution.state.pendingTarget execution.metricState

/-! ### Kernel states -/

inductive TrackingError
  | calendar
  | target
  | boundary
  | noNewSession
  | sessions
  | retainedDelta
  | noHistory
  | strategy (error : StrategyError)
  deriving DecidableEq, Repr

/-- The Strategy part of `KernelState`, with the sessions of its research data. -/
structure KernelState (F S : Type) where
  calendar : List Strategy.Session
  daily : List (DailyObservation F)
  rejections : List RejectionEvent
  strategyResume : Continuation F S

structure TrackingCheckpoint (F S : Type) where
  boundarySession : Strategy.Session
  retainedDelta : List (StrategyObservation F)
  terminal : TerminalStrategyState F S

/-- The continuation with one daily row that a boundary resumes from. -/
def TerminalStrategyState.resume (terminal : TerminalStrategyState F S) : Continuation F S where
  daily := [terminal.lastDailyObservation]
  positions := terminal.positions
  reportSessionCount := terminal.reportSessionCount
  decisionState := terminal.decisionState
  pendingTarget := terminal.pendingTarget
  metricState := terminal.metricState

/-- `restore_tracking_origin` -/
def restoreTrackingOrigin (terminal : TerminalStrategyState F S)
    (calendar : List Strategy.Session) : KernelState F S where
  calendar := calendar
  daily := [terminal.lastDailyObservation]
  rejections := []
  strategyResume := terminal.resume

/-- `restore_tracking_checkpoint` -/
def restoreTrackingCheckpoint (checkpoint : TrackingCheckpoint F S)
    (calendar : List Strategy.Session) : Except TrackingError (KernelState F S) := do
  require (calendar.getLast? = some checkpoint.boundarySession) .boundary
  return {
    calendar := calendar
    daily := [checkpoint.terminal.lastDailyObservation]
    rejections := []
    strategyResume := checkpoint.terminal.resume }

/-- `_accept_target_research_data`, as far as it checks sessions -/
def acceptTargetResearchData (prior target appended : List Strategy.Session) :
    Except TrackingError Unit := do
  require (appended ≠ []) .noNewSession
  require (appended.Pairwise (· < ·) ∧ target.take prior.length = prior ∧
    target.drop prior.length = appended) .sessions

/-- `advance_tracking`: the rows of the new sessions come after those that were resumed. -/
def advanceTracking (sim : Simulation F S E) (originSession : Strategy.Session)
    (prior : KernelState F S) (target appended : List Strategy.Session) :
    Except TrackingError (KernelState F S) := do
  acceptTargetResearchData prior.calendar target appended
  let execution ← (executeStrategy sim target originSession
    (some prior.strategyResume)).mapError .strategy
  let daily := prior.strategyResume.daily ++ execution.records.map SessionRecord.daily
  return {
    calendar := target
    daily := daily
    rejections := execution.records.flatMap fun record => record.journal.rejections
    strategyResume :=
      { daily := daily
        positions := execution.positions
        reportSessionCount := daily.length
        decisionState := execution.state.decisionState
        pendingTarget := execution.state.pendingTarget
        metricState := execution.metricState } }

/-- `_minimal_strategy_observations`: a row that is not retained is still the one before the
next, and the first row has none before it. -/
def minimalStrategyObservations (R : Rounding) (rejections : List RejectionEvent)
    (retained : List Strategy.Session) (daily : List (DailyObservation F)) :
    List (StrategyObservation F) :=
  (strategyObservations R rejections 0 daily).filter fun row => row.session ∈ retained

/-- `project_tracking_checkpoint` -/
def projectTrackingCheckpoint (R : Rounding) (state : KernelState F S)
    (retained : List Strategy.Session) : Except TrackingError (TrackingCheckpoint F S) := do
  let retainedDelta := minimalStrategyObservations R state.rejections retained state.daily
  require (retainedDelta.map StrategyObservation.session = retained) .retainedDelta
  let terminal ← found state.daily.getLast? .noHistory
  let boundarySession ← found state.calendar.getLast? .calendar
  let resume := state.strategyResume
  let observed ← found resume.metricState.observed .noHistory
  return {
    boundarySession := boundarySession
    retainedDelta := retainedDelta
    terminal := terminalState terminal resume.positions observed.sessionCount resume.decisionState
      resume.pendingTarget resume.metricState }

/-! ### Targets -/

inductive Predecessor (F S : Type)
  | activation (terminal : TerminalStrategyState F S)
  | checkpoint (checkpoint : TrackingCheckpoint F S)

def Predecessor.boundarySession : Predecessor F S → Strategy.Session
  | .activation terminal => terminal.session
  | .checkpoint published => published.boundarySession

def Predecessor.terminal : Predecessor F S → TerminalStrategyState F S
  | .activation terminal => terminal
  | .checkpoint published => published.terminal

def Predecessor.restore (calendar : List Strategy.Session) :
    Predecessor F S → Except TrackingError (KernelState F S)
  | .activation terminal => .ok (restoreTrackingOrigin terminal calendar)
  | .checkpoint published => restoreTrackingCheckpoint published calendar

/-- A claimed target on one Data Generation. -/
structure TrackingTarget (F S E : Type) where
  simulation : Simulation F S E
  originSession : Strategy.Session
  /-- The calendar of the Generation is ordered. -/
  calendar : List Strategy.Session
  calendar_sorted : calendar.Pairwise (· < ·)
  calculationStart : ℕ
  effectiveLookback : ℕ
  sessions : List Strategy.Session

/-- The sessions that the calculation depends on. -/
def TrackingTarget.dependencySessions (target : TrackingTarget F S E) (currentIndex last : ℕ) :
    List Strategy.Session :=
  (target.calendar.take (last + 1)).drop
    (max target.calculationStart (currentIndex + 1 - max target.effectiveLookback 21))

/-- `execute_tracking_target` -/
def executeTrackingTarget (target : TrackingTarget F S E) (predecessor : Predecessor F S) :
    Except TrackingError (TrackingCheckpoint F S) := do
  let last ← found target.sessions.getLast? .target
  let currentSession := predecessor.boundarySession
  require (currentSession ∈ target.calendar ∧ last ∈ target.calendar) .calendar
  let currentIndex := target.calendar.idxOf currentSession
  let targetEndIndex := target.calendar.idxOf last
  require ((target.calendar.take (targetEndIndex + 1)).drop (currentIndex + 1) = target.sessions)
    .target
  let calendar := target.dependencySessions currentIndex targetEndIndex
  require (currentSession ∈ calendar) .calendar
  let prior ← predecessor.restore (calendar.take (calendar.idxOf currentSession + 1))
  let state ← advanceTracking target.simulation target.originSession prior calendar target.sessions
  require (state.calendar.getLast? = some last) .boundary
  projectTrackingCheckpoint target.simulation.rounding state target.sessions

/-! ### Tracks -/

/-- A Track with its current predecessor and its checkpoints in the order of their commits. -/
structure Track (F S : Type) where
  predecessor : Predecessor F S
  checkpoints : List (TrackingCheckpoint F S)

def Track.activated (terminal : TerminalStrategyState F S) : Track F S :=
  ⟨.activation terminal, []⟩

def Track.retained (track : Track F S) : List (StrategyObservation F) :=
  track.checkpoints.flatMap TrackingCheckpoint.retainedDelta

/-- An Advance that commits. -/
def Track.advance (track : Track F S) (target : TrackingTarget F S E) :
    Except TrackingError (Track F S) := do
  let checkpoint ← executeTrackingTarget target track.predecessor
  return ⟨.checkpoint checkpoint, track.checkpoints ++ [checkpoint]⟩

def Commits (track : Track F S) (target : TrackingTarget F S E) (next : Track F S) : Prop :=
  track.advance target = .ok next

end ThesisTrace.DailyTrack.Advances
