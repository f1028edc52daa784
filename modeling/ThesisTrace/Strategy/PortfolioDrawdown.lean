import ThesisTrace.Library.DecimalText
import ThesisTrace.Strategy.RiskManagement

/-!
# Portfolio drawdown

The drawdown policy watches the risk NAV of every Close. It remembers the peak of the current
risk cycle; a deep enough fall below the peak caps the stock exposure, and the cap is released
only by a proposal that arrives after the cooldown, which starts the next cycle.
-/

namespace ThesisTrace.Risk
open Strategy DecimalText DecimalContext

/-! ### Policy and state -/

structure PortfolioDrawdownPolicy where
  drawdownThreshold : ℚ
  maximumStockExposure : ℚ
  cooldownSessions : ℕ
  threshold_pos : 0 < drawdownThreshold
  threshold_le_one : drawdownThreshold ≤ 1
  exposure_nonneg : 0 ≤ maximumStockExposure
  exposure_le_one : maximumStockExposure ≤ 1
  cooldown_pos : 1 ≤ cooldownSessions

structure PortfolioDrawdownState where
  cycleStartedSession : Session
  peakCloseNavCny : String
  triggeredSession : Option Session
  triggeredSessionNumber : Option ℤ
  deriving DecidableEq, Repr

/-- `PortfolioDrawdownState.model_validate`. -/
def PortfolioDrawdownState.modelValidate (state : PortfolioDrawdownState) : Except String Unit :=
  if 128 < state.peakCloseNavCny.length then
    .error "peak_close_nav_cny: String should have at most 128 characters"
  else if ∃ number ∈ state.triggeredSessionNumber, number < 1 then
    .error "triggered_session_number: Input should be greater than or equal to 1"
  else
    match readDecimal state.peakCloseNavCny with
    | none => .error "Invalid drawdown risk cycle"
    | some peak =>
      if peak < 0 ∨ canonicalDecimal peak ≠ state.peakCloseNavCny
          ∨ state.triggeredSession.isNone ≠ state.triggeredSessionNumber.isNone
          ∨ ∃ triggered ∈ state.triggeredSession, triggered < state.cycleStartedSession then
        .error "Invalid drawdown risk cycle"
      else .ok ()

/-- `Decimal(self.peak_close_nav_cny)` of a validated state. -/
def PortfolioDrawdownState.peak (state : PortfolioDrawdownState) : ℚ :=
  (readDecimal state.peakCloseNavCny).getD 0

def PortfolioDrawdownState.validateBoundary (state : PortfolioDrawdownState) (session : Session)
    (completedSessions : ℤ) (closeNav : ℚ) : Except String Unit :=
  if session < state.cycleStartedSession ∨ state.peak < closeNav
      ∨ (∃ triggered ∈ state.triggeredSession, session < triggered)
      ∨ ∃ number ∈ state.triggeredSessionNumber, completedSessions < number then
    .error "Drawdown risk cycle exceeds its checkpoint boundary"
  else .ok ()

/-! ### Decision -/

inductive DrawdownStatus
  | observing
  | thresholdReached
  | cooldown
  | awaitingNewPortfolio
  | newPortfolioRecovery
  deriving DecidableEq, Repr

structure DrawdownObservation where
  status : DrawdownStatus
  cycleStartedSession : Session
  peakCloseNavCny : String
  closeRiskNavCny : String
  drawdown : String
  drawdownThreshold : ℚ
  maximumStockExposure : Option ℚ
  cooldownSessions : ℕ
  completedCooldownSessions : ℤ
  triggeredSession : Option Session
  deriving DecidableEq, Repr

structure DrawdownDecision where
  state : PortfolioDrawdownState
  cap : Option ℚ
  observation : DrawdownObservation
  cap_nonneg : ∀ exposure ∈ cap, 0 ≤ exposure

/-- The state of a cycle that begins now. -/
def freshCycle (session : Session) (current : ℚ) : PortfolioDrawdownState where
  cycleStartedSession := session
  peakCloseNavCny := canonicalDecimal current
  triggeredSession := none
  triggeredSessionNumber := none

/-- `1 - current / peak` in the accounting context. -/
def drawdownOf (R : Rounding) (current peak : ℚ) : ℚ :=
  if 0 < peak then R.accounting (1 - R.accounting (current / peak)) else 0

/-- The end of `portfolio_drawdown_decision`: store the peak, derive the cap, observe. -/
def closeDecision (policy : PortfolioDrawdownPolicy) (current : ℚ) (state : PortfolioDrawdownState)
    (peak drawdown : ℚ) (status : DrawdownStatus) (elapsed : ℤ) : DrawdownDecision :=
  let cap := state.triggeredSessionNumber.map fun _ => policy.maximumStockExposure
  { state := { state with peakCloseNavCny := canonicalDecimal peak }
    cap := cap
    observation :=
      { status := status
        cycleStartedSession := state.cycleStartedSession
        peakCloseNavCny := canonicalDecimal peak
        closeRiskNavCny := canonicalDecimal current
        drawdown := canonicalDecimal drawdown
        drawdownThreshold := policy.drawdownThreshold
        maximumStockExposure := cap
        cooldownSessions := policy.cooldownSessions
        completedCooldownSessions := elapsed
        triggeredSession := state.triggeredSession }
    cap_nonneg := fun exposure hexposure => by
      obtain ⟨_, _, rfl⟩ := Option.map_eq_some_iff.mp hexposure
      exact policy.exposure_nonneg }

/-- What the decision does from a validated state. -/
def advanceCycle (R : Rounding) (policy : PortfolioDrawdownPolicy) (current : ℚ)
    (session : Session) (sessionNumber : ℤ) (newProposal : Bool)
    (state : PortfolioDrawdownState) : DrawdownDecision :=
  let peak := max state.peak current
  match state.triggeredSessionNumber with
  | some number =>
    let elapsed := sessionNumber - number
    if policy.cooldownSessions ≤ elapsed ∧ newProposal = true then
      closeDecision policy current (freshCycle session current) current 0 .newPortfolioRecovery
        elapsed
    else
      closeDecision policy current state peak (drawdownOf R current peak)
        (if policy.cooldownSessions ≤ elapsed then .awaitingNewPortfolio else .cooldown) elapsed
  | none =>
    if policy.drawdownThreshold ≤ drawdownOf R current peak then
      closeDecision policy current
        { state with
          triggeredSession := some session
          triggeredSessionNumber := some sessionNumber }
        peak (drawdownOf R current peak) .thresholdReached 0
    else closeDecision policy current state peak (drawdownOf R current peak) .observing 0

def portfolioDrawdownDecision (R : Rounding) (policy : PortfolioDrawdownPolicy) (nav : ℚ)
    (session : Session) (sessionNumber : ℤ) (newProposal : Bool)
    (previous : Option PortfolioDrawdownState) : Except String DrawdownDecision :=
  if nav < 0 then .error "Close Risk NAV must be finite and nonnegative"
  else
    match previous with
    | none =>
      .ok (advanceCycle R policy nav session sessionNumber newProposal (freshCycle session nav))
    | some state =>
      state.modelValidate.map fun _ =>
        advanceCycle R policy nav session sessionNumber newProposal state

/-! ### Closes -/

/-- What the drawdown policy is shown: at the Close of each report session the risk NAV, a
number of the accounting context, the proposal, and the limits of the other risk policies with
the reasons they report. -/
structure RiskCloses where
  session : ℕ → Session
  nav : ℕ → ℚ
  proposal : ℕ → Option PendingTarget
  riskLimits : ℕ → PositionLimits
  reasons : ℕ → List String
  session_strictMono : StrictMono session
  nav_nonneg : ∀ n, 0 ≤ nav n
  nav_inContext : ∀ n, InContext 34 6176 (nav n)

/-- The decision of a Close and the target that goes to the simulator. -/
structure RiskClose where
  decision : DrawdownDecision
  target : Option PendingTarget

/-- Every Close reports the drawdown observation after those of the other policies. -/
def riskClose (R : Rounding) (policy : PortfolioDrawdownPolicy) (closes : RiskCloses) (n : ℕ)
    (previous : Option PortfolioDrawdownState) : Except String RiskClose :=
  (portfolioDrawdownDecision R policy (closes.nav n) (closes.session n) (n + 1)
    (closes.proposal n).isSome previous).map fun decision =>
      { decision := decision
        target := riskTarget (closes.session n) (closes.proposal n) (closes.riskLimits n)
          decision.cap decision.cap_nonneg (closes.reasons n ++ ["portfolio_drawdown"]) }

/-- The Close of report index `n`, each Close reading the state of the one before. -/
def riskRun (R : Rounding) (policy : PortfolioDrawdownPolicy) (closes : RiskCloses) :
    ℕ → Except String RiskClose
  | 0 => riskClose R policy closes 0 none
  | n + 1 =>
    (riskRun R policy closes n).bind fun before =>
      riskClose R policy closes (n + 1) (some before.decision.state)

/-! ### The cycle behind the state -/

/-- A risk cycle: the Close that began it, and the Close that triggered the cap. -/
structure RiskCycle where
  start : ℕ
  trigger : Option ℕ
  deriving DecidableEq, Repr

/-- The highest NAV of the Closes from `start` to `n`. -/
def peakSince (nav : ℕ → ℚ) (start : ℕ) : ℕ → ℚ
  | 0 => nav 0
  | n + 1 => if n + 1 ≤ start then nav (n + 1) else max (peakSince nav start n) (nav (n + 1))

/-- What a Close does to a cycle. -/
def nextCycle (R : Rounding) (policy : PortfolioDrawdownPolicy) (closes : RiskCloses) (n : ℕ)
    (cycle : RiskCycle) : RiskCycle :=
  match cycle.trigger with
  | some t =>
    if policy.cooldownSessions ≤ n - t ∧ (closes.proposal n).isSome = true then ⟨n, none⟩
    else cycle
  | none =>
    if policy.drawdownThreshold ≤
        drawdownOf R (closes.nav n) (peakSince closes.nav cycle.start n) then
      { cycle with trigger := some n }
    else cycle

def cycleAt (R : Rounding) (policy : PortfolioDrawdownPolicy) (closes : RiskCloses) :
    ℕ → RiskCycle
  | 0 => nextCycle R policy closes 0 ⟨0, none⟩
  | n + 1 => nextCycle R policy closes (n + 1) (cycleAt R policy closes n)

end ThesisTrace.Risk
