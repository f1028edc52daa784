import Mathlib.Algebra.Order.Group.Unbundled.Int
import Mathlib.Tactic.Linarith
import ThesisTrace.Library.Transaction

/-!
# Capacity of a Research Run

`plan_session_capacity` inverts the memory estimate of a chunk of sessions: the number of sessions
that it answers is the largest one, up to the given maximum, whose estimate fits the memory.
-/

namespace ThesisTrace.ResearchRun.Planning
open Transaction

/-! ### Limits -/

def defaultMaxChunkSessions : ℤ := 128
def chunkTimeTargetSeconds : ℤ := 30
def chunkTimeTargetWork : ℤ := 15000000
def fixedExecutionOverheadBytes : ℤ := 64 * 1024 ^ 2
def historyProjectionCacheBytes : ℤ := 32 * 1024 ^ 2
def binary64Bytes : ℤ := 8
def liveCalculationColumns : ℤ := 32
def continuationColumns : ℤ := 16
def liveBufferMultiplier : ℤ := 3
def maxLabelHorizon : ℤ := 20
def workPerSecond : ℤ := chunkTimeTargetWork / chunkTimeTargetSeconds
def otherStrategyRecordsPerSession : ℤ := 8
def frameworkStateBytes : ℤ := 3 * 1024 * 1024
def stateBytes : ℤ := 256 * 1024
def maxEventRecordBytes : ℤ := 24 * 1024
def maxTargetRecordBytes : ℤ := 2 * 1024 * 1024
def maxFrameworkRecordBytes : ℤ := 4 * 1024 * 1024
def memoryBytes : ℤ := 128 * 1024 * 1024
def inputBytes : ℤ := 4 * 1024 * 1024
def outputBytes : ℤ := 16 * 1024 * 1024
def historyCells : ℤ := 262144
def historyRequests : ℤ := 64
def wallSeconds : ℤ := 3
def bootstrapWallSeconds : ℤ := 10

/-! ### Workloads -/

inductive DecisionMode where
  | factorEvaluation
  | framework
  | direct
deriving DecidableEq, Repr

/-- The shape of a calculation, as the plan and the estimate are told of it. -/
structure Workload where
  formulaWork : ℤ
  nodeCount : ℤ
  fieldCount : ℤ
  maximumUniverseCardinality : ℤ
  effectiveLookback : ℤ
  executionMemoryBytes : ℤ
  additionalLiveColumns : ℤ
  decisionMode : DecisionMode
  pythonProgramCount : ℤ

inductive CapacityError where
  /-- "Research Chunk maximum must be a positive integer" -/
  | maximum
  /-- "Research Chunk session count is invalid" -/
  | sessionCount
  /-- "Research decision capacity facts are invalid" -/
  | decision
  /-- "Research capacity facts are invalid" -/
  | facts
  /-- "Python program work facts are invalid" -/
  | programWork
  /-- "Worker capacity cannot fit one complete full-Universe Research Session" -/
  | session
deriving DecidableEq, Repr

def validateDecisionCapacity (mode : DecisionMode) (programs : ℤ) : Except CapacityError Unit :=
  require (¬(mode = .factorEvaluation ∧ programs ≠ 0 ∨ mode = .direct ∧ programs ≠ 1 ∨
    mode = .framework ∧ ¬(0 ≤ programs ∧ programs ≤ 4))) .decision

def decisionFixedBytes (mode : DecisionMode) (programs : ℤ) : ℤ :=
  if mode = .factorEvaluation then 0
  else
    let state := if mode = .framework then frameworkStateBytes else stateBytes
    let guest :=
      if programs ≠ 0 then memoryBytes + 2 * inputBytes + outputBytes + historyCells * 128 else 0
    state + maxTargetRecordBytes + guest

def decisionSessionBytes (mode : DecisionMode) (programs : ℤ) : ℤ :=
  if mode = .factorEvaluation then 0
  else
    (if mode = .framework then maxFrameworkRecordBytes else 0) + maxTargetRecordBytes +
      (otherStrategyRecordsPerSession + historyRequests * programs) * maxEventRecordBytes

def estimatePythonProgramWork (programCount sessionCount : ℤ) : Except CapacityError ℤ := do
  require (0 ≤ programCount ∧ 1 ≤ sessionCount) .programWork
  pure (programCount * sessionCount * (bootstrapWallSeconds + wallSeconds) * workPerSecond)

def sessionWork (formulaWork cardinality programs : ℤ) : Except CapacityError ℤ := do
  let programWork ← estimatePythonProgramWork programs 1
  pure (cardinality * (formulaWork + liveCalculationColumns) + programWork)

/-- The bytes of the continuation, and of one session. -/
def capacityMemoryComponents (w : Workload) : Except CapacityError (ℤ × ℤ) := do
  require (0 < w.maximumUniverseCardinality ∧ 0 < w.executionMemoryBytes ∧ 0 ≤ w.formulaWork ∧
    0 ≤ w.nodeCount ∧ 0 ≤ w.fieldCount ∧ 0 ≤ w.effectiveLookback ∧
    0 ≤ w.additionalLiveColumns) .facts
  let continuationSessions := max w.effectiveLookback maxLabelHorizon
  pure
    (w.maximumUniverseCardinality * binary64Bytes *
      (w.fieldCount + w.nodeCount + continuationColumns) * continuationSessions,
    w.maximumUniverseCardinality * binary64Bytes *
      (w.fieldCount + w.nodeCount + liveCalculationColumns + w.additionalLiveColumns) *
      liveBufferMultiplier)

/-! ### The plan and the estimate -/

structure SessionCapacityPlan where
  sessionCount : ℤ
  timeTargetExceeded : Bool
  estimatedPeakBytes : ℤ
  estimatedWork : ℤ
deriving DecidableEq, Repr

def planSessionCapacity (w : Workload) (maxChunkSessions : ℤ) :
    Except CapacityError SessionCapacityPlan := do
  require (1 ≤ maxChunkSessions) .maximum
  validateDecisionCapacity w.decisionMode w.pythonProgramCount
  let (continuationBytes, sessionBytes) ← capacityMemoryComponents w
  let fixedBytes := fixedExecutionOverheadBytes + historyProjectionCacheBytes +
    continuationBytes + decisionFixedBytes w.decisionMode w.pythonProgramCount
  let perSessionBytes := sessionBytes + decisionSessionBytes w.decisionMode w.pythonProgramCount
  require (¬w.executionMemoryBytes < fixedBytes + perSessionBytes) .session
  let memorySessionCount :=
    min maxChunkSessions ((w.executionMemoryBytes - fixedBytes) / perSessionBytes)
  let perSessionWork ←
    sessionWork w.formulaWork w.maximumUniverseCardinality w.pythonProgramCount
  let sessionCount := max 1 memorySessionCount
  pure {
    sessionCount := sessionCount
    timeTargetExceeded := chunkTimeTargetWork < perSessionWork * sessionCount
    estimatedPeakBytes := fixedBytes + perSessionBytes * sessionCount
    estimatedWork := perSessionWork * sessionCount }

def estimateSessionPeakBytes (sessionCount : ℤ) (w : Workload) : Except CapacityError ℤ := do
  require (1 ≤ sessionCount) .sessionCount
  validateDecisionCapacity w.decisionMode w.pythonProgramCount
  let (continuationBytes, perSessionBytes) ← capacityMemoryComponents w
  pure (fixedExecutionOverheadBytes + historyProjectionCacheBytes + continuationBytes +
    decisionFixedBytes w.decisionMode w.pythonProgramCount +
    (perSessionBytes + decisionSessionBytes w.decisionMode w.pythonProgramCount) * sessionCount)

/-! ### The estimate is linear in the number of sessions -/

/-- The facts that both functions ask for before they compute. -/
structure Workload.Valid (w : Workload) : Prop where
  decision : validateDecisionCapacity w.decisionMode w.pythonProgramCount = .ok ()
  cardinality : 0 < w.maximumUniverseCardinality
  memory : 0 < w.executionMemoryBytes
  formulaWork : 0 ≤ w.formulaWork
  nodeCount : 0 ≤ w.nodeCount
  fieldCount : 0 ≤ w.fieldCount
  lookback : 0 ≤ w.effectiveLookback
  additionalColumns : 0 ≤ w.additionalLiveColumns

def Workload.continuationBytes (w : Workload) : ℤ :=
  w.maximumUniverseCardinality * binary64Bytes *
    (w.fieldCount + w.nodeCount + continuationColumns) * max w.effectiveLookback maxLabelHorizon

def Workload.liveBytes (w : Workload) : ℤ :=
  w.maximumUniverseCardinality * binary64Bytes *
    (w.fieldCount + w.nodeCount + liveCalculationColumns + w.additionalLiveColumns) *
    liveBufferMultiplier

/-- What a chunk needs apart from its sessions. -/
def Workload.fixedBytes (w : Workload) : ℤ :=
  fixedExecutionOverheadBytes + historyProjectionCacheBytes + w.continuationBytes +
    decisionFixedBytes w.decisionMode w.pythonProgramCount

/-- What each session of a chunk adds. -/
def Workload.perSessionBytes (w : Workload) : ℤ :=
  w.liveBytes + decisionSessionBytes w.decisionMode w.pythonProgramCount

lemma programs_nonneg {mode : DecisionMode} {programs : ℤ}
    (h : validateDecisionCapacity mode programs = .ok ()) : 0 ≤ programs := by
  rw [validateDecisionCapacity, require_ok_iff, not_or, not_or] at h
  obtain ⟨hfactor, hdirect, hframework⟩ := h
  cases mode with
  | factorEvaluation =>
    simp only [true_and, ne_eq, not_not] at hfactor
    omega
  | direct =>
    simp only [true_and, ne_eq, not_not] at hdirect
    omega
  | framework =>
    simp only [true_and, not_not] at hframework
    omega

lemma decisionSessionBytes_nonneg {mode : DecisionMode} {programs : ℤ} (h : 0 ≤ programs) :
    0 ≤ decisionSessionBytes mode programs := by
  simp only [decisionSessionBytes, maxFrameworkRecordBytes, maxTargetRecordBytes,
    otherStrategyRecordsPerSession, historyRequests, maxEventRecordBytes]
  split
  · exact le_refl _
  · split <;> omega

lemma Workload.Valid.perSessionBytes_pos {w : Workload} (h : w.Valid) :
    0 < w.perSessionBytes := by
  have hdecision : 0 ≤ decisionSessionBytes w.decisionMode w.pythonProgramCount :=
    decisionSessionBytes_nonneg (programs_nonneg h.decision)
  have hcolumns : 0 < w.fieldCount + w.nodeCount + liveCalculationColumns +
      w.additionalLiveColumns := by
    have := h.fieldCount
    have := h.nodeCount
    have := h.additionalColumns
    unfold liveCalculationColumns
    omega
  have hbytes : 0 < w.liveBytes := by
    apply Int.mul_pos (Int.mul_pos (Int.mul_pos h.cardinality _) hcolumns)
    · simp [liveBufferMultiplier]
    · simp [binary64Bytes]
  unfold Workload.perSessionBytes
  omega

lemma capacityMemoryComponents_ok_iff {w : Workload} {bytes : ℤ × ℤ}
    (hdecision : validateDecisionCapacity w.decisionMode w.pythonProgramCount = .ok ()) :
    capacityMemoryComponents w = .ok bytes ↔
      w.Valid ∧ bytes = (w.continuationBytes, w.liveBytes) := by
  simp only [capacityMemoryComponents, bind_ok_iff, require_ok_iff, pure_ok_iff]
  constructor
  · rintro ⟨_, ⟨hcardinality, hmemory, hwork, hnodes, hfields, hlookback, hcolumns⟩, rfl⟩
    exact ⟨⟨hdecision, hcardinality, hmemory, hwork, hnodes, hfields, hlookback, hcolumns⟩, rfl⟩
  · rintro ⟨h, rfl⟩
    exact ⟨(), ⟨h.cardinality, h.memory, h.formulaWork, h.nodeCount, h.fieldCount, h.lookback,
      h.additionalColumns⟩, rfl⟩

lemma Workload.Valid.capacityMemoryComponents {w : Workload} (h : w.Valid) :
    capacityMemoryComponents w = .ok (w.continuationBytes, w.liveBytes) :=
  (capacityMemoryComponents_ok_iff h.decision).mpr ⟨h, rfl⟩

lemma sessionWork_ok {formulaWork cardinality programs : ℤ} (h : 0 ≤ programs) :
    sessionWork formulaWork cardinality programs =
      .ok (cardinality * (formulaWork + liveCalculationColumns) +
        programs * 1 * (bootstrapWallSeconds + wallSeconds) * workPerSecond) := by
  simp only [sessionWork, estimatePythonProgramWork, bind_ok_iff, require_ok_iff, pure_ok_iff]
  exact ⟨_, ⟨(), ⟨h, le_refl _⟩, rfl⟩, rfl⟩

/-- The estimate of a chunk. -/
lemma estimateSessionPeakBytes_ok_iff {w : Workload} {count bytes : ℤ} :
    estimateSessionPeakBytes count w = .ok bytes ↔
      1 ≤ count ∧ w.Valid ∧ bytes = w.fixedBytes + w.perSessionBytes * count := by
  simp only [estimateSessionPeakBytes, bind_ok_iff, require_ok_iff, pure_ok_iff]
  constructor
  · rintro ⟨_, hcount, _, hdecision, components, hcomponents, rfl⟩
    obtain ⟨hvalid, rfl⟩ := (capacityMemoryComponents_ok_iff hdecision).mp hcomponents
    exact ⟨hcount, hvalid, rfl⟩
  · rintro ⟨hcount, hvalid, rfl⟩
    exact ⟨(), hcount, (), hvalid.decision, _, hvalid.capacityMemoryComponents, rfl⟩

/-! ### The plan inverts the estimate -/

/-- The session count of a plan: what the memory holds, up to the maximum. -/
def Workload.plannedSessionCount (w : Workload) (maximum : ℤ) : ℤ :=
  max 1 (min maximum ((w.executionMemoryBytes - w.fixedBytes) / w.perSessionBytes))

lemma planSessionCapacity_ok {w : Workload} {maximum : ℤ} {plan : SessionCapacityPlan}
    (h : planSessionCapacity w maximum = .ok plan) :
    1 ≤ maximum ∧ w.Valid ∧ w.fixedBytes + w.perSessionBytes ≤ w.executionMemoryBytes ∧
      plan.sessionCount = w.plannedSessionCount maximum ∧
      plan.estimatedPeakBytes = w.fixedBytes + w.perSessionBytes * plan.sessionCount := by
  simp only [planSessionCapacity, bind_ok_iff, require_ok_iff, pure_ok_iff] at h
  obtain ⟨_, hmax, _, hdecision, components, hcomponents, _, hfits, work, -, rfl⟩ := h
  obtain ⟨hvalid, rfl⟩ := (capacityMemoryComponents_ok_iff hdecision).mp hcomponents
  exact ⟨hmax, hvalid, not_lt.mp hfits, rfl, rfl⟩

/-- The plan is refused for its memory exactly when not even one session fits. -/
lemma planSessionCapacity_session_iff {w : Workload} {maximum : ℤ} :
    planSessionCapacity w maximum = .error .session ↔
      1 ≤ maximum ∧ w.Valid ∧ w.executionMemoryBytes < w.fixedBytes + w.perSessionBytes := by
  constructor
  · intro h
    rcases bind_error h with hmaximum | ⟨_, hmax, h⟩
    · exact absurd (require_error hmaximum).2 (by decide)
    rcases bind_error h with hmode | ⟨_, hdecision, h⟩
    · exact absurd (require_error hmode).2 (by decide)
    rcases bind_error h with hfacts | ⟨components, hcomponents, h⟩
    · rcases bind_error hfacts with hfacts | ⟨_, -, hpure⟩
      · exact absurd (require_error hfacts).2 (by decide)
      · cases hpure
    obtain ⟨hvalid, rfl⟩ := (capacityMemoryComponents_ok_iff hdecision).mp hcomponents
    refine ⟨require_ok_iff.mp hmax, hvalid, ?_⟩
    rcases bind_error h with hfits | ⟨_, -, h⟩
    · exact not_not.mp (require_error hfits).1
    · rw [sessionWork_ok (programs_nonneg hvalid.decision), ok_bind] at h
      cases h
  · rintro ⟨hmax, hvalid, hfits⟩
    have hnot : ¬¬w.executionMemoryBytes < w.fixedBytes + w.perSessionBytes := not_not.mpr hfits
    unfold planSessionCapacity
    rw [require_ok_iff (u := ()).mpr hmax, ok_bind, hvalid.decision, ok_bind,
      hvalid.capacityMemoryComponents, ok_bind]
    change (require (¬w.executionMemoryBytes < w.fixedBytes + w.perSessionBytes) _ >>= _) = _
    rw [require, if_neg hnot]
    rfl

/-- A plan's count is the largest one, up to the maximum, whose estimate fits. -/
theorem planSessionCapacity_optimal {w : Workload} {maximum : ℤ} {plan : SessionCapacityPlan}
    (h : planSessionCapacity w maximum = .ok plan) :
    1 ≤ plan.sessionCount ∧ plan.sessionCount ≤ maximum ∧
      estimateSessionPeakBytes plan.sessionCount w = .ok plan.estimatedPeakBytes ∧
      plan.estimatedPeakBytes ≤ w.executionMemoryBytes ∧
      ∀ count bytes, count ≤ maximum → estimateSessionPeakBytes count w = .ok bytes →
        bytes ≤ w.executionMemoryBytes → count ≤ plan.sessionCount := by
  obtain ⟨hmax, hvalid, hone, hcount, hpeak⟩ := planSessionCapacity_ok h
  have hper := hvalid.perSessionBytes_pos
  have hfits (count : ℤ) : w.fixedBytes + w.perSessionBytes * count ≤ w.executionMemoryBytes ↔
      count ≤ (w.executionMemoryBytes - w.fixedBytes) / w.perSessionBytes := by
    rw [Int.le_ediv_iff_mul_le hper, mul_comm]
    omega
  have honeFits : 1 ≤ (w.executionMemoryBytes - w.fixedBytes) / w.perSessionBytes := by
    rw [← hfits, mul_one]
    exact hone
  unfold Workload.plannedSessionCount at hcount
  refine ⟨by omega, by omega, ?_, ?_, ?_⟩
  · exact estimateSessionPeakBytes_ok_iff.mpr ⟨by omega, hvalid, hpeak⟩
  · rw [hpeak, hfits]
    omega
  · intro count bytes hle hestimate hbytes
    obtain ⟨-, -, rfl⟩ := estimateSessionPeakBytes_ok_iff.mp hestimate
    rw [hfits] at hbytes
    omega

/-- The plan is rejected for its memory exactly when one session is estimated above it. -/
theorem planSessionCapacity_rejected_iff {w : Workload} {maximum : ℤ} :
    planSessionCapacity w maximum = .error .session ↔
      1 ≤ maximum ∧ ∃ bytes, estimateSessionPeakBytes 1 w = .ok bytes ∧
        w.executionMemoryBytes < bytes := by
  rw [planSessionCapacity_session_iff]
  apply and_congr_right
  intro _
  constructor
  · rintro ⟨hvalid, hfits⟩
    refine ⟨_, estimateSessionPeakBytes_ok_iff.mpr ⟨le_refl _, hvalid, rfl⟩, ?_⟩
    rwa [mul_one]
  · rintro ⟨bytes, hestimate, hfits⟩
    obtain ⟨-, hvalid, rfl⟩ := estimateSessionPeakBytes_ok_iff.mp hestimate
    rw [mul_one] at hfits
    exact ⟨hvalid, hfits⟩

end ThesisTrace.ResearchRun.Planning
