import Mathlib.Algebra.Ring.Nat
import ThesisTrace.Library.Transaction
import ThesisTrace.ResearchRun.Schema

/-!
# Research Run transactions

One definition per database transaction of the Research Run service. A transaction either
commits with a new database or rolls back with a `Refusal`. The clock does not advance
inside a transaction, so `now()`, `statement_timestamp()` and `clock_timestamp()` agree.
-/

namespace ThesisTrace.ResearchRun
open Transaction

inductive Refusal
  | notFound
  | runIdTaken
  | fenced
  | notClaimable
  | inputInvalid
  | chunkBoundaryInvalid
  | cancelStateConflict
  | cancelIdempotencyConflict
  | batchCancellationRequired
  | deleteConflict
  | dataLifecycle
  deriving DecidableEq, Repr

variable {Digest : Type} [DecidableEq Digest]

/-! ### Row selection -/

/-- `ORDER BY ordinal DESC LIMIT 1` over the attempts of a Run. -/
def latestAttempt (attempts : List Attempt) : Option Attempt :=
  attempts.argmax Attempt.ordinal

/-- `ORDER BY ordinal DESC LIMIT 1` over the execution checkpoints of a Run. -/
def latestCheckpoint (rows : List (ExecutionCheckpoint Digest)) :
    Option (ExecutionCheckpoint Digest) :=
  rows.argmax ExecutionCheckpoint.ordinal

/-- `UPDATE` the rows that a `WHERE` clause selects. -/
def updateRows {Row : Type} (rows : List Row) (selected : Row → Bool) (change : Row → Row) :
    List Row :=
  rows.map fun row => if selected row then change row else row

/-- The run row of an owner, locked `FOR UPDATE`. -/
def ownedRun (db : Database Digest) (researcherId : ResearcherId) (runId : RunId) :
    Option (RunRow Digest) :=
  (db.tables runId).run.filter fun run => run.researcherId = researcherId

/-! ### Data Generation pins and publication manifests -/

def pinGenerationInTransaction (db : Database Digest) (pinId : PinId) (ownerId : AttemptId)
    (leaseSeconds : Nat) : Except Refusal (Database Digest × GenerationPin) := do
  require (∀ pin ∈ db.pins, pin.id ≠ pinId ∧ pin.ownerId ≠ ownerId) Refusal.dataLifecycle
  let pin : GenerationPin := ⟨pinId, ownerId, .active, db.clock + leaseSeconds⟩
  return ({ db with pins := db.pins ++ [pin] }, pin)

def activePin (pinId : PinId) (ownerId : AttemptId) (pin : GenerationPin) : Bool :=
  pin.id = pinId ∧ pin.ownerId = ownerId ∧ pin.status = .active

def releasePinInTransaction (db : Database Digest) (pinId : PinId) (ownerId : AttemptId) :
    Except Refusal (Database Digest) := do
  require (db.pins.countP (activePin pinId ownerId) = 1) Refusal.dataLifecycle
  let pins := updateRows db.pins (activePin pinId ownerId)
    fun pin => { pin with status := .released }
  return { db with pins := pins }

def heartbeatPinInTransaction (db : Database Digest) (pinId : PinId) (ownerId : AttemptId)
    (leaseSeconds : Nat) : Except Refusal (Database Digest) := do
  require (db.pins.any (activePin pinId ownerId)) Refusal.dataLifecycle
  let pins := updateRows db.pins (activePin pinId ownerId)
    fun pin => { pin with leaseExpiresAt := db.clock + leaseSeconds }
  return { db with pins := pins }

def retainGenerationInTransaction (db : Database Digest) (runId : RunId) : Database Digest :=
  { db with retentions := Function.update db.retentions runId true }

def releaseRetentionInTransaction (db : Database Digest) (runId : RunId) : Database Digest :=
  { db with retentions := Function.update db.retentions runId false }

/-- `ON CONFLICT (sha256) DO NOTHING` keeps one row for each manifest. -/
def recordManifest (db : Database Digest) (manifestSha256 : Digest) : Database Digest :=
  { db with manifests := db.manifests.insert manifestSha256 }

def releaseManifestInTransaction (db : Database Digest) (manifestSha256 : Digest)
    (stillReferenced : Bool) : Database Digest :=
  if stillReferenced then db
  else { db with manifests := db.manifests.filter (· ≠ manifestSha256) }

/-- Delete the checkpoint rows of a Run and release every manifest that they referenced. -/
def releaseExecutionCheckpoints (db : Database Digest) (runId : RunId) : Database Digest :=
  let rows := (db.tables runId).executionCheckpoints
  let cleared := db.setTables runId { db.tables runId with executionCheckpoints := [] }
  rows.foldl (fun db row => releaseManifestInTransaction db row.checkpointManifestSha256 false)
    cleared

/-! ### Checkpoint identity -/

def calculationContracts (input : ImmutableRunInput) : CalculationContracts where
  numericExecutionContract := input.numericExecutionContract
  semanticVersions := input.semanticVersions
  strategyContracts :=
    match input.researchKind with
    | .strategyBacktest => some (input.strategy, input.costs, input.riskFreeRate)
    | .factorEvaluation => none

/-- The identity of an execution checkpoint, from the creator, the boundary and the payloads. -/
def checkpointBinding (sha256 : Document Digest → Digest) (input : ImmutableRunInput)
    (runId : RunId) (creatorAttemptId : AttemptId) (creatorFence : Nat)
    (dataGenerationId : CanonicalJson) (ordinal : Nat) (boundarySession : Session) (phase : Phase)
    (completedWarmupSessions completedResearchSessions : Nat)
    (payloads : CheckpointPayloads Digest) (priorChainSha256 : Option Digest) :
    CheckpointBinding Digest where
  schemaVersion := "research-execution-checkpoint-v3"
  researchKind := input.researchKind
  runId := runId
  creatorAttemptId := creatorAttemptId
  creatorFence := creatorFence
  immutableInputSha256 := sha256 (.immutableInput input)
  dataGenerationId := dataGenerationId
  compilerContract :=
    { alphaExpressionSha256 := sha256 (.json input.alphaExpression)
      fieldBindingsSha256 := sha256 (.json input.fieldBindings)
      expressionAdmission := input.expressionAdmission }
  calculationContracts := calculationContracts input
  executionPlanSha256 := sha256 (.executionPlan input.executionPlan)
  ordinal := ordinal
  boundarySession := boundarySession
  phase := phase
  completedWarmupSessions := completedWarmupSessions
  completedResearchSessions := completedResearchSessions
  payloads := payloads
  priorChainSha256 := priorChainSha256

/-- The binding recomputed from a stored row and the attempt that created it. -/
def checkpointRowBinding (sha256 : Document Digest → Digest) (input : ImmutableRunInput)
    (runId : RunId) (row : ExecutionCheckpoint Digest) (creator : Attempt)
    (priorChain : Option Digest) : CheckpointBinding Digest :=
  checkpointBinding sha256 input runId row.attemptId creator.fence creator.dataGenerationId
    row.ordinal row.boundarySession row.phase row.completedWarmupSessions
    row.completedResearchSessions row.payloads priorChain

def optionalObject (name : String) (payload : Option (StagedPayload Digest)) :
    List (String × StagedPayload Digest) :=
  (payload.map (name, ·)).toList

/-- The named payloads of a checkpoint manifest. -/
def checkpointObjects (payloads : CheckpointPayloads Digest) :
    List (String × StagedPayload Digest) :=
  ("continuation", payloads.continuation) :: payloads.strategyEvents ++ payloads.holdings
    ++ optionalObject "factor_daily_observations" payloads.factorObservation
    ++ optionalObject "common_input_observations" payloads.commonObservation
    ++ optionalObject "strategy_daily_observations" payloads.observation
    ++ optionalObject "final_values" payloads.finalValues

def checkpointManifest (binding : CheckpointBinding Digest) : Manifest Digest :=
  ⟨checkpointObjects binding.payloads, .checkpoint binding⟩

def resultProvenance (sha256 : Document Digest → Digest) (claim : ResearchRunExecutionClaim) :
    ResultProvenance Digest where
  schemaVersion := "research-result-v3"
  researchRunId := claim.runId
  researchKind := claim.immutableInput.researchKind
  immutableInputSha256 := sha256 (.immutableInput claim.immutableInput)
  dataGenerationId := claim.dataGenerationId
  dataThroughSession := claim.dataThroughSession
  financialResearchReadiness := claim.immutableInput.financialResearchReadiness
  calculationContracts := calculationContracts claim.immutableInput

/-! ### Admission -/

/-- The rows of a newly admitted Run. -/
def admittedRows (researcherId : ResearcherId) (input : ImmutableRunInput)
    (executionOwner : ExecutionOwner) : RunTables Digest where
  run := some
    { researcherId := researcherId, status := .queued, executionOwner := executionOwner
      executionFence := 0, immutableInput := input, resultManifestSha256 := none
      failureReason := none }
  attempts := []
  progress := some
    { phase := .queued, completedWarmupSessions := 0, completedResearchSessions := 0
      committedChunkCount := 0, lastCompletedWarmupSession := none
      lastCompletedResearchSession := none }
  executionCheckpoints := []

/-- Insert a queued Run with its progress row and the retention of its Data Generation. -/
def admitRun (db : Database Digest) (runId : RunId) (researcherId : ResearcherId)
    (input : ImmutableRunInput) (executionOwner : ExecutionOwner) :
    Except Refusal (Database Digest) := do
  require (runId ∉ db.runOwnership) Refusal.runIdTaken
  let owned := { db with runOwnership := db.runOwnership ++ [runId] }
  return retainGenerationInTransaction
    (owned.setTables runId (admittedRows researcherId input executionOwner)) runId

/-! ### Claiming -/

/-- A worker loss found while claiming: whether the lost attempt may be retried. -/
structure WorkerLossRecovery where
  runId : RunId
  attemptId : AttemptId
  deriving DecidableEq, Repr

inductive ClaimResult
  | claimed (claim : ResearchRunExecutionClaim)
  | exhausted (recovery : WorkerLossRecovery)
  deriving DecidableEq, Repr

def failAttempt (clock : Timestamp) (reason : AttemptFailure) (attempt : Attempt) : Attempt :=
  { attempt with status := .failed, leaseExpiresAt := clock, failureReason := some reason }

/-- A running attempt whose lease expired. -/
def lostAttempt (clock : Timestamp) (attemptId : AttemptId) (attempt : Attempt) : Bool :=
  attempt.id = attemptId ∧ attempt.status = .running ∧ attempt.leaseExpiresAt ≤ clock

/-- Which Runs the claim query selects: queued ones, running ones whose latest attempt lost
its lease, and running ones whose latest attempt failed retryably. -/
def claimable (clock : Timestamp) (run : RunRow Digest) (latest : Option Attempt) : Bool :=
  match run.executionOwner, run.status, latest with
  | .ordinary, .queued, _ => true
  | .ordinary, .running, some attempt =>
    match attempt.status with
    | .running => attempt.leaseExpiresAt ≤ clock
    | .failed => attempt.failureReason.any retryableAttemptFailure
    | _ => false
  | _, _, _ => false

/-- `coalesce(max(ordinal), 0) + 1` over the attempts of a Run. -/
def nextOrdinal (attempts : List Attempt) : Nat :=
  ((latestAttempt attempts).map Attempt.ordinal).getD 0 + 1

/-- The Run row under the fence of its next attempt. -/
def startRunning (run : RunRow Digest) : RunRow Digest :=
  { run with status := .running, executionFence := run.executionFence + 1, failureReason := none }

def newAttempt (run : RunRow Digest) (attempts : List Attempt) (attemptId : AttemptId)
    (pin : GenerationPin) : Attempt where
  id := attemptId
  ordinal := nextOrdinal attempts
  fence := run.executionFence + 1
  generationPinId := pin.id
  dataGenerationId := run.immutableInput.generationManifestSha256
  status := .running
  leaseExpiresAt := pin.leaseExpiresAt
  failureReason := none

/-- Fence the selected Run, pin its Data Generation and insert the next attempt. -/
def claimRun (db : Database Digest) (run : RunRow Digest) (runId : RunId) (attemptId : AttemptId)
    (pinId : PinId) (dataThroughSession : Session) (generationMatches : Bool)
    (leaseSeconds : Nat) : Except Refusal (Database Digest × ClaimResult) := do
  let rows := db.tables runId
  let (pinned, pin) ← pinGenerationInTransaction db pinId attemptId leaseSeconds
  require (generationMatches = true) Refusal.inputInvalid
  let attempt := newAttempt run rows.attempts attemptId pin
  let committed := (releaseRetentionInTransaction pinned runId).setTables runId
    { rows with run := some (startRunning run), attempts := rows.attempts ++ [attempt] }
  return (committed, .claimed
    { researcherId := run.researcherId, runId := runId, attemptId := attempt.id
      attemptNumber := attempt.ordinal, fence := attempt.fence, generationPinId := pin.id
      dataGenerationId := attempt.dataGenerationId, dataThroughSession := dataThroughSession
      immutableInput := run.immutableInput })

/-- One `_claim_next` transaction that selected `runId`. A lost attempt that may not be
retried commits nothing and is handed to `finishExhaustedWorkerLoss`. -/
def claimNext (db : Database Digest) (runId : RunId) (attemptId : AttemptId) (pinId : PinId)
    (dataThroughSession : Session) (generationMatches : Bool) (leaseSeconds : Nat) :
    Except Refusal (Database Digest × ClaimResult) := do
  let rows := db.tables runId
  let run ← found rows.run Refusal.notClaimable
  let latest := latestAttempt rows.attempts
  require (claimable db.clock run latest = true) Refusal.notClaimable
  match latest with
  | none =>
    claimRun db run runId attemptId pinId dataThroughSession generationMatches leaseSeconds
  | some lost =>
    if lost.status = .running then
      if attemptRetryEligible .workerLost lost.ordinal then
        let recovered := db.setTables runId
          { rows with
            attempts := updateRows rows.attempts (lostAttempt db.clock lost.id)
              (failAttempt db.clock .workerLost) }
        let released ← releasePinInTransaction recovered lost.generationPinId lost.id
        claimRun released run runId attemptId pinId dataThroughSession generationMatches
          leaseSeconds
      else
        return (db, .exhausted ⟨runId, lost.id⟩)
    else
      claimRun db run runId attemptId pinId dataThroughSession generationMatches leaseSeconds

def automaticRetriesPublicReason : String :=
  "Research execution could not complete after automatic retries."

/-- Fail a Run whose last allowed attempt lost its worker. -/
def finishExhaustedWorkerLoss (db : Database Digest) (recovery : WorkerLossRecovery) :
    Except Refusal (Database Digest) := do
  let rows := db.tables recovery.runId
  let run ← found rows.run Refusal.notFound
  let lost ← found (rows.attempts.find? (·.id = recovery.attemptId)) Refusal.notFound
  require (run.executionOwner = .ordinary ∧ run.status = .running ∧ lost.status = .running
    ∧ run.executionFence = lost.fence ∧ lost.leaseExpiresAt ≤ db.clock) Refusal.fenced
  let failed := db.setTables recovery.runId
    { rows with
      run := some { run with status := .failed, failureReason := some automaticRetriesPublicReason }
      attempts := updateRows rows.attempts (lostAttempt db.clock recovery.attemptId)
        (failAttempt db.clock .workerLost) }
  let released ← releasePinInTransaction failed lost.generationPinId recovery.attemptId
  return releaseExecutionCheckpoints released recovery.runId

/-! ### Execution -/

/-- The attempt row of a claim, still running under the claim's fence. -/
def claimedAttempt (claim : ResearchRunExecutionClaim) (attempt : Attempt) : Bool :=
  attempt.id = claim.attemptId ∧ attempt.fence = claim.fence ∧ attempt.status = .running

/-- The attempt of a claim, running with an unexpired lease. -/
def unexpiredAttempt (clock : Timestamp) (claim : ResearchRunExecutionClaim)
    (attempt : Attempt) : Bool :=
  claimedAttempt claim attempt && decide (clock < attempt.leaseExpiresAt)

/-- Renew the lease of a running, unexpired attempt and of its pin. -/
def heartbeatClaim (db : Database Digest) (claim : ResearchRunExecutionClaim)
    (leaseSeconds : Nat) : Except Refusal (Database Digest) := do
  let rows := db.tables claim.runId
  let run ← found (ownedRun db claim.researcherId claim.runId) Refusal.notFound
  let renewable := fun attempt : Attempt =>
    unexpiredAttempt db.clock claim attempt
      && decide (run.status = .running ∧ run.executionFence = attempt.fence)
  require (rows.attempts.countP renewable = 1) Refusal.fenced
  let attempts := updateRows rows.attempts renewable
    fun attempt => { attempt with leaseExpiresAt := db.clock + leaseSeconds }
  heartbeatPinInTransaction (db.setTables claim.runId { rows with attempts := attempts })
    claim.generationPinId claim.attemptId leaseSeconds

/-- `_validate_current_execution_in_transaction`: the run is running under the claim's fence
and the claim's attempt is running with an unexpired lease. -/
def validateCurrentExecution (db : Database Digest) (claim : ResearchRunExecutionClaim) :
    Except Refusal (RunRow Digest) := do
  let run ← found (ownedRun db claim.researcherId claim.runId) Refusal.fenced
  require (run.status = .running ∧ run.executionFence = claim.fence) Refusal.fenced
  require ((db.tables claim.runId).attempts.any (unexpiredAttempt db.clock claim)) Refusal.fenced
  return run

/-- A chunk received from the execution child, after its payloads were staged. -/
structure StagedChunk (Digest : Type) where
  ordinal : Nat
  boundarySession : Session
  phase : Phase
  completedWarmupSessions : Nat
  completedResearchSessions : Nat
  final : Bool
  observationSessions : List Session
  payloads : CheckpointPayloads Digest
  deriving DecidableEq, Repr

def completedWarmup (plan : ResearchExecutionPlan) (ordinal : Nat) : Nat :=
  ((plan.chunks.take ordinal).map ResearchExecutionChunk.warmupSessionCount).sum

def completedResearch (plan : ResearchExecutionPlan) (ordinal : Nat) : Nat :=
  ((plan.chunks.take ordinal).map ResearchExecutionChunk.researchSessionCount).sum

def expectedObservationCount (input : ImmutableRunInput) (planChunk : ResearchExecutionChunk) :
    Nat :=
  match input.researchKind with
  | .strategyBacktest => planChunk.researchSessionCount
  | .factorEvaluation => 0

/-- The boundary of a chunk agrees with the frozen execution plan. -/
def chunkBoundaryValid (input : ImmutableRunInput) (chunk : StagedChunk Digest)
    (planChunk : ResearchExecutionChunk) : Prop :=
  1 ≤ chunk.ordinal
    ∧ chunk.final = chunk.payloads.finalValues.isSome
    ∧ chunk.boundarySession = planChunk.lastSession
    ∧ chunk.phase = planChunk.phase
    ∧ chunk.completedWarmupSessions = completedWarmup input.executionPlan chunk.ordinal
    ∧ chunk.completedResearchSessions = completedResearch input.executionPlan chunk.ordinal
    ∧ chunk.observationSessions.length = expectedObservationCount input planChunk

instance (input : ImmutableRunInput) (chunk : StagedChunk Digest)
    (planChunk : ResearchExecutionChunk) : Decidable (chunkBoundaryValid input chunk planChunk) :=
  inferInstanceAs (Decidable (_ ∧ _))

/-- The ordinal and chain digest of the last committed checkpoint. -/
def committedPrior (rows : List (ExecutionCheckpoint Digest)) : Option (Nat × Digest) :=
  (latestCheckpoint rows).map fun row => (row.ordinal, row.chainSha256)

def claimBinding (sha256 : Document Digest → Digest) (claim : ResearchRunExecutionClaim)
    (chunk : StagedChunk Digest) (expectedPrior : Option (Nat × Digest)) :
    CheckpointBinding Digest :=
  checkpointBinding sha256 claim.immutableInput claim.runId claim.attemptId claim.fence
    claim.dataGenerationId chunk.ordinal chunk.boundarySession chunk.phase
    chunk.completedWarmupSessions chunk.completedResearchSessions chunk.payloads
    (expectedPrior.map Prod.snd)

def checkpointRow (sha256 : Document Digest → Digest) (claim : ResearchRunExecutionClaim)
    (chunk : StagedChunk Digest) (expectedPrior : Option (Nat × Digest)) :
    ExecutionCheckpoint Digest :=
  let binding := claimBinding sha256 claim chunk expectedPrior
  { attemptId := claim.attemptId
    ordinal := chunk.ordinal
    boundarySession := chunk.boundarySession
    phase := chunk.phase
    completedWarmupSessions := chunk.completedWarmupSessions
    completedResearchSessions := chunk.completedResearchSessions
    payloads := chunk.payloads
    observationRowCount := chunk.observationSessions.length
    observationFirstSession := chunk.observationSessions.head?
    observationLastSession := chunk.observationSessions.getLast?
    checkpointManifestSha256 := sha256 (.manifest (checkpointManifest binding))
    chainSha256 := sha256 (.checkpointBinding binding) }

def advanceProgress (input : ImmutableRunInput) (planChunk : ResearchExecutionChunk)
    (chunk : StagedChunk Digest) (progress : Progress) : Progress where
  phase := if chunk.final then .finalizing else chunk.phase.progressPhase
  completedWarmupSessions := chunk.completedWarmupSessions
  completedResearchSessions := chunk.completedResearchSessions
  committedChunkCount := chunk.ordinal
  lastCompletedWarmupSession :=
    if 0 < chunk.completedWarmupSessions then
      input.executionPlan.calculationSessions[chunk.completedWarmupSessions - 1]?
    else progress.lastCompletedWarmupSession
  lastCompletedResearchSession :=
    if 0 < chunk.completedResearchSessions then some planChunk.lastSession
    else progress.lastCompletedResearchSession

/-- The committing transaction of `_commit_execution_chunk`. The prior ordinal and chain were
read by an earlier transaction of the same worker and are compared again here. -/
def commitExecutionChunk (sha256 : Document Digest → Digest) (db : Database Digest)
    (claim : ResearchRunExecutionClaim) (chunk : StagedChunk Digest)
    (expectedPrior : Option (Nat × Digest)) : Except Refusal (Database Digest) := do
  let planChunk ← found (claim.immutableInput.executionPlan.chunks[chunk.ordinal - 1]?)
    Refusal.chunkBoundaryInvalid
  require (chunkBoundaryValid claim.immutableInput chunk planChunk) Refusal.chunkBoundaryInvalid
  require (chunk.ordinal = (expectedPrior.map Prod.fst).getD 0 + 1) Refusal.fenced
  let _ ← validateCurrentExecution db claim
  let rows := db.tables claim.runId
  require (committedPrior rows.executionCheckpoints = expectedPrior) Refusal.fenced
  let row := checkpointRow sha256 claim chunk expectedPrior
  let recorded := recordManifest db row.checkpointManifestSha256
  let _ ← validateCurrentExecution recorded claim
  return recorded.setTables claim.runId
    { rows with
      executionCheckpoints := rows.executionCheckpoints ++ [row]
      progress := rows.progress.map (advanceProgress claim.immutableInput planChunk chunk) }

/-- Record the Result manifest and, for a Strategy Backtest, its holding manifest. -/
def recordResult (db : Database Digest) (resultSha256 : Digest) (holdingSha256 : Option Digest) :
    Database Digest :=
  let published := recordManifest db resultSha256
  match holdingSha256 with
  | none => published
  | some holding => recordManifest published holding

/-- Publish the Result of a Run, release its checkpoints and finish attempt and Run. -/
def publishSuccess (sha256 : Document Digest → Digest) (db : Database Digest)
    (claim : ResearchRunExecutionClaim) (resultObjects : List (String × StagedPayload Digest))
    (holdingObjects : Option (List (String × StagedPayload Digest))) :
    Except Refusal (Database Digest) := do
  let _ ← validateCurrentExecution db claim
  let provenance := resultProvenance sha256 claim
  let manifestSha256 := sha256 (.manifest ⟨resultObjects, .result provenance⟩)
  let holdingSha256 := holdingObjects.map fun objects =>
    sha256 (.manifest ⟨objects, .holding provenance claim.runId⟩)
  let published := recordResult db manifestSha256 holdingSha256
  let released := releaseExecutionCheckpoints published claim.runId
  let rows := released.tables claim.runId
  require (rows.attempts.countP (unexpiredAttempt db.clock claim) = 1) Refusal.fenced
  let run ← found (ownedRun released claim.researcherId claim.runId) Refusal.fenced
  require (run.status = .running ∧ run.executionFence = claim.fence) Refusal.fenced
  releasePinInTransaction (released.setTables claim.runId
    { rows with
      run := some
        { run with
          status := .succeeded, resultManifestSha256 := some manifestSha256
          failureReason := none }
      attempts := updateRows rows.attempts (unexpiredAttempt db.clock claim)
        (fun attempt => { attempt with status := .succeeded })
      progress := rows.progress.map fun progress => { progress with phase := .succeeded } })
    claim.generationPinId claim.attemptId

/-- Record a failed attempt. A retryable failure below its attempt bound leaves the Run
running for the next claim; any other failure is terminal. -/
def recordFailure (db : Database Digest) (claim : ResearchRunExecutionClaim)
    (attemptReason : AttemptFailure) (publicReason : String) :
    Except Refusal (Database Digest) := do
  let rows := db.tables claim.runId
  let run ← found (ownedRun db claim.researcherId claim.runId) Refusal.fenced
  require (run.status = .running ∧ run.executionFence = claim.fence) Refusal.fenced
  let attempt ← found (rows.attempts.find? fun attempt =>
    attempt.id = claim.attemptId ∧ attempt.fence = claim.fence) Refusal.fenced
  require (attempt.status = .running) Refusal.fenced
  let attemptNumber := rows.attempts.length
  let retry := attemptRetryEligible attemptReason attemptNumber
  let failed := db.setTables claim.runId
    { rows with
      run := some
        { run with
          status := if retry then .running else .failed
          failureReason := if retry then none else some publicReason }
      attempts := updateRows rows.attempts (claimedAttempt claim)
        (failAttempt db.clock attemptReason) }
  let settled :=
    if retry then retainGenerationInTransaction failed claim.runId
    else releaseExecutionCheckpoints failed claim.runId
  releasePinInTransaction settled claim.generationPinId claim.attemptId

/-! ### Cancellation and deletion -/

/-- Every running attempt of a Run starts cancelling. -/
def cancelAttempts (attempts : List Attempt) : List Attempt :=
  updateRows attempts (·.status = .running)
    fun attempt =>
      { attempt with status := .cancelling, failureReason := some .userCancelled }

/-- `_cancel`. A running Run without a running attempt, between a retryable failure and its
retry, is cancelled at once; its execution checkpoints are not released on this path. -/
def cancel (db : Database Digest) (researcherId : ResearcherId) (runId : RunId)
    (requestId : RequestId) : Except Refusal (Database Digest) := do
  let _ ← found (ownedRun db researcherId runId) Refusal.notFound
  match db.cancelReceipts.find? fun receipt =>
      receipt.researcherId = researcherId ∧ receipt.requestId = requestId with
  | some receipt =>
    require (receipt.runId = runId) Refusal.cancelIdempotencyConflict
    return db
  | none =>
    let rows := db.tables runId
    let run ← found (ownedRun db researcherId runId) Refusal.notFound
    require (run.executionOwner = .ordinary) Refusal.batchCancellationRequired
    let receipts := db.cancelReceipts ++ [⟨researcherId, requestId, runId⟩]
    let fenced := fun status =>
      { run with
        status := status, executionFence := run.executionFence + 1, failureReason := none }
    match run.status with
    | .running =>
      if rows.attempts.any (·.status = .running) then
        return { db.setTables runId
          { rows with
            run := some (fenced .cancelling), attempts := cancelAttempts rows.attempts }
          with cancelReceipts := receipts }
      else
        return { releaseRetentionInTransaction
          (db.setTables runId { rows with run := some (fenced .cancelled) }) runId
          with cancelReceipts := receipts }
    | .queued =>
      return { releaseRetentionInTransaction
        (db.setTables runId { rows with run := some (fenced .cancelled) }) runId
        with cancelReceipts := receipts }
    | _ => .error Refusal.cancelStateConflict

def finishCancelledAttempt (clock : Timestamp) (attempt : Attempt) : Attempt :=
  { attempt with status := .cancelled, leaseExpiresAt := clock }

def cancellingAttempt (attemptId : AttemptId) (attempt : Attempt) : Bool :=
  attempt.id = attemptId ∧ attempt.status = .cancelling

/-- The worker confirms that it stopped a cancelling attempt. -/
def confirmCancelled (db : Database Digest) (claim : ResearchRunExecutionClaim) :
    Except Refusal (Database Digest) := do
  let rows := db.tables claim.runId
  let run ← found (ownedRun db claim.researcherId claim.runId) Refusal.notFound
  require (run.status = .cancelling) Refusal.fenced
  let confirmed := fun attempt : Attempt =>
    cancellingAttempt claim.attemptId attempt && decide (attempt.fence = claim.fence)
  require (rows.attempts.countP confirmed = 1) Refusal.fenced
  let cancelled := db.setTables claim.runId
    { rows with
      run := some { run with status := .cancelled }
      attempts := updateRows rows.attempts confirmed (finishCancelledAttempt db.clock) }
  releasePinInTransaction (releaseExecutionCheckpoints cancelled claim.runId)
    claim.generationPinId claim.attemptId

/-- Any worker finishes a cancelling attempt whose lease expired. -/
def recoverCancelledAttempt (db : Database Digest) (runId : RunId) (attemptId : AttemptId) :
    Except Refusal (Database Digest) := do
  let rows := db.tables runId
  let run ← found rows.run Refusal.notFound
  let lost ← found (rows.attempts.find? (·.id = attemptId)) Refusal.notFound
  require (run.status = .cancelling ∧ lost.status = .cancelling
    ∧ lost.leaseExpiresAt ≤ db.clock) Refusal.notClaimable
  let cancelled := db.setTables runId
    { rows with
      run := some { run with status := .cancelled }
      attempts := updateRows rows.attempts (cancellingAttempt attemptId)
        (finishCancelledAttempt db.clock) }
  releasePinInTransaction (releaseExecutionCheckpoints cancelled runId)
    lost.generationPinId attemptId

/-- Delete a terminal Run. Its checkpoint rows go with it, without releasing manifests. -/
def delete (db : Database Digest) (researcherId : ResearcherId) (runId : RunId)
    (stillReferenced : Bool) : Except Refusal (Database Digest) := do
  let run ← found (ownedRun db researcherId runId) Refusal.notFound
  require (run.status.terminal = true) Refusal.deleteConflict
  let deleted :=
    { db.setTables runId .empty with
      cancelReceipts := db.cancelReceipts.filter fun receipt =>
        ¬(receipt.researcherId = researcherId ∧ receipt.runId = runId) }
  match run.resultManifestSha256 with
  | none => return deleted
  | some manifestSha256 =>
    return releaseManifestInTransaction deleted manifestSha256 stillReferenced

end ThesisTrace.ResearchRun
