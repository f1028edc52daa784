import Mathlib.Data.List.MinMax
import Mathlib.Logic.Function.Basic

/-!
# Research Run tables

Rows of the `research_runs` schema, the Data Generation pins and the publication manifests
that the Research Run transactions read and write. Digests are left abstract: `Digest` is
the type of SHA-256 values and `Document Digest` the canonical values that get hashed.
-/

namespace ThesisTrace.ResearchRun

abbrev ResearcherId := Nat
abbrev RunId := Nat
abbrev AttemptId := Nat
abbrev PinId := Nat
abbrev RequestId := Nat
abbrev Timestamp := Nat
/-- A trading date. -/
abbrev Session := Nat
/-- Canonical JSON text of a value that the Run service stores without looking inside. -/
abbrev CanonicalJson := String

/-! ### Failure policy -/

inductive AttemptFailure
  | strategyProgramFailure
  | insufficientCalculationWarmup
  | selectedDataInvalid
  | resourceExhausted
  | infrastructureUnavailable
  | checkpointIntegrityFailure
  | contractMismatch
  | calculationFailure
  | permanentExecutionFailure
  | workerLost
  | userCancelled
  deriving DecidableEq, Repr

structure AttemptFailurePolicy where
  code : String
  maxAttempts : Nat

def maxResearchRunAttempts : Nat := 3

def attemptFailurePolicies : AttemptFailure → AttemptFailurePolicy
  | .strategyProgramFailure => ⟨"STRATEGY_PROGRAM_FAILED", 1⟩
  | .insufficientCalculationWarmup => ⟨"INSUFFICIENT_CALCULATION_WARMUP", 1⟩
  | .selectedDataInvalid => ⟨"SELECTED_DATA_INVALID", 1⟩
  | .resourceExhausted => ⟨"RESOURCE_EXHAUSTED", 1⟩
  | .infrastructureUnavailable => ⟨"INFRASTRUCTURE_UNAVAILABLE", maxResearchRunAttempts⟩
  | .checkpointIntegrityFailure => ⟨"CHECKPOINT_INTEGRITY_FAILURE", 1⟩
  | .contractMismatch => ⟨"CONTRACT_MISMATCH", 1⟩
  | .calculationFailure => ⟨"CALCULATION_FAILURE", 1⟩
  | .permanentExecutionFailure => ⟨"PERMANENT_EXECUTION_FAILURE", 1⟩
  | .workerLost => ⟨"WORKER_LOST", maxResearchRunAttempts⟩
  | .userCancelled => ⟨"USER_CANCELLED", 1⟩

/-- Membership in `RETRYABLE_ATTEMPT_FAILURES`. -/
def retryableAttemptFailure (reason : AttemptFailure) : Bool :=
  decide (1 < (attemptFailurePolicies reason).maxAttempts)

def attemptRetryEligible (reason : AttemptFailure) (attemptOrdinal : Nat) : Bool :=
  decide (attemptOrdinal < (attemptFailurePolicies reason).maxAttempts)

lemma maxAttempts_le (reason : AttemptFailure) :
    (attemptFailurePolicies reason).maxAttempts ≤ maxResearchRunAttempts := by
  cases reason <;> decide

/-! ### Immutable input -/

inductive ResearchKind
  | factorEvaluation
  | strategyBacktest
  deriving DecidableEq, Repr

inductive Phase
  | warmup
  | research
  deriving DecidableEq, Repr

structure ResearchExecutionChunk where
  ordinal : Nat
  firstSession : Session
  lastSession : Session
  sessionCount : Nat
  warmupSessionCount : Nat
  researchSessionCount : Nat
  deriving DecidableEq, Repr

/-- A chunk that contains any research session is a research chunk. -/
def ResearchExecutionChunk.phase (chunk : ResearchExecutionChunk) : Phase :=
  if chunk.researchSessionCount ≠ 0 then .research else .warmup

structure ResearchExecutionPlan where
  calculationSessions : List Session
  researchSessionOffset : Nat
  researchSessionCount : Nat
  chunkSessionCount : Nat
  chunks : List ResearchExecutionChunk
  deriving DecidableEq, Repr

structure ImmutableRunInput where
  researchKind : ResearchKind
  alphaExpression : CanonicalJson
  fieldBindings : CanonicalJson
  strategy : Option CanonicalJson
  costs : Option CanonicalJson
  riskFreeRate : Option CanonicalJson
  numericExecutionContract : CanonicalJson
  semanticVersions : CanonicalJson
  expressionAdmission : CanonicalJson
  generationManifestSha256 : CanonicalJson
  financialResearchReadiness : CanonicalJson
  executionPlan : ResearchExecutionPlan
  deriving DecidableEq, Repr

/-! ### Checkpoint identity -/

structure StagedPayload (Digest : Type) where
  sha256 : Digest
  byteSize : Nat
  mediaType : String
  serialization : CanonicalJson
  deriving DecidableEq, Repr

/-- The staged payload columns of one execution checkpoint. -/
structure CheckpointPayloads (Digest : Type) where
  continuation : StagedPayload Digest
  observation : Option (StagedPayload Digest)
  commonObservation : Option (StagedPayload Digest)
  factorObservation : Option (StagedPayload Digest)
  strategyEvents : List (String × StagedPayload Digest)
  holdings : List (String × StagedPayload Digest)
  finalValues : Option (StagedPayload Digest)
  deriving DecidableEq, Repr

structure CompilerContract (Digest : Type) where
  alphaExpressionSha256 : Digest
  fieldBindingsSha256 : Digest
  expressionAdmission : CanonicalJson
  deriving DecidableEq, Repr

/-- The Strategy contracts are present exactly for a Strategy Backtest. -/
structure CalculationContracts where
  numericExecutionContract : CanonicalJson
  semanticVersions : CanonicalJson
  strategyContracts : Option (Option CanonicalJson × Option CanonicalJson × Option CanonicalJson)
  deriving DecidableEq, Repr

structure CheckpointBinding (Digest : Type) where
  schemaVersion : String
  researchKind : ResearchKind
  runId : RunId
  creatorAttemptId : AttemptId
  creatorFence : Nat
  immutableInputSha256 : Digest
  dataGenerationId : CanonicalJson
  compilerContract : CompilerContract Digest
  calculationContracts : CalculationContracts
  executionPlanSha256 : Digest
  ordinal : Nat
  boundarySession : Session
  phase : Phase
  completedWarmupSessions : Nat
  completedResearchSessions : Nat
  payloads : CheckpointPayloads Digest
  priorChainSha256 : Option Digest
  deriving DecidableEq, Repr

structure ResultProvenance (Digest : Type) where
  schemaVersion : String
  researchRunId : RunId
  researchKind : ResearchKind
  immutableInputSha256 : Digest
  dataGenerationId : CanonicalJson
  dataThroughSession : Session
  financialResearchReadiness : CanonicalJson
  calculationContracts : CalculationContracts
  deriving DecidableEq, Repr

inductive Provenance (Digest : Type)
  | checkpoint (binding : CheckpointBinding Digest)
  | result (provenance : ResultProvenance Digest)
  | holding (provenance : ResultProvenance Digest) (holdingUnitId : RunId)
  deriving DecidableEq, Repr

/-- A publication manifest; its kind is the constructor of the provenance. -/
structure Manifest (Digest : Type) where
  objects : List (String × StagedPayload Digest)
  provenance : Provenance Digest
  deriving DecidableEq, Repr

/-- The canonical values that the Run service hashes. -/
inductive Document (Digest : Type)
  | json (text : CanonicalJson)
  | immutableInput (input : ImmutableRunInput)
  | executionPlan (plan : ResearchExecutionPlan)
  | checkpointBinding (binding : CheckpointBinding Digest)
  | manifest (manifest : Manifest Digest)
  deriving DecidableEq, Repr

/-! ### Rows -/

inductive RunStatus
  | queued
  | running
  | cancelling
  | succeeded
  | failed
  | cancelled
  deriving DecidableEq, Repr

def RunStatus.terminal : RunStatus → Bool
  | .succeeded | .failed | .cancelled => true
  | .queued | .running | .cancelling => false

inductive AttemptStatus
  | running
  | cancelling
  | succeeded
  | failed
  | cancelled
  deriving DecidableEq, Repr

inductive ExecutionOwner
  | ordinary
  | researchBatch
  deriving DecidableEq, Repr

structure RunRow (Digest : Type) where
  researcherId : ResearcherId
  status : RunStatus
  executionOwner : ExecutionOwner
  executionFence : Nat
  immutableInput : ImmutableRunInput
  resultManifestSha256 : Option Digest
  failureReason : Option String

structure Attempt where
  id : AttemptId
  ordinal : Nat
  fence : Nat
  generationPinId : PinId
  dataGenerationId : CanonicalJson
  status : AttemptStatus
  leaseExpiresAt : Timestamp
  failureReason : Option AttemptFailure
  deriving DecidableEq, Repr

inductive ProgressPhase
  | queued
  | warmup
  | research
  | finalizing
  | succeeded
  deriving DecidableEq, Repr

def Phase.progressPhase : Phase → ProgressPhase
  | .warmup => .warmup
  | .research => .research

structure Progress where
  phase : ProgressPhase
  completedWarmupSessions : Nat
  completedResearchSessions : Nat
  committedChunkCount : Nat
  lastCompletedWarmupSession : Option Session
  lastCompletedResearchSession : Option Session
  deriving DecidableEq, Repr

structure ExecutionCheckpoint (Digest : Type) where
  attemptId : AttemptId
  ordinal : Nat
  boundarySession : Session
  phase : Phase
  completedWarmupSessions : Nat
  completedResearchSessions : Nat
  payloads : CheckpointPayloads Digest
  observationRowCount : Nat
  observationFirstSession : Option Session
  observationLastSession : Option Session
  checkpointManifestSha256 : Digest
  chainSha256 : Digest

/-- The rows of one Run: every foreign key of these tables is the Run's id. -/
structure RunTables (Digest : Type) where
  run : Option (RunRow Digest)
  attempts : List Attempt
  progress : Option Progress
  executionCheckpoints : List (ExecutionCheckpoint Digest)

def RunTables.empty {Digest : Type} : RunTables Digest := ⟨none, [], none, []⟩

inductive PinStatus
  | active
  | released
  deriving DecidableEq, Repr

structure GenerationPin where
  id : PinId
  ownerId : AttemptId
  status : PinStatus
  leaseExpiresAt : Timestamp
  deriving DecidableEq, Repr

structure CancelReceipt where
  researcherId : ResearcherId
  requestId : RequestId
  runId : RunId
  deriving DecidableEq, Repr

structure Database (Digest : Type) where
  clock : Timestamp
  /-- `run_ownership`, whose rows outlive the Runs. -/
  runOwnership : List RunId
  tables : RunId → RunTables Digest
  pins : List GenerationPin
  /-- Runs whose `queued-research-run` retention of a Data Generation is live. -/
  retentions : RunId → Bool
  cancelReceipts : List CancelReceipt
  /-- `publication.manifests`, by their SHA-256. -/
  manifests : List Digest

def Database.empty {Digest : Type} : Database Digest where
  clock := 0
  runOwnership := []
  tables _ := .empty
  pins := []
  retentions _ := false
  cancelReceipts := []
  manifests := []

/-- Replace the rows of one Run. -/
def Database.setTables {Digest : Type} (db : Database Digest) (runId : RunId)
    (rows : RunTables Digest) : Database Digest :=
  { db with tables := Function.update db.tables runId rows }

@[simp] lemma setTables_self {Digest : Type} (db : Database Digest) (runId : RunId)
    (rows : RunTables Digest) : (db.setTables runId rows).tables runId = rows := by
  simp [Database.setTables]

lemma setTables_other {Digest : Type} (db : Database Digest) {runId other : RunId}
    (rows : RunTables Digest) (h : other ≠ runId) :
    (db.setTables runId rows).tables other = db.tables other := by
  simp [Database.setTables, h]

@[simp] lemma setTables_manifests {Digest : Type} (db : Database Digest) (runId : RunId)
    (rows : RunTables Digest) : (db.setTables runId rows).manifests = db.manifests := rfl

@[simp] lemma setTables_clock {Digest : Type} (db : Database Digest) (runId : RunId)
    (rows : RunTables Digest) : (db.setTables runId rows).clock = db.clock := rfl

/-- The claim that a worker holds on one attempt. -/
structure ResearchRunExecutionClaim where
  researcherId : ResearcherId
  runId : RunId
  attemptId : AttemptId
  attemptNumber : Nat
  fence : Nat
  generationPinId : PinId
  dataGenerationId : CanonicalJson
  dataThroughSession : Session
  immutableInput : ImmutableRunInput
  deriving DecidableEq, Repr

end ThesisTrace.ResearchRun
