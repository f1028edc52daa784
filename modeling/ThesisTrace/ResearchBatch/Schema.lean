import ThesisTrace.ResearchRun.Transactions

/-!
# Research Batch tables

The rows of one Batch: its items with the rows of their child Runs, its attempts, its starting
claim, its task attempts, its progress and its Data Generation pins. No other Batch has rows among
them.
-/

namespace ThesisTrace.ResearchBatch
open ResearchRun (AttemptId PinId Timestamp RunStatus GenerationPin)

/-! ### Failure policy -/

structure ResearchBatchDiagnostic where
  code : String
  category : String
  message : String
  deriving DecidableEq, Repr

structure TaskFailurePolicy where
  attemptReason : String
  publicReason : String
  retryable : Bool
  deriving DecidableEq, Repr

/-- The exceptions that the failure policies tell apart. -/
inductive ExecutionError
  | resourceExhausted
  | infrastructureUnavailable
  | privateArtifactRejected
  | other
  deriving DecidableEq, Repr

def maxTaskAttempts : Nat := 3
def factorTaskInfrastructureFailure : String := "InfrastructureUnavailable"
def factorTaskWorkerLostFailure : String := "WorkerLost"
def factorTaskResourceExhaustedFailure : String := "ResourceExhausted"
def factorTaskPermanentFailure : String := "PermanentExecutionFailure"
def factorTaskInfrastructurePublicReason : String :=
  "Research execution could not complete after automatic retries."
def factorTaskPermanentPublicReason : String := "Research execution failed."

def factorTaskFailurePolicy : ExecutionError → TaskFailurePolicy
  | .resourceExhausted => {
      attemptReason := factorTaskResourceExhaustedFailure
      publicReason := "Research Batch execution exceeded its resource limit."
      retryable := false }
  | .infrastructureUnavailable => {
      attemptReason := factorTaskInfrastructureFailure
      publicReason := factorTaskInfrastructurePublicReason
      retryable := true }
  | .privateArtifactRejected | .other => {
      attemptReason := factorTaskPermanentFailure
      publicReason := factorTaskPermanentPublicReason
      retryable := false }

def strategyTaskFailurePolicy : ExecutionError → TaskFailurePolicy
  | .privateArtifactRejected => {
      attemptReason := factorTaskPermanentFailure
      publicReason := "The private Alpha-and-Factor artifact is invalid."
      retryable := false }
  | error => factorTaskFailurePolicy error

def workerLostPolicy : TaskFailurePolicy where
  attemptReason := factorTaskWorkerLostFailure
  publicReason := factorTaskInfrastructurePublicReason
  retryable := true

def exceptionDiagnostic (error : ExecutionError) : ResearchBatchDiagnostic :=
  if error = .resourceExhausted then
    ⟨"RESEARCH_BATCH_RESOURCE_EXHAUSTED", "resource_exhausted",
      "Research Batch execution exceeded its resource limit."⟩
  else if (factorTaskFailurePolicy error).retryable then
    ⟨"RESEARCH_BATCH_INFRASTRUCTURE_UNAVAILABLE", "infrastructure",
      "Research Batch execution lost required infrastructure."⟩
  else
    ⟨"RESEARCH_BATCH_EXECUTION_FAILED", "execution", "Research Batch execution failed."⟩

/-! ### Rows -/

inductive BatchKind
  | factorEvaluation
  | strategySweep
  | independentStrategies
  deriving DecidableEq, Repr

inductive BatchStatus
  | queued
  | running
  | cancelling
  | succeeded
  | completedWithFailures
  | failed
  | cancelled
  deriving DecidableEq, Repr

inductive AttemptStatus
  | running
  | succeeded
  | failed
  | cancelled
  deriving DecidableEq, Repr

/-- How an item ended. -/
inductive Outcome
  | succeeded
  | failed
  | cancelled
  deriving DecidableEq, Repr

/-- The status of a Run that ended so. -/
def Outcome.runStatus : Outcome → RunStatus
  | .succeeded => .succeeded
  | .failed => .failed
  | .cancelled => .cancelled

inductive SharedAlphaFactorStatus
  | pending
  | running
  | succeeded
  | failed
  | cancelled
  deriving DecidableEq, Repr

inductive TaskRole
  | factor
  | sharedAlphaFactor
  | strategy
  | independentStrategy
  deriving DecidableEq, Repr

/-- The row of a child in `research_runs.runs`. -/
structure ChildRun where
  status : RunStatus
  executionFence : Nat
  failureReason : Option String
  deriving DecidableEq, Repr

structure Item where
  ordinal : Nat
  outcome : Option Outcome
  diagnostic : Option ResearchBatchDiagnostic
  runDeleted : Bool
  run : Option ChildRun
  deriving DecidableEq, Repr

structure Attempt where
  id : AttemptId
  ordinal : Nat
  fence : Nat
  generationPinId : PinId
  status : AttemptStatus
  leaseExpiresAt : Timestamp
  failureReason : Option String
  failureDiagnostic : Option ResearchBatchDiagnostic
  childPid : Nat
  /-- The exit code of the child, and whether its completion was acknowledged. -/
  childExit : Option (Int × Bool)
  deriving DecidableEq, Repr

structure StartingClaim where
  id : AttemptId
  ordinal : Nat
  fence : Nat
  generationPinId : PinId
  leaseExpiresAt : Timestamp
  deriving DecidableEq, Repr

structure TaskAttempt where
  /-- The shared task belongs to no item. -/
  itemOrdinal : Option Nat
  taskRole : TaskRole
  ordinal : Nat
  batchAttemptId : AttemptId
  fence : Nat
  status : AttemptStatus
  failureReason : Option String
  failureDiagnostic : Option ResearchBatchDiagnostic
  deriving DecidableEq, Repr

structure Progress where
  completedItems : Nat
  totalItems : Nat
  sharedAlphaFactorStatus : Option SharedAlphaFactorStatus
  deriving DecidableEq, Repr

structure Batch where
  clock : Timestamp
  kind : BatchKind
  status : BatchStatus
  executionFence : Nat
  items : List Item
  attempts : List Attempt
  startingClaim : Option StartingClaim
  taskAttempts : List TaskAttempt
  progress : Progress
  /-- The attempt and the fence that created the private artifact. -/
  privateArtifact : Option (AttemptId × Nat)
  pins : List GenerationPin
  /-- Whether the retention `research-batch` of the Data Generation is live. -/
  retention : Bool
  deriving DecidableEq, Repr

/-- An item under the fence of its Run. -/
structure ClaimedItem where
  ordinal : Nat
  fence : Nat
  deriving DecidableEq, Repr

/-- The claim that a worker holds on a Batch. -/
structure ResearchBatchClaim where
  attemptId : AttemptId
  fence : Nat
  generationPinId : PinId
  items : List ClaimedItem
  deriving DecidableEq, Repr

end ThesisTrace.ResearchBatch
