import ThesisTrace.Library.Execution
import ThesisTrace.ResearchBatch.Transactions

/-!
# Interleavings of Research Batch transactions

Any number of workers issue the transactions of one Batch, each with a claim that a claim
transaction handed out, and callers cancel it and delete its children. A transaction that rolls
back changes nothing.
-/

namespace ThesisTrace.ResearchBatch
open Transaction LabelledTransition
open ResearchRun (AttemptId PinId Timestamp)

inductive Action
  | tick (clock : Timestamp)
  | claim (attemptId : AttemptId) (pinId : PinId) (exited : Bool)
  | activate (claim : ResearchBatchClaim) (childPid : Nat)
  | childExit (claim : ResearchBatchClaim) (childPid : Nat) (exitCode : Int) (acknowledged : Bool)
  | heartbeat (claim : ResearchBatchClaim)
  | startItem (claim : ResearchBatchClaim) (ordinal : Nat)
  | startSharedAlphaFactor (claim : ResearchBatchClaim) (reused : Bool)
  | acknowledgePrivateArtifact (claim : ResearchBatchClaim) (reused : Bool)
  | failSharedAlphaFactor (claim : ResearchBatchClaim)
  | completeItem (claim : ResearchBatchClaim) (ordinal : Nat)
  | failItem (claim : ResearchBatchClaim) (ordinal : Nat) (publicReason : String)
      (diagnostic : Option ResearchBatchDiagnostic)
  | finishSuccessful (claim : ResearchBatchClaim) (exited : Bool)
  | finishInterrupted (claim : ResearchBatchClaim) (error : ExecutionError) (exited : Bool)
  | finishInterruptedStart (claim : ResearchBatchClaim) (error : ExecutionError) (exited : Bool)
  | finishCancelling (claim : ResearchBatchClaim) (exited : Bool)
  | cancel
  | reconcileCancelling (exited : Bool)
  | deleteRun (ordinal : Nat)
  deriving DecidableEq

structure World where
  batch : Batch
  claims : List ResearchBatchClaim
  deriving DecidableEq

/-- The claim under which a worker acts. -/
def Action.holder : Action → Option ResearchBatchClaim
  | .tick _ | .claim .. | .cancel | .reconcileCancelling _ | .deleteRun _ => none
  | .activate owned _ | .childExit owned .. | .heartbeat owned | .startItem owned _
  | .startSharedAlphaFactor owned _ | .acknowledgePrivateArtifact owned _
  | .failSharedAlphaFactor owned | .completeItem owned _ | .failItem owned ..
  | .finishSuccessful owned _ | .finishInterrupted owned .. | .finishInterruptedStart owned ..
  | .finishCancelling owned _ => some owned

/-- What an action does to the Batch, apart from handing out claims. -/
def transact (leaseSeconds : Nat) (s : Batch) : Action → Except Refusal Batch
  | .tick clock => do
    require (s.clock ≤ clock) Refusal.notClaimable
    return { s with clock := clock }
  | .claim attemptId pinId exited => (claimNext s attemptId pinId exited leaseSeconds).map Prod.fst
  | .activate claim childPid => activateStartingClaim s claim childPid
  | .childExit claim childPid exitCode acknowledged =>
    recordChildExit s claim childPid exitCode acknowledged
  | .heartbeat claim => heartbeatClaim s claim leaseSeconds
  | .startItem claim ordinal => startItem s claim ordinal
  | .startSharedAlphaFactor claim reused => startSharedAlphaFactor s claim reused
  | .acknowledgePrivateArtifact claim reused => acknowledgePrivateArtifact s claim reused
  | .failSharedAlphaFactor claim => failSharedAlphaFactor s claim
  | .completeItem claim ordinal => completeBatchOwnedItem s claim ordinal
  | .failItem claim ordinal publicReason diagnostic =>
    failBatchOwnedItem s claim ordinal publicReason diagnostic
  | .finishSuccessful claim exited => finishSuccessfulAttempt s claim exited
  | .finishInterrupted claim error exited => finishInterrupted s claim error exited
  | .finishInterruptedStart claim error exited => finishInterruptedStart s claim error exited
  | .finishCancelling claim exited => finishCancellingClaim s claim exited
  | .cancel => cancel s
  | .reconcileCancelling exited => reconcileCancellingBatch s exited
  | .deleteRun ordinal => deleteRun s ordinal

/-- The claim that a claim transaction hands out. -/
def newClaim (leaseSeconds : Nat) (s : Batch) : Action → Option ResearchBatchClaim
  | .claim attemptId pinId exited =>
    ((claimNext s attemptId pinId exited leaseSeconds).toOption.bind Prod.snd)
  | _ => none

def step (leaseSeconds : Nat) (w : World) (a : Action) : Except Refusal World := do
  require (∀ claim ∈ a.holder, claim ∈ w.claims) Refusal.notFound
  let batch ← transact leaseSeconds w.batch a
  return { batch := batch, claims := w.claims ++ (newClaim leaseSeconds w.batch a).toList }

/-- A transaction commits, or leaves everything as it was. -/
def World.after (leaseSeconds : Nat) (w : World) (a : Action) : World :=
  (step leaseSeconds w a).toOption.getD w

def World.run (leaseSeconds : Nat) (w : World) (actions : List Action) : World :=
  actions.foldl (World.after leaseSeconds) w

/-! ### Admission -/

def admittedItem (index : Nat) : Item where
  ordinal := index + 1
  outcome := none
  diagnostic := none
  runDeleted := false
  run := some ⟨.queued, 0, none⟩

/-- An admitted Batch of a kind, with its children. -/
def admitted (kind : BatchKind) (total : Nat) : World where
  batch :=
    { clock := 0
      kind := kind
      status := .queued
      executionFence := 0
      items := (List.range total).map admittedItem
      attempts := []
      startingClaim := none
      taskAttempts := []
      progress :=
        { completedItems := 0
          totalItems := total
          sharedAlphaFactorStatus := if kind = .strategySweep then some .pending else none }
      privateArtifact := none
      pins := []
      retention := true }
  claims := []

end ThesisTrace.ResearchBatch
