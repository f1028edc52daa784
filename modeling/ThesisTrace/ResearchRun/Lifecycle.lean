import ThesisTrace.Library.Execution
import ThesisTrace.ResearchRun.Transactions

/-!
# Interleavings of Research Run transactions

Any number of workers and callers issue transactions on any number of Runs. A worker acts
only with a claim, or a worker-loss recovery, that a claim transaction handed out.
-/

namespace ThesisTrace.ResearchRun
open Transaction LabelledTransition

variable {Digest : Type} [DecidableEq Digest]

inductive Action (Digest : Type)
  | tick (clock : Timestamp)
  | admitRun (runId : RunId) (researcherId : ResearcherId) (input : ImmutableRunInput)
      (executionOwner : ExecutionOwner)
  | claim (runId : RunId) (attemptId : AttemptId) (pinId : PinId) (dataThroughSession : Session)
      (generationMatches : Bool)
  | finishExhausted (recovery : WorkerLossRecovery)
  | heartbeat (claim : ResearchRunExecutionClaim)
  | commit (claim : ResearchRunExecutionClaim) (chunk : StagedChunk Digest)
      (expectedPrior : Option (Nat × Digest))
  | publish (claim : ResearchRunExecutionClaim)
      (resultObjects : List (String × StagedPayload Digest))
      (holdingObjects : Option (List (String × StagedPayload Digest)))
  | fail (claim : ResearchRunExecutionClaim) (attemptReason : AttemptFailure)
      (publicReason : String)
  | cancel (researcherId : ResearcherId) (runId : RunId) (requestId : RequestId)
  | confirmCancelled (claim : ResearchRunExecutionClaim)
  | recoverCancelled (runId : RunId) (attemptId : AttemptId)
  | delete (researcherId : ResearcherId) (runId : RunId) (stillReferenced : Bool)

/-- The Run whose rows a transaction may change. -/
def Action.runId : Action Digest → Option RunId
  | .tick _ => none
  | .admitRun runId .. | .claim runId .. | .cancel _ runId _ | .recoverCancelled runId _
  | .delete _ runId _ => some runId
  | .finishExhausted recovery => some recovery.runId
  | .heartbeat holder | .commit holder .. | .publish holder .. | .fail holder ..
  | .confirmCancelled holder => some holder.runId

structure World (Digest : Type) where
  db : Database Digest
  claims : List ResearchRunExecutionClaim
  recoveries : List WorkerLossRecovery

def World.empty : World Digest := ⟨.empty, [], []⟩

/-- A worker learns the outcome of its claim transaction. -/
def World.learn (w : World Digest) (outcome : Database Digest × ClaimResult) : World Digest :=
  match outcome with
  | (db, .claimed claim) => { w with db := db, claims := w.claims ++ [claim] }
  | (db, .exhausted recovery) => { w with db := db, recoveries := w.recoveries ++ [recovery] }

def step (sha256 : Document Digest → Digest) (leaseSeconds : Nat) (w : World Digest) :
    Action Digest → Except Refusal (World Digest)
  | .tick clock => do
    require (w.db.clock ≤ clock) Refusal.notClaimable
    return { w with db := { w.db with clock := clock } }
  | .admitRun runId researcherId input executionOwner => do
    let db ← admitRun w.db runId researcherId input executionOwner
    return { w with db := db }
  | .claim runId attemptId pinId dataThroughSession generationMatches => do
    let outcome ← claimNext w.db runId attemptId pinId dataThroughSession generationMatches
      leaseSeconds
    return w.learn outcome
  | .finishExhausted recovery => do
    require (recovery ∈ w.recoveries) Refusal.notFound
    let db ← finishExhaustedWorkerLoss w.db recovery
    return { w with db := db }
  | .heartbeat claim => do
    require (claim ∈ w.claims) Refusal.notFound
    let db ← heartbeatClaim w.db claim leaseSeconds
    return { w with db := db }
  | .commit claim chunk expectedPrior => do
    require (claim ∈ w.claims) Refusal.notFound
    let db ← commitExecutionChunk sha256 w.db claim chunk expectedPrior
    return { w with db := db }
  | .publish claim resultObjects holdingObjects => do
    require (claim ∈ w.claims) Refusal.notFound
    let db ← publishSuccess sha256 w.db claim resultObjects holdingObjects
    return { w with db := db }
  | .fail claim attemptReason publicReason => do
    require (claim ∈ w.claims) Refusal.notFound
    let db ← recordFailure w.db claim attemptReason publicReason
    return { w with db := db }
  | .cancel researcherId runId requestId => do
    let db ← cancel w.db researcherId runId requestId
    return { w with db := db }
  | .confirmCancelled claim => do
    require (claim ∈ w.claims) Refusal.notFound
    let db ← confirmCancelled w.db claim
    return { w with db := db }
  | .recoverCancelled runId attemptId => do
    let db ← recoverCancelledAttempt w.db runId attemptId
    return { w with db := db }
  | .delete researcherId runId stillReferenced => do
    let db ← delete w.db researcherId runId stillReferenced
    return { w with db := db }

/-- A transaction that committed. -/
def Step (sha256 : Document Digest → Digest) (leaseSeconds : Nat) (w : World Digest)
    (a : Action Digest) (w' : World Digest) : Prop :=
  step sha256 leaseSeconds w a = .ok w'

/-- Commit one transaction after another. -/
def run (sha256 : Document Digest → Digest) (leaseSeconds : Nat) (w : World Digest)
    (trace : List (Action Digest)) : Except Refusal (World Digest) :=
  trace.foldlM (step sha256 leaseSeconds) w

theorem exec_of_run {sha256 : Document Digest → Digest} {leaseSeconds : Nat}
    {w w' : World Digest} {trace : List (Action Digest)}
    (h : run sha256 leaseSeconds w trace = .ok w') :
    Exec (Step sha256 leaseSeconds) w trace w' := by
  induction trace generalizing w with
  | nil =>
    simp only [run, List.foldlM_nil, pure_ok_iff] at h
    exact h ▸ .nil
  | cons a rest ih =>
    simp only [run, List.foldlM_cons, bind_ok_iff] at h
    obtain ⟨next, hstep, hrest⟩ := h
    exact (Exec.single hstep).trans (ih hrest)

end ThesisTrace.ResearchRun
