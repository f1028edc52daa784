import ThesisTrace.ResearchBatch.Schema

/-!
# Research Batch transactions

One definition per database transaction of the Batch service, with the parts that the Run service
adds to it. A transaction commits with new rows or rolls back with a `Refusal`. Whether a child
process has exited is an argument, as the lock files tell it.
-/

namespace ThesisTrace.ResearchBatch
open Transaction
open ResearchRun (AttemptId PinId Timestamp RunStatus GenerationPin updateRows activePin)

inductive Refusal
  | notFound
  | fenced
  | notClaimable
  | overlappingClaims
  | childExitNotConfirmed
  | childProjectionIncomplete
  | childNotTerminal
  | taskActive
  | taskRetryLimit
  | taskUnavailable
  | itemAlreadyComplete
  | outcomesIncomplete
  | progressInconsistent
  | sharedProgress
  | privateArtifactRejected
  | cancelStateConflict
  | deleteConflict
  | dataLifecycle
  deriving DecidableEq, Repr

/-! ### Items -/

def Item.incomplete (item : Item) : Bool := item.outcome.isNone

/-- `WHERE outcome IS NULL ORDER BY ordinal`; the items are kept in their order. -/
def incompleteItems (items : List Item) : List Item := items.filter Item.incomplete

def outcomes (items : List Item) : List (Option Outcome) := items.map Item.outcome

/-- `UPDATE` the selected items among those without an outcome. -/
def updateIncomplete (items : List Item) (selected : Item → Bool) (change : Item → Item) :
    List Item :=
  updateRows items (fun item => item.incomplete && selected item) change

/-- The incomplete item of an ordinal. -/
def incompleteItem (items : List Item) (ordinal : Nat) : Option Item :=
  (incompleteItems items).find? fun item => item.ordinal = ordinal

def Item.finish (item : Item) (outcome : Outcome) (diagnostic : Option ResearchBatchDiagnostic)
    (failureReason : Option String) : Item :=
  { item with
    outcome := some outcome
    diagnostic := diagnostic
    run := item.run.map fun run =>
      { run with status := outcome.runStatus, failureReason := failureReason } }

/-! ### Child Runs -/

def Item.runQueued (item : Item) : Bool := item.run.any fun run => run.status = .queued

/-- A Run that may be reset or cancelled. -/
def Item.runUnfinished (item : Item) : Bool :=
  item.run.any fun run => run.status = .queued ∨ run.status = .running

/-- `_transition_incomplete_batch_owned_executions_in_transaction` on one row -/
def ChildRun.transition (targetStatus : RunStatus) (run : ChildRun) : ChildRun :=
  { status := targetStatus
    executionFence := if run.status = .running then run.executionFence + 1 else run.executionFence
    failureReason := none }

def ChildRun.begin (run : ChildRun) : ChildRun :=
  { status := .running, executionFence := run.executionFence + 1, failureReason := none }

def Item.mapRun (item : Item) (change : ChildRun → ChildRun) : Item :=
  { item with run := item.run.map change }

def beginBatchOwnedExecutions (items : List Item) : Except Refusal (List Item) := do
  require ((incompleteItems items).all Item.runQueued) Refusal.fenced
  return updateIncomplete items (fun _ => true) fun item => item.mapRun ChildRun.begin

def resetIncompleteBatchOwnedExecutions (items : List Item) : Except Refusal (List Item) := do
  require ((incompleteItems items).all Item.runUnfinished) Refusal.fenced
  return updateIncomplete items (fun _ => true) fun item =>
    item.mapRun (ChildRun.transition .queued)

/-- The Runs and their items, in one step. -/
def cancelIncompleteItems (items : List Item) : Except Refusal (List Item) := do
  require ((incompleteItems items).all Item.runUnfinished) Refusal.fenced
  return updateIncomplete items (fun _ => true) fun item =>
    (item.mapRun (ChildRun.transition .cancelled)).finish .cancelled none none

/-! ### Pins -/

def pinGeneration (s : Batch) (pinId : PinId) (ownerId : AttemptId) (leaseSeconds : Nat) :
    Except Refusal Batch := do
  require (∀ pin ∈ s.pins, pin.id ≠ pinId ∧ pin.ownerId ≠ ownerId) Refusal.dataLifecycle
  return { s with pins := s.pins ++ [⟨pinId, ownerId, .active, s.clock + leaseSeconds⟩] }

def releasePin (s : Batch) (pinId : PinId) (ownerId : AttemptId) : Except Refusal Batch := do
  require (s.pins.countP (activePin pinId ownerId) = 1) Refusal.dataLifecycle
  return { s with
    pins := updateRows s.pins (activePin pinId ownerId) fun pin =>
      { pin with status := .released } }

def heartbeatPin (s : Batch) (pinId : PinId) (ownerId : AttemptId) (leaseSeconds : Nat) :
    Except Refusal Batch := do
  require (s.pins.any (activePin pinId ownerId)) Refusal.dataLifecycle
  return { s with
    pins := updateRows s.pins (activePin pinId ownerId) fun pin =>
      { pin with leaseExpiresAt := s.clock + leaseSeconds } }

/-! ### Claiming -/

/-- `coalesce(max(ordinal), 0) + 1` over the attempts. -/
def nextOrdinal (attempts : List Attempt) : Nat :=
  (attempts.map Attempt.ordinal).foldr max 0 + 1

/-- The claim of a queued Batch. -/
def claimQueued (s : Batch) (attemptId : AttemptId) (pinId : PinId) (leaseSeconds : Nat) :
    Except Refusal (Batch × ResearchBatchClaim) := do
  let fence := s.executionFence + 1
  let pinned ← pinGeneration s pinId attemptId leaseSeconds
  require (incompleteItems s.items ≠ []) Refusal.notClaimable
  let items ← beginBatchOwnedExecutions s.items
  require (s.status = .queued) Refusal.fenced
  require (s.startingClaim = none) Refusal.overlappingClaims
  let claim : ResearchBatchClaim :=
    { attemptId := attemptId
      fence := fence
      generationPinId := pinId
      items := (incompleteItems items).map fun item =>
        ⟨item.ordinal, (item.run.map ChildRun.executionFence).getD 0⟩ }
  let claimed := { pinned with
    items := items
    status := .running
    executionFence := fence
    startingClaim := some
      ⟨attemptId, max (nextOrdinal s.attempts) fence, fence, pinId, s.clock + leaseSeconds⟩
    retention := false }
  return (claimed, claim)

def claimedAttempt (claim : ResearchBatchClaim) (attempt : Attempt) : Bool :=
  attempt.id = claim.attemptId ∧ attempt.fence = claim.fence

def claimedStart (claim : ResearchBatchClaim) (starting : StartingClaim) : Bool :=
  starting.id = claim.attemptId ∧ starting.fence = claim.fence

/-- `_authorize_claim_in_transaction` -/
def authorizeClaim (s : Batch) (claim : ResearchBatchClaim) : Except Refusal Unit := do
  let attempt ← found (s.attempts.find? (claimedAttempt claim)) Refusal.fenced
  require (s.clock < attempt.leaseExpiresAt ∧ s.status = .running ∧
    s.executionFence = claim.fence ∧ attempt.status = .running ∧
    attempt.generationPinId = claim.generationPinId) Refusal.fenced

/-- `_activate_starting_claim_in_transaction` -/
def activateStartingClaim (s : Batch) (claim : ResearchBatchClaim) (childPid : Nat) :
    Except Refusal Batch := do
  let starting ← found (s.startingClaim.filter (claimedStart claim)) Refusal.fenced
  require (s.clock < starting.leaseExpiresAt) Refusal.fenced
  require (∀ attempt ∈ s.attempts, attempt.id ≠ starting.id ∧ attempt.ordinal ≠ starting.ordinal ∧
    attempt.generationPinId ≠ starting.generationPinId) Refusal.fenced
  let attempt : Attempt :=
    { id := claim.attemptId
      ordinal := starting.ordinal
      fence := claim.fence
      generationPinId := starting.generationPinId
      status := .running
      leaseExpiresAt := starting.leaseExpiresAt
      failureReason := none
      failureDiagnostic := none
      childPid := childPid
      childExit := none }
  return { s with attempts := s.attempts ++ [attempt], startingClaim := none }

/-- The event of a child that exited. -/
def recordChildExit (s : Batch) (claim : ResearchBatchClaim) (childPid : Nat) (exitCode : Int)
    (acknowledged : Bool) : Except Refusal Batch :=
  let own : Attempt → Bool := fun attempt => claimedAttempt claim attempt ∧
    attempt.childPid = childPid
  if s.attempts.any fun attempt => own attempt ∧ attempt.childExit = none then
    .ok { s with
      attempts := updateRows s.attempts (fun attempt => own attempt ∧ attempt.childExit = none)
        fun attempt => { attempt with childExit := some (exitCode, acknowledged) } }
  else if (s.startingClaim.filter (claimedStart claim)).isSome then .ok s
  else if s.attempts.any fun attempt =>
      own attempt ∧ attempt.childExit = some (exitCode, acknowledged) then .ok s
  else .error .fenced

/-- A heartbeat that finds neither the attempt nor the starting claim changes nothing. -/
def heartbeatClaim (s : Batch) (claim : ResearchBatchClaim) (leaseSeconds : Nat) :
    Except Refusal Batch :=
  let live := s.status = .running ∧ s.executionFence = claim.fence
  let attempt : Attempt → Bool := fun attempt => claimedAttempt claim attempt ∧
    attempt.status = .running ∧ s.clock < attempt.leaseExpiresAt
  if live ∧ s.attempts.any attempt then
    heartbeatPin { s with
      attempts := updateRows s.attempts attempt fun attempt =>
        { attempt with leaseExpiresAt := s.clock + leaseSeconds } }
      claim.generationPinId claim.attemptId leaseSeconds
  else if live ∧ s.startingClaim.any fun starting =>
      claimedStart claim starting ∧ s.clock < starting.leaseExpiresAt then
    heartbeatPin { s with
      startingClaim := s.startingClaim.map fun starting =>
        { starting with leaseExpiresAt := s.clock + leaseSeconds } }
      claim.generationPinId claim.attemptId leaseSeconds
  else .ok s

/-! ### Tasks -/

/-- The guard of a live progress event. -/
def authorizeLiveProgress (s : Batch) (claim : ResearchBatchClaim) : Except Refusal Unit := do
  let attempt ← found (s.attempts.find? (claimedAttempt claim)) Refusal.fenced
  require (attempt.status = .running ∧ s.clock < attempt.leaseExpiresAt ∧ s.status = .running ∧
    s.executionFence = claim.fence) Refusal.fenced

def TaskAttempt.isRunning (task : TaskAttempt) : Bool := task.status = .running

/-- `coalesce(max(ordinal), 0) + 1` over the attempts of one task. -/
def nextTaskOrdinal (tasks : List TaskAttempt) (role : TaskRole) (itemOrdinal : Option Nat) : Nat :=
  ((tasks.filter fun task => task.taskRole = role ∧ task.itemOrdinal = itemOrdinal).map
    TaskAttempt.ordinal).foldr max 0 + 1

def insertTaskAttempt (s : Batch) (claim : ResearchBatchClaim) (role : TaskRole)
    (itemOrdinal : Option Nat) : Except Refusal Batch := do
  let ordinal := nextTaskOrdinal s.taskAttempts role itemOrdinal
  require (ordinal ≤ maxTaskAttempts) Refusal.taskRetryLimit
  let task : TaskAttempt :=
    { itemOrdinal := itemOrdinal
      taskRole := role
      ordinal := ordinal
      batchAttemptId := claim.attemptId
      fence := claim.fence
      status := .running
      failureReason := none
      failureDiagnostic := none }
  return { s with taskAttempts := s.taskAttempts ++ [task] }

/-- `_ensure_factor_task_attempt_in_transaction` -/
def ensureFactorTaskAttempt (s : Batch) (claim : ResearchBatchClaim) (itemOrdinal : Nat) :
    Except Refusal Batch :=
  match s.taskAttempts.find? TaskAttempt.isRunning with
  | some running => do
    require (running.itemOrdinal = some itemOrdinal) Refusal.taskActive
    return s
  | none => do
    require (s.items.any fun item => item.ordinal = itemOrdinal) Refusal.taskUnavailable
    insertTaskAttempt s claim .factor (some itemOrdinal)

def strategyTaskRole (kind : BatchKind) (itemOrdinal : Option Nat) : TaskRole :=
  if kind = .independentStrategies then .independentStrategy
  else if itemOrdinal = none then .sharedAlphaFactor else .strategy

/-- `_ensure_strategy_task_attempt_in_transaction` -/
def ensureStrategyTaskAttempt (s : Batch) (claim : ResearchBatchClaim) (itemOrdinal : Option Nat) :
    Except Refusal Batch :=
  let role := strategyTaskRole s.kind itemOrdinal
  let considered : TaskAttempt → Bool := fun task =>
    task.isRunning && (s.kind ≠ .independentStrategies || task.itemOrdinal = itemOrdinal)
  match s.taskAttempts.find? considered with
  | some running => do
    require (running.taskRole = role ∧ running.itemOrdinal = itemOrdinal) Refusal.taskActive
    return s
  | none => do
    require (∀ ordinal ∈ itemOrdinal, (incompleteItem s.items ordinal).isSome)
      Refusal.taskUnavailable
    insertTaskAttempt s claim role itemOrdinal

def ensureTaskAttempt (s : Batch) (claim : ResearchBatchClaim) (itemOrdinal : Nat) :
    Except Refusal Batch :=
  if s.kind = .factorEvaluation then ensureFactorTaskAttempt s claim itemOrdinal
  else ensureStrategyTaskAttempt s claim (some itemOrdinal)

/-- The event of an item that started. -/
def startItem (s : Batch) (claim : ResearchBatchClaim) (itemOrdinal : Nat) :
    Except Refusal Batch := do
  let ensured ← ensureTaskAttempt s claim itemOrdinal
  authorizeLiveProgress ensured claim
  return ensured

def Batch.setSharedAlphaFactorStatus (s : Batch) (status : SharedAlphaFactorStatus) : Batch :=
  { s with progress := { s.progress with sharedAlphaFactorStatus := some status } }

def ensureSharedTaskAttempt (s : Batch) (claim : ResearchBatchClaim) (reused : Bool) :
    Except Refusal Batch :=
  if s.kind = .strategySweep ∧ reused = false then ensureStrategyTaskAttempt s claim none
  else .ok s

/-- The event of a shared task that started. -/
def startSharedAlphaFactor (s : Batch) (claim : ResearchBatchClaim) (reused : Bool) :
    Except Refusal Batch := do
  let ensured ← ensureSharedTaskAttempt s claim reused
  authorizeLiveProgress ensured claim
  if ensured.progress.sharedAlphaFactorStatus = some .pending then
    return ensured.setSharedAlphaFactorStatus .running
  require (ensured.progress.sharedAlphaFactorStatus = some .succeeded ∧
    ensured.privateArtifact.isSome) Refusal.sharedProgress
  return ensured

/-- The running task attempts of a claim. -/
def claimedTask (attemptId : AttemptId) (fence : Nat) (task : TaskAttempt) : Bool :=
  task.batchAttemptId = attemptId ∧ task.fence = fence ∧ task.status = .running

def sharedTask (claim : ResearchBatchClaim) (task : TaskAttempt) : Bool :=
  claimedTask claim.attemptId claim.fence task ∧ task.taskRole = .sharedAlphaFactor

/-- `UPDATE` exactly one row. -/
def updateOne {Row : Type} (rows : List Row) (selected : Row → Bool) (change : Row → Row)
    (refusal : Refusal) : Except Refusal (List Row) := do
  require (rows.countP selected = 1) refusal
  return updateRows rows selected change

/-- `_acknowledge_private_artifact`; a reused artifact is only compared. -/
def acknowledgePrivateArtifact (s : Batch) (claim : ResearchBatchClaim) (reused : Bool) :
    Except Refusal Batch := do
  authorizeClaim s claim
  if reused then
    require s.privateArtifact.isSome Refusal.privateArtifactRejected
    return s
  require (s.privateArtifact = none) Refusal.privateArtifactRejected
  let tasks ← updateOne s.taskAttempts (sharedTask claim)
    (fun task => { task with status := .succeeded }) Refusal.fenced
  require (s.progress.sharedAlphaFactorStatus = some .running) Refusal.sharedProgress
  return { s.setSharedAlphaFactorStatus .succeeded with
    taskAttempts := tasks
    privateArtifact := some (claim.attemptId, claim.fence) }

def sharedAlphaFactorFailed : ResearchBatchDiagnostic :=
  ⟨"SHARED_ALPHA_FACTOR_FAILED", "execution", "Shared Alpha-and-Factor calculation failed."⟩

def TaskAttempt.fail (task : TaskAttempt) (reason : String) (diagnostic : ResearchBatchDiagnostic) :
    TaskAttempt :=
  { task with
    status := .failed
    failureReason := some reason
    failureDiagnostic := some diagnostic }

/-- `_fail_shared_alpha_factor` -/
def failSharedAlphaFactor (s : Batch) (claim : ResearchBatchClaim) : Except Refusal Batch := do
  authorizeClaim s claim
  let tasks ← updateOne s.taskAttempts (sharedTask claim)
    (fun task => task.fail factorTaskPermanentFailure sharedAlphaFactorFailed) Refusal.fenced
  require (s.progress.sharedAlphaFactorStatus = some .running) Refusal.sharedProgress
  return { s.setSharedAlphaFactorStatus .failed with taskAttempts := tasks }

/-! ### Items that end -/

def itemTaskRole : BatchKind → TaskRole
  | .factorEvaluation => .factor
  | .independentStrategies => .independentStrategy
  | .strategySweep => .strategy

/-- The running task of an item. -/
def itemTask (s : Batch) (claim : ResearchBatchClaim) (ordinal : Nat) (task : TaskAttempt) : Bool :=
  claimedTask claim.attemptId claim.fence task ∧ task.itemOrdinal = some ordinal ∧
    task.taskRole = itemTaskRole s.kind

/-- An item of a sweep may fail with the shared task, before it has a task of its own. -/
def finishItemTask (s : Batch) (claim : ResearchBatchClaim) (ordinal : Nat)
    (change : TaskAttempt → TaskAttempt) : Except Refusal (List TaskAttempt) := do
  if s.taskAttempts.countP (itemTask s claim ordinal) = 1 then
    return updateRows s.taskAttempts (itemTask s claim ordinal) change
  require (s.kind = .strategySweep ∧ s.taskAttempts.any (sharedTask claim)) Refusal.fenced
  return s.taskAttempts

/-- `_complete_item_in_transaction`, together with the update of the child Run. -/
def completeItem (s : Batch) (claim : ResearchBatchClaim) (ordinal : Nat) (outcome : Outcome)
    (publicReason : Option String) (diagnostic : Option ResearchBatchDiagnostic) :
    Except Refusal Batch := do
  authorizeClaim s claim
  let diagnostic := diagnostic <|> publicReason.map fun reason =>
    ⟨"RESEARCH_ITEM_FAILED", "execution", reason⟩
  let tasks ← finishItemTask s claim ordinal fun task =>
    if outcome = .succeeded then { task with status := .succeeded }
    else { task with
      status := .failed
      failureReason := some (publicReason.getD "FactorTaskFailed")
      failureDiagnostic := diagnostic }
  require (incompleteItem s.items ordinal).isSome Refusal.itemAlreadyComplete
  require (s.progress.completedItems + 1 ≤ s.progress.totalItems) Refusal.progressInconsistent
  return { s with
    taskAttempts := tasks
    items := updateIncomplete s.items (fun item => item.ordinal = ordinal) fun item =>
      item.finish outcome diagnostic publicReason
    progress := { s.progress with completedItems := s.progress.completedItems + 1 } }

/-- The item that a claim holds at an ordinal, with the row of its Run. -/
def claimedRun (s : Batch) (claim : ResearchBatchClaim) (ordinal : Nat) :
    Option (ClaimedItem × Option ChildRun) := do
  let claimed ← claim.items.find? fun item => item.ordinal = ordinal
  let item ← s.items.find? fun item => item.ordinal = ordinal
  return (claimed, item.run)

/-- `complete_batch_owned_factor_item` and `complete_batch_owned_strategy_item` -/
def completeBatchOwnedItem (s : Batch) (claim : ResearchBatchClaim) (ordinal : Nat) :
    Except Refusal Batch := do
  authorizeClaim s claim
  let (claimed, row) ← found (claimedRun s claim ordinal) Refusal.notFound
  require (row.any fun run => run.status = .running ∧ run.executionFence = claimed.fence)
    Refusal.fenced
  completeItem s claim ordinal .succeeded none none

/-- `fail_batch_owned_item`; a terminal Run is left as it is. -/
def failBatchOwnedItem (s : Batch) (claim : ResearchBatchClaim) (ordinal : Nat)
    (publicReason : String) (diagnostic : Option ResearchBatchDiagnostic) :
    Except Refusal Batch := do
  authorizeClaim s claim
  let (claimed, row) ← found (claimedRun s claim ordinal) Refusal.notFound
  let run ← found row Refusal.fenced
  require (run.executionFence = claimed.fence) Refusal.fenced
  if run.status.terminal then
    return s
  require (run.status = .running) Refusal.fenced
  completeItem s claim ordinal .failed (some publicReason) diagnostic

/-- `_fail_recovered_item_in_transaction` -/
def failRecoveredItem (diagnostic : ResearchBatchDiagnostic) (s : Batch) (ordinal : Nat) :
    Except Refusal Batch := do
  let item ← found (incompleteItem s.items ordinal) Refusal.itemAlreadyComplete
  require item.runQueued Refusal.fenced
  require (s.progress.completedItems < s.progress.totalItems) Refusal.progressInconsistent
  return { s with
    items := updateIncomplete s.items (fun item => item.ordinal = ordinal) fun item =>
      item.finish .failed (some diagnostic) (some diagnostic.message)
    progress := { s.progress with completedItems := s.progress.completedItems + 1 } }

/-- The same for each of the items, in their order. -/
def failRecoveredItems (diagnostic : ResearchBatchDiagnostic) (s : Batch) (items : List Item) :
    Except Refusal Batch :=
  (items.map Item.ordinal).foldlM (failRecoveredItem diagnostic) s

/-! ### The end of a Batch -/

/-- The status that belongs to a number of successes. -/
def terminalStatus (succeeded total : Nat) : BatchStatus :=
  if succeeded = total then .succeeded
  else if succeeded ≠ 0 then .completedWithFailures
  else .failed

/-- `_terminal_status_from_items_in_transaction` -/
def terminalStatusFromItems (items : List Item) : Except Refusal BatchStatus := do
  require ((outcomes items).count none = 0) Refusal.outcomesIncomplete
  return terminalStatus ((outcomes items).count (some .succeeded)) items.length

/-- `project_child_statuses_in_transaction` over some of the items. -/
def projectChildStatuses (items : List Item) : Except Refusal (List RunStatus) :=
  items.mapM fun item =>
    (found item.run Refusal.childProjectionIncomplete).map ChildRun.status

/-- `_refresh_progress_in_transaction` -/
def refreshProgress (s : Batch) : Except Refusal Unit :=
  require ((outcomes s.items).countP Option.isSome = s.progress.completedItems ∧
    s.items.length = s.progress.totalItems) Refusal.progressInconsistent

/-- `_finish_successful_attempt` -/
def finishSuccessfulAttempt (s : Batch) (claim : ResearchBatchClaim) (exited : Bool) :
    Except Refusal Batch := do
  let child ← found (s.attempts.find? (claimedAttempt claim)) Refusal.childExitNotConfirmed
  require (child.childExit.any (fun exit => exit.2) ∧ exited) Refusal.childExitNotConfirmed
  let statuses ← projectChildStatuses s.items
  require (statuses.all RunStatus.terminal) Refusal.childNotTerminal
  let attempts ← updateOne s.attempts
    (fun attempt => claimedAttempt claim attempt ∧ attempt.status = .running)
    (fun attempt => { attempt with
      status := .succeeded
      leaseExpiresAt := s.clock
      failureReason := none
      failureDiagnostic := none }) Refusal.fenced
  require (s.executionFence = claim.fence ∧ s.status = .running) Refusal.fenced
  let finished := { s with
    status := terminalStatus (statuses.count .succeeded) statuses.length
    attempts := attempts
    privateArtifact := if s.kind = .strategySweep then none else s.privateArtifact }
  let released ← releasePin finished claim.generationPinId claim.attemptId
  refreshProgress released
  return released

/-! ### Interrupted attempts -/

/-- A running attempt, whose lease has expired if that is required. -/
def closableAttempt (s : Batch) (attemptId : AttemptId) (fence : Nat) (requireExpired : Bool)
    (attempt : Attempt) : Bool :=
  attempt.id = attemptId ∧ attempt.fence = fence ∧ attempt.status = .running ∧
    (requireExpired = false ∨ attempt.leaseExpiresAt ≤ s.clock)

/-- What an attempt leaves open: its tasks, the items without an outcome and its ordinal. -/
structure Interrupted where
  tasks : List TaskAttempt
  incomplete : List Item
  attemptOrdinal : Nat

/-- `_close_interrupted_attempt_in_transaction` -/
def closeInterruptedAttempt (s : Batch) (attemptId : AttemptId) (fence : Nat)
    (diagnostic : ResearchBatchDiagnostic) (policy : TaskFailurePolicy) (requireExpired : Bool) :
    Except Refusal (Batch × Interrupted) := do
  let tasks := s.taskAttempts.filter (claimedTask attemptId fence)
  let closable := closableAttempt s attemptId fence requireExpired
  let attempts ← updateOne s.attempts closable (fun attempt => { attempt with
    status := .failed
    leaseExpiresAt := s.clock
    failureReason := some policy.attemptReason
    failureDiagnostic := some diagnostic }) Refusal.fenced
  let closed ← found (s.attempts.find? closable) Refusal.fenced
  let items ← resetIncompleteBatchOwnedExecutions s.items
  let closedBatch := { s with
    taskAttempts := updateRows s.taskAttempts (claimedTask attemptId fence) fun task =>
      task.fail policy.attemptReason diagnostic
    attempts := attempts
    items := items }
  return (closedBatch, ⟨tasks, incompleteItems s.items, closed.ordinal⟩)

def releaseArtifact (s : Batch) (release : Bool) : Batch :=
  { s with privateArtifact := if release then none else s.privateArtifact }

/-- The Batch is queued again, or ends with its items. -/
def leaveRunning (s : Batch) (fence : Nat) (status : BatchStatus) : Except Refusal Batch := do
  require (s.status = .running ∧ s.executionFence = fence) Refusal.fenced
  return { s with status := status }

/-- `_finish_interrupted_attempt_in_transaction` -/
def finishInterruptedAttempt (s : Batch) (attemptId : AttemptId) (fence : Nat)
    (generationPinId : PinId) (releaseArtifactWhenTerminal : Bool) : Except Refusal Batch := do
  let released ← releasePin s generationPinId attemptId
  if incompleteItems released.items ≠ [] then
    leaveRunning released fence .queued
  else
    let status ← terminalStatusFromItems released.items
    leaveRunning (releaseArtifact released releaseArtifactWhenTerminal) fence status

/-- The item of a task among the incomplete ones. -/
def taskItem (interrupted : Interrupted) (task : TaskAttempt) : Option Item :=
  interrupted.incomplete.find? fun item => task.itemOrdinal = some item.ordinal

def retryExhausted (policy : TaskFailurePolicy) (ordinal : Nat) : Bool :=
  !policy.retryable || maxTaskAttempts ≤ ordinal

def factorItemDiagnostic (policy : TaskFailurePolicy) (ordinal : Nat)
    (diagnostic : ResearchBatchDiagnostic) : ResearchBatchDiagnostic :=
  if policy.attemptReason = factorTaskResourceExhaustedFailure then diagnostic
  else if policy.retryable ∧ maxTaskAttempts ≤ ordinal then
    ⟨"FACTOR_TASK_RETRY_EXHAUSTED", "infrastructure", factorTaskInfrastructurePublicReason⟩
  else ⟨"FACTOR_TASK_PERMANENT_FAILURE", "execution", policy.publicReason⟩

/-- What a factor evaluation does about its task. -/
def settleFactorTask (s : Batch) (interrupted : Interrupted) (policy : TaskFailurePolicy)
    (diagnostic : ResearchBatchDiagnostic) : Except Refusal Batch :=
  if policy.attemptReason = factorTaskResourceExhaustedFailure then
    failRecoveredItems diagnostic s interrupted.incomplete
  else
    match interrupted.tasks.head? with
    | none =>
      if retryExhausted policy interrupted.attemptOrdinal then
        failRecoveredItems diagnostic s interrupted.incomplete
      else .ok s
    | some task =>
      if retryExhausted policy task.ordinal then
        failRecoveredItems (factorItemDiagnostic policy task.ordinal diagnostic) s
          (taskItem interrupted task).toList
      else .ok s

/-- `_close_factor_attempt_in_transaction` -/
def closeFactorAttempt (s : Batch) (attemptId : AttemptId) (fence : Nat) (generationPinId : PinId)
    (policy : TaskFailurePolicy) (diagnostic : ResearchBatchDiagnostic) (requireExpired : Bool) :
    Except Refusal Batch := do
  let (closed, interrupted) ←
    closeInterruptedAttempt s attemptId fence diagnostic policy requireExpired
  require (interrupted.tasks.length ≤ 1) Refusal.taskActive
  let settled ← settleFactorTask closed interrupted policy diagnostic
  finishInterruptedAttempt settled attemptId fence generationPinId false

def sharedDiagnostic (policy : TaskFailurePolicy) (diagnostic : ResearchBatchDiagnostic) :
    ResearchBatchDiagnostic :=
  if policy.attemptReason = factorTaskResourceExhaustedFailure then diagnostic
  else if policy.retryable then
    ⟨"SHARED_ALPHA_FACTOR_RETRY_EXHAUSTED", "infrastructure", policy.publicReason⟩
  else ⟨"PRIVATE_ALPHA_FACTOR_ARTIFACT_REJECTED", "infrastructure", policy.publicReason⟩

def strategyItemDiagnostic (policy : TaskFailurePolicy) (diagnostic : ResearchBatchDiagnostic) :
    ResearchBatchDiagnostic :=
  if policy.attemptReason = factorTaskResourceExhaustedFailure then diagnostic
  else if policy.retryable then
    ⟨"STRATEGY_TASK_RETRY_EXHAUSTED", "infrastructure", policy.publicReason⟩
  else ⟨"STRATEGY_TASK_PERMANENT_FAILURE", "execution", policy.publicReason⟩

/-- `shared_alpha_factor_status IN ('pending', 'running')` -/
def Progress.sharedOpen (progress : Progress) : Bool :=
  progress.sharedAlphaFactorStatus.any fun status => status = .pending ∨ status = .running

/-- What a sweep does about its task. -/
def settleSweepTask (s : Batch) (interrupted : Interrupted) (policy : TaskFailurePolicy)
    (diagnostic : ResearchBatchDiagnostic) : Except Refusal Batch :=
  match interrupted.tasks.head? with
  | none =>
    if retryExhausted policy interrupted.attemptOrdinal then
      failRecoveredItems diagnostic
        (if s.progress.sharedOpen then s.setSharedAlphaFactorStatus .failed else s)
        interrupted.incomplete
    else .ok s
  | some task =>
    if task.taskRole = .sharedAlphaFactor then
      if retryExhausted policy task.ordinal then
        failRecoveredItems (sharedDiagnostic policy diagnostic)
          (s.setSharedAlphaFactorStatus .failed) interrupted.incomplete
      else do
        require (s.progress.sharedAlphaFactorStatus = some .running) Refusal.sharedProgress
        return s.setSharedAlphaFactorStatus .pending
    else if task.taskRole = .strategy ∧ retryExhausted policy task.ordinal then
      failRecoveredItems (strategyItemDiagnostic policy diagnostic) s
        (taskItem interrupted task).toList
    else .ok s

/-- The items of independent strategies that may not be tried again. -/
def exhaustedItems (interrupted : Interrupted) (policy : TaskFailurePolicy) : List Item :=
  interrupted.incomplete.filter fun item =>
    let task := interrupted.tasks.findRev? fun task => task.itemOrdinal = some item.ordinal
    retryExhausted policy ((task.map TaskAttempt.ordinal).getD interrupted.attemptOrdinal)

/-- `_close_strategy_attempt_in_transaction` -/
def closeStrategyAttempt (s : Batch) (attemptId : AttemptId) (fence : Nat) (generationPinId : PinId)
    (policy : TaskFailurePolicy) (diagnostic : ResearchBatchDiagnostic) (requireExpired : Bool) :
    Except Refusal Batch := do
  let (closed, interrupted) ←
    closeInterruptedAttempt s attemptId fence diagnostic policy requireExpired
  if s.kind = .independentStrategies then
    let settled ← failRecoveredItems diagnostic closed (exhaustedItems interrupted policy)
    finishInterruptedAttempt settled attemptId fence generationPinId false
  else
    require (interrupted.tasks.length ≤ 1) Refusal.taskActive
    let settled ← settleSweepTask closed interrupted policy diagnostic
    finishInterruptedAttempt settled attemptId fence generationPinId true

def closeAttempt (s : Batch) (attemptId : AttemptId) (fence : Nat) (generationPinId : PinId)
    (policy : TaskFailurePolicy) (diagnostic : ResearchBatchDiagnostic) (requireExpired : Bool) :
    Except Refusal Batch :=
  if s.kind = .factorEvaluation then
    closeFactorAttempt s attemptId fence generationPinId policy diagnostic requireExpired
  else closeStrategyAttempt s attemptId fence generationPinId policy diagnostic requireExpired

def taskFailurePolicy (kind : BatchKind) (error : ExecutionError) : TaskFailurePolicy :=
  if kind = .factorEvaluation then factorTaskFailurePolicy error
  else strategyTaskFailurePolicy error

/-- `_finish_interrupted_factor_attempt` and `_finish_interrupted_strategy_attempt` -/
def finishInterrupted (s : Batch) (claim : ResearchBatchClaim) (error : ExecutionError)
    (exited : Bool) : Except Refusal Batch := do
  authorizeClaim s claim
  let child ← found (s.attempts.find? (claimedAttempt claim)) Refusal.childExitNotConfirmed
  require (child.childExit.isSome ∧ exited) Refusal.childExitNotConfirmed
  closeAttempt s claim.attemptId claim.fence claim.generationPinId (taskFailurePolicy s.kind error)
    (exceptionDiagnostic error) false

def workerLostDiagnostic (kind : BatchKind) : ResearchBatchDiagnostic :=
  if kind = .factorEvaluation then
    ⟨"FACTOR_TASK_WORKER_LOST", "infrastructure",
      "The Factor task Worker was lost before acknowledgement."⟩
  else
    ⟨"STRATEGY_SWEEP_WORKER_LOST", "infrastructure",
      "The Strategy Sweep Worker was lost before acknowledgement."⟩

/-- `_recover_expired_factor_attempt_in_transaction` and its strategy counterpart; `none` when the
child may still run. -/
def recoverExpiredAttempt (s : Batch) (attempt : Attempt) (exited : Bool) :
    Except Refusal (Option Batch) := do
  require (attempt.fence = s.executionFence) Refusal.fenced
  if exited then
    (closeAttempt s attempt.id attempt.fence attempt.generationPinId workerLostPolicy
      (workerLostDiagnostic s.kind) true).map some
  else .ok none

/-! ### Interrupted starts -/

/-- The items fail when the start may not be tried again. -/
def settleStart (s : Batch) (incomplete : List Item) (terminal : Bool)
    (diagnostic : ResearchBatchDiagnostic) : Except Refusal Batch :=
  if terminal then failRecoveredItems diagnostic s incomplete else .ok s

def startStatus (items : List Item) (terminal : Bool) : Except Refusal BatchStatus :=
  if terminal then terminalStatusFromItems items else .ok .queued

/-- The part that an interrupted and an expired start have in common. -/
def closeStart (s : Batch) (starting : StartingClaim) (terminal : Bool)
    (diagnostic : ResearchBatchDiagnostic) : Except Refusal Batch := do
  let items ← resetIncompleteBatchOwnedExecutions s.items
  let settled ← settleStart { s with items := items } (incompleteItems s.items) terminal diagnostic
  let status ← startStatus settled.items terminal
  let released ← releasePin
    (releaseArtifact { settled with startingClaim := none }
      (terminal && s.kind = .strategySweep)) starting.generationPinId starting.id
  leaveRunning released starting.fence status

def startRetryExhausted : ResearchBatchDiagnostic :=
  ⟨"RESEARCH_BATCH_START_RETRY_EXHAUSTED", "infrastructure",
    "Research Batch could not start after automatic retries."⟩

/-- `_recover_expired_starting_claim_in_transaction` -/
def recoverExpiredStart (s : Batch) (starting : StartingClaim) (exited : Bool) :
    Except Refusal (Option Batch) := do
  require (starting.fence = s.executionFence) Refusal.fenced
  if exited then
    require (starting.leaseExpiresAt ≤ s.clock) Refusal.fenced
    (closeStart s starting (maxTaskAttempts ≤ starting.ordinal) startRetryExhausted).map some
  else .ok none

def startFailureDiagnostic (error : ExecutionError) : ResearchBatchDiagnostic :=
  if error = .privateArtifactRejected then
    ⟨"PRIVATE_ALPHA_FACTOR_ARTIFACT_REJECTED", "infrastructure",
      "The private Alpha-and-Factor artifact is invalid."⟩
  else exceptionDiagnostic error

/-- `_finish_interrupted_starting_claim` -/
def finishInterruptedStart (s : Batch) (claim : ResearchBatchClaim) (error : ExecutionError)
    (exited : Bool) : Except Refusal Batch := do
  let starting ← found (s.startingClaim.filter (claimedStart claim)) Refusal.notFound
  require (exited = true) Refusal.childExitNotConfirmed
  let policy := taskFailurePolicy s.kind error
  closeStart s { starting with generationPinId := claim.generationPinId }
    (retryExhausted policy starting.ordinal) (startFailureDiagnostic error)

/-! ### The claim transaction -/

/-- `ORDER BY ordinal DESC LIMIT 1` over the running attempts. -/
def runningAttempt (attempts : List Attempt) : Option Attempt :=
  (attempts.filter fun attempt => attempt.status = .running).argmax Attempt.ordinal

/-- The recovery of a running Batch whose lease has expired. -/
def recoverExpired (s : Batch) (exited : Bool) : Except Refusal (Option Batch) :=
  match s.startingClaim, runningAttempt s.attempts with
  | some starting, attempt => do
    require (starting.leaseExpiresAt ≤ s.clock ∨
      ∃ running ∈ attempt, running.leaseExpiresAt ≤ s.clock) Refusal.notClaimable
    recoverExpiredStart s starting exited
  | none, some attempt => do
    require (attempt.leaseExpiresAt ≤ s.clock) Refusal.notClaimable
    recoverExpiredAttempt s attempt exited
  | none, none => .error .notClaimable

/-- A recovered Batch is claimed if it is queued again. -/
def claimRecovered (s : Batch) (attemptId : AttemptId) (pinId : PinId) (leaseSeconds : Nat) :
    Except Refusal (Batch × Option ResearchBatchClaim) :=
  if s.status = .queued then
    (claimQueued s attemptId pinId leaseSeconds).map fun claimed => (claimed.1, some claimed.2)
  else .ok (s, none)

/-- What `_claim_next` does to a Batch that it selects: a queued one is claimed; a running one whose
lease has expired is recovered, and claimed if it is queued then. -/
def claimNext (s : Batch) (attemptId : AttemptId) (pinId : PinId) (exited : Bool)
    (leaseSeconds : Nat) : Except Refusal (Batch × Option ResearchBatchClaim) :=
  if s.status = .queued then claimRecovered s attemptId pinId leaseSeconds
  else do
    require (s.status = .running) Refusal.notClaimable
    let recovered ← recoverExpired s exited
    match recovered with
    | none => return (s, none)
    | some recovered => claimRecovered recovered attemptId pinId leaseSeconds

/-! ### Cancellation -/

def cancelRunningTask (task : TaskAttempt) : TaskAttempt :=
  { task with status := .cancelled, failureReason := none, failureDiagnostic := none }

def cancelAttempt (clock : Timestamp) (attempt : Attempt) : Attempt :=
  { attempt with
    status := .cancelled
    leaseExpiresAt := clock
    failureReason := none
    failureDiagnostic := none
    childExit := some (attempt.childExit.getD (-1, false)) }

/-- The attempt or the starting claim ends with the Batch. -/
def cancelClaim (s : Batch) : Except Refusal Batch :=
  match runningAttempt s.attempts, s.startingClaim with
  | some _, some _ => .error .overlappingClaims
  | some attempt, none => do
    let attempts ← updateOne s.attempts
      (fun row => row.id = attempt.id ∧ row.status = .running) (cancelAttempt s.clock) Refusal.fenced
    releasePin { s with attempts := attempts } attempt.generationPinId attempt.id
  | none, some starting =>
    releasePin { s with startingClaim := none } starting.generationPinId starting.id
  | none, none => .ok s

/-- `_finish_cancelled_batch_in_transaction` -/
def finishCancelledBatch (s : Batch) : Except Refusal Batch := do
  require (s.status = .queued ∨ s.status = .cancelling) Refusal.cancelStateConflict
  let items ← cancelIncompleteItems s.items
  let ended ← cancelClaim { s with
    items := items
    taskAttempts := updateRows s.taskAttempts TaskAttempt.isRunning cancelRunningTask }
  return { ended with
    privateArtifact := none
    retention := false
    progress := { ended.progress with
      completedItems := (outcomes ended.items).countP fun outcome =>
        outcome = some .succeeded ∨ outcome = some .failed
      sharedAlphaFactorStatus := if ended.progress.sharedOpen then some .cancelled
        else ended.progress.sharedAlphaFactorStatus }
    status := .cancelled }

/-- The Runs that `_detail_in_transaction` looks up: those of the items that are not deleted. -/
def projectDetail (s : Batch) : Except Refusal Unit :=
  (projectChildStatuses (s.items.filter fun item => !item.runDeleted)).map fun _ => ()

/-- A queued Batch is cancelled at once; the worker of a running one has to confirm. -/
def beginCancel (s : Batch) : Except Refusal Batch :=
  if s.status = .queued then
    finishCancelledBatch { s with executionFence := s.executionFence + 1 }
  else if s.status = .running then
    .ok { s with status := .cancelling, executionFence := s.executionFence + 1 }
  else .error .cancelStateConflict

/-- A new cancel request. -/
def cancel (s : Batch) : Except Refusal Batch := do
  let cancelled ← beginCancel s
  projectDetail cancelled
  return cancelled

/-- `_finish_cancelling_claim` -/
def finishCancellingClaim (s : Batch) (claim : ResearchBatchClaim) (exited : Bool) :
    Except Refusal Batch := do
  require (s.status = .cancelling ∧ s.executionFence = claim.fence + 1) Refusal.notFound
  require ((s.attempts.any (fun attempt => claimedAttempt claim attempt ∧
      attempt.status = .running) ∨ s.startingClaim.any (claimedStart claim)) ∧ exited)
    Refusal.childExitNotConfirmed
  finishCancelledBatch s

/-- `_reconcile_cancelling_batch` -/
def reconcileCancellingBatch (s : Batch) (exited : Bool) : Except Refusal Batch := do
  require (s.status = .cancelling) Refusal.notFound
  require ((runningAttempt s.attempts = none ∧ s.startingClaim = none) ∨ exited)
    Refusal.childExitNotConfirmed
  finishCancelledBatch s

/-! ### Deletion of a child -/

/-- `delete` of the Run service with `preserve_deleted_run_history`. -/
def deleteRun (s : Batch) (ordinal : Nat) : Except Refusal Batch := do
  let item ← found (s.items.find? fun item => item.ordinal = ordinal) Refusal.notFound
  let run ← found item.run Refusal.notFound
  require (run.status.terminal = true) Refusal.deleteConflict
  require (item.outcome.isSome ∧ item.runDeleted = false) Refusal.deleteConflict
  return { s with
    items := updateRows s.items (fun item => item.ordinal = ordinal) fun item =>
      { item with runDeleted := true, run := none } }

end ThesisTrace.ResearchBatch
