import ThesisTrace.ResearchRun.Lifecycle

/-!
# What one transaction can do to one Run

`RunEffect` lists every way in which a committed transaction changes the rows of a Run, the
publication manifests and the pin owners, together with the checks that it passed.
`step_effect` inverts the transactions once; the invariants are read off `RunEffect`.
-/

namespace ThesisTrace.ResearchRun
open Transaction LabelledTransition

variable {Digest : Type}

/-- What the transactions of one Run read and write. -/
structure RunView (Digest : Type) where
  rows : RunTables Digest
  manifests : List Digest
  owners : List AttemptId

def Database.view (db : Database Digest) (runId : RunId) : RunView Digest :=
  ⟨db.tables runId, db.manifests, db.pins.map GenerationPin.ownerId⟩

/-! ### Frame lemmas -/

@[simp] lemma mem_updateRows {Row : Type} {rows : List Row} {selected : Row → Bool}
    {change : Row → Row} {row : Row} :
    row ∈ updateRows rows selected change ↔
      ∃ old ∈ rows, (if selected old then change old else old) = row := by
  simp [updateRows]

@[simp] lemma length_updateRows {Row : Type} (rows : List Row) (selected : Row → Bool)
    (change : Row → Row) : (updateRows rows selected change).length = rows.length := by
  simp [updateRows]

/-- A column that an update does not write keeps its values. -/
lemma map_updateRows {Row β : Type} (column : Row → β) (rows : List Row)
    (selected : Row → Bool) (change : Row → Row) (h : ∀ row, column (change row) = column row) :
    (updateRows rows selected change).map column = rows.map column := by
  simp only [updateRows, List.map_map]
  apply List.map_congr_left
  intro row _
  simp only [Function.comp_apply]
  split
  · exact h row
  · rfl

lemma releasePin_ok {db db' : Database Digest} {pinId : PinId} {ownerId : AttemptId}
    (h : releasePinInTransaction db pinId ownerId = .ok db') :
    db'.tables = db.tables ∧ db'.manifests = db.manifests ∧ db'.clock = db.clock ∧
      db'.runOwnership = db.runOwnership ∧
      db'.pins.map GenerationPin.ownerId = db.pins.map GenerationPin.ownerId := by
  simp only [releasePinInTransaction, bind_ok_iff, require_ok_iff, pure_ok_iff] at h
  obtain ⟨_, _, rfl⟩ := h
  exact ⟨rfl, rfl, rfl, rfl, map_updateRows _ _ _ _ (fun _ => rfl)⟩

lemma heartbeatPin_ok {db db' : Database Digest} {pinId : PinId} {ownerId : AttemptId}
    {leaseSeconds : Nat} (h : heartbeatPinInTransaction db pinId ownerId leaseSeconds = .ok db') :
    db'.tables = db.tables ∧ db'.manifests = db.manifests ∧ db'.clock = db.clock ∧
      db'.runOwnership = db.runOwnership ∧
      db'.pins.map GenerationPin.ownerId = db.pins.map GenerationPin.ownerId := by
  simp only [heartbeatPinInTransaction, bind_ok_iff, require_ok_iff, pure_ok_iff] at h
  obtain ⟨_, _, rfl⟩ := h
  exact ⟨rfl, rfl, rfl, rfl, map_updateRows _ _ _ _ (fun _ => rfl)⟩

lemma pinGeneration_ok {db db' : Database Digest} {pinId : PinId} {ownerId : AttemptId}
    {leaseSeconds : Nat} {pin : GenerationPin}
    (h : pinGenerationInTransaction db pinId ownerId leaseSeconds = .ok (db', pin)) :
    db'.tables = db.tables ∧ db'.manifests = db.manifests ∧ db'.clock = db.clock ∧
      db'.runOwnership = db.runOwnership ∧ ownerId ∉ db.pins.map GenerationPin.ownerId ∧
      db'.pins.map GenerationPin.ownerId = db.pins.map GenerationPin.ownerId ++ [ownerId] := by
  simp only [pinGenerationInTransaction, bind_ok_iff, require_ok_iff, pure_ok_iff,
    Prod.mk.injEq] at h
  obtain ⟨_, hfresh, rfl, _⟩ := h
  refine ⟨rfl, rfl, rfl, rfl, ?_, by simp⟩
  intro hmem
  obtain ⟨old, hold, howner⟩ := List.mem_map.mp hmem
  exact (hfresh old hold).2 howner

lemma ownedRun_eq_some {db : Database Digest} {researcherId : ResearcherId} {runId : RunId}
    {run : RunRow Digest} (h : ownedRun db researcherId runId = some run) :
    (db.tables runId).run = some run ∧ run.researcherId = researcherId := by
  simpa [ownedRun, Option.filter_eq_some_iff] using h

/-- The manifests that remain after every checkpoint of the Run was released. -/
def releasedManifests [DecidableEq Digest] (manifests : List Digest)
    (rows : List (ExecutionCheckpoint Digest)) : List Digest :=
  manifests.filter (· ∉ rows.map ExecutionCheckpoint.checkpointManifestSha256)

variable [DecidableEq Digest]

lemma releaseManifests_foldl (rows : List (ExecutionCheckpoint Digest)) (db : Database Digest) :
    rows.foldl (fun db row => releaseManifestInTransaction db row.checkpointManifestSha256 false) db =
      { db with
        manifests := releasedManifests db.manifests rows } := by
  induction rows generalizing db with
  | nil => simp [releasedManifests]
  | cons row rest ih =>
    rw [List.foldl_cons, ih]
    simp only [releasedManifests, releaseManifestInTransaction, Bool.false_eq_true, if_false, List.filter_filter,
      List.map_cons, List.mem_cons, not_or]
    congr 2
    funext manifest
    by_cases h : manifest = row.checkpointManifestSha256 <;> simp [h]

/-- The rows of the Run lose their checkpoints, whose manifests are released; nothing else
changes. -/
lemma releaseExecutionCheckpoints_eq (db : Database Digest) (runId : RunId) :
    releaseExecutionCheckpoints db runId =
      { db.setTables runId { db.tables runId with executionCheckpoints := [] } with
        manifests := releasedManifests db.manifests (db.tables runId).executionCheckpoints } := by
  simp only [releaseExecutionCheckpoints, releaseManifests_foldl]
  rfl

/-- Releasing the checkpoints of rows that the same transaction has just rewritten. -/
lemma releaseExecutionCheckpoints_setTables (db : Database Digest) (runId : RunId)
    (rows : RunTables Digest) :
    releaseExecutionCheckpoints (db.setTables runId rows) runId =
      { db.setTables runId { rows with executionCheckpoints := [] } with
        manifests := releasedManifests db.manifests rows.executionCheckpoints } := by
  simp [releaseExecutionCheckpoints_eq, Database.setTables]

/-! ### Effects on one Run -/

/-- The attempts that a claim builds on: a lost attempt is failed first. -/
def RecoveredAttempts (clock : Timestamp) (old new : List Attempt) : Prop :=
  (new = old ∧ ∀ latest, latestAttempt old = some latest → latest.status ≠ .running) ∨
    ∃ lost, latestAttempt old = some lost ∧ lost.status = .running ∧
      attemptRetryEligible .workerLost lost.ordinal = true ∧
      new = updateRows old (lostAttempt clock lost.id) (failAttempt clock .workerLost)

/-- The Run is running under the claim's fence and its attempt is running and unexpired. -/
structure CurrentExecution (clock : Timestamp) (claim : ResearchRunExecutionClaim)
    (rows : RunTables Digest) (run : RunRow Digest) : Prop where
  run_eq : rows.run = some run
  running : run.status = .running
  fence : run.executionFence = claim.fence
  attempt : ∃ attempt ∈ rows.attempts, unexpiredAttempt clock claim attempt = true

/-- The manifests of a Result. -/
def resultManifests (sha256 : Document Digest → Digest) (claim : ResearchRunExecutionClaim)
    (resultObjects : List (String × StagedPayload Digest))
    (holdingObjects : Option (List (String × StagedPayload Digest))) : List (Manifest Digest) :=
  ⟨resultObjects, .result (resultProvenance sha256 claim)⟩ ::
    (holdingObjects.map fun objects =>
      ⟨objects, .holding (resultProvenance sha256 claim) claim.runId⟩).toList

/-- Every manifest after publishing was there before or is one of the Result's manifests. -/
def RecordsManifests (sha256 : Document Digest → Digest) (added : List (Manifest Digest))
    (before after : List Digest) : Prop :=
  ∀ manifest ∈ after, manifest ∈ before ∨ manifest ∈ added.map fun m => sha256 (.manifest m)

/-- A replayed cancellation and a claim that found an exhausted worker loss commit nothing. -/
def Action.mayIdle : Action Digest → Bool
  | .claim .. | .cancel .. => true
  | _ => false

inductive RunEffect (sha256 : Document Digest → Digest) (clock : Timestamp) (runId : RunId) :
    Action Digest → RunView Digest → RunView Digest → Prop
  | unchanged (a : Action Digest) (v : RunView Digest) (hidle : a.mayIdle = true) :
      RunEffect sha256 clock runId a v v
  | admitted (researcherId : ResearcherId) (input : ImmutableRunInput)
      (executionOwner : ExecutionOwner) (v : RunView Digest) :
      RunEffect sha256 clock runId (.admitRun runId researcherId input executionOwner) v
        { v with rows := admittedRows researcherId input executionOwner }
  | claimed {v : RunView Digest} {run : RunRow Digest} {attempts : List Attempt}
      {attempt : Attempt} (pinId : PinId) (dataThroughSession : Session)
      (generationMatches : Bool) (hrun : v.rows.run = some run)
      (hclaimable : claimable clock run (latestAttempt v.rows.attempts) = true)
      (hrecovered : RecoveredAttempts clock v.rows.attempts attempts)
      (hfresh : attempt.id ∉ v.owners) (hordinal : attempt.ordinal = nextOrdinal attempts)
      (hfence : attempt.fence = run.executionFence + 1) (hstatus : attempt.status = .running)
      (hgeneration :
        attempt.dataGenerationId = run.immutableInput.generationManifestSha256) :
      RunEffect sha256 clock runId
        (.claim runId attempt.id pinId dataThroughSession generationMatches) v
        { rows :=
            { v.rows with
              run := some (startRunning run)
              attempts := attempts ++ [attempt] }
          manifests := v.manifests
          owners := v.owners ++ [attempt.id] }
  | workerLost {v : RunView Digest} {run : RunRow Digest} {lost : Attempt}
      (hrun : v.rows.run = some run) (hlost : lost ∈ v.rows.attempts)
      (hrunning : run.status = .running) (hstatus : lost.status = .running)
      (hfence : run.executionFence = lost.fence) (hexpired : lost.leaseExpiresAt ≤ clock) :
      RunEffect sha256 clock runId (.finishExhausted ⟨runId, lost.id⟩) v
        { v with
          rows :=
            { v.rows with
              run := some
                { run with
                  status := .failed, failureReason := some automaticRetriesPublicReason }
              attempts := updateRows v.rows.attempts (lostAttempt clock lost.id)
                (failAttempt clock .workerLost)
              executionCheckpoints := [] }
          manifests := releasedManifests v.manifests v.rows.executionCheckpoints }
  | renewed {v : RunView Digest} {claim : ResearchRunExecutionClaim}
      (renewable : Attempt → Bool) (lease : Timestamp) (hclaim : claim.runId = runId)
      (hrenewable : ∀ attempt, renewable attempt = true → claimedAttempt claim attempt = true) :
      RunEffect sha256 clock runId (.heartbeat claim) v
        { v with
          rows :=
            { v.rows with
              attempts := updateRows v.rows.attempts renewable
                fun attempt => { attempt with leaseExpiresAt := lease } } }
  | committed {v : RunView Digest} {claim : ResearchRunExecutionClaim} {run : RunRow Digest}
      {chunk : StagedChunk Digest} {expectedPrior : Option (Nat × Digest)}
      {planChunk : ResearchExecutionChunk} (hclaim : claim.runId = runId)
      (hcurrent : CurrentExecution clock claim v.rows run)
      (hplan : claim.immutableInput.executionPlan.chunks[chunk.ordinal - 1]? = some planChunk)
      (hboundary : chunkBoundaryValid claim.immutableInput chunk planChunk)
      (hordinal : chunk.ordinal = (expectedPrior.map Prod.fst).getD 0 + 1)
      (hprior : committedPrior v.rows.executionCheckpoints = expectedPrior) :
      RunEffect sha256 clock runId (.commit claim chunk expectedPrior) v
        { v with
          rows :=
            { v.rows with
              executionCheckpoints :=
                v.rows.executionCheckpoints ++ [checkpointRow sha256 claim chunk expectedPrior]
              progress := v.rows.progress.map
                (advanceProgress claim.immutableInput planChunk chunk) }
          manifests := v.manifests.insert
            (checkpointRow sha256 claim chunk expectedPrior).checkpointManifestSha256 }
  | published {v : RunView Digest} {claim : ResearchRunExecutionClaim} {run : RunRow Digest}
      {recorded : List Digest} (resultObjects : List (String × StagedPayload Digest))
      (holdingObjects : Option (List (String × StagedPayload Digest)))
      (result : Digest) (hclaim : claim.runId = runId)
      (hcurrent : CurrentExecution clock claim v.rows run)
      (hrecorded : RecordsManifests sha256
        (resultManifests sha256 claim resultObjects holdingObjects) v.manifests recorded) :
      RunEffect sha256 clock runId (.publish claim resultObjects holdingObjects) v
        { v with
          rows :=
            { run := some
                { run with
                  status := .succeeded, resultManifestSha256 := some result
                  failureReason := none }
              attempts := updateRows v.rows.attempts (unexpiredAttempt clock claim)
                fun attempt => { attempt with status := .succeeded }
              progress := v.rows.progress.map fun progress =>
                { progress with phase := .succeeded }
              executionCheckpoints := [] }
          manifests := releasedManifests recorded v.rows.executionCheckpoints }
  | retried {v : RunView Digest} {claim : ResearchRunExecutionClaim} {run : RunRow Digest}
      {attempt : Attempt} {reason : AttemptFailure} (publicReason : String)
      (hclaim : claim.runId = runId) (hrun : v.rows.run = some run)
      (hrunning : run.status = .running) (hfence : run.executionFence = claim.fence)
      (hattempt : attempt ∈ v.rows.attempts) (hclaimed : claimedAttempt claim attempt = true)
      (hretry : attemptRetryEligible reason v.rows.attempts.length = true) :
      RunEffect sha256 clock runId (.fail claim reason publicReason) v
        { v with
          rows :=
            { v.rows with
              run := some { run with status := .running, failureReason := none }
              attempts := updateRows v.rows.attempts (claimedAttempt claim)
                (failAttempt clock reason) } }
  | failed {v : RunView Digest} {claim : ResearchRunExecutionClaim} {run : RunRow Digest}
      {attempt : Attempt} {reason : AttemptFailure} (publicReason : String)
      (hclaim : claim.runId = runId) (hrun : v.rows.run = some run)
      (hrunning : run.status = .running) (hfence : run.executionFence = claim.fence)
      (hattempt : attempt ∈ v.rows.attempts) (hclaimed : claimedAttempt claim attempt = true) :
      RunEffect sha256 clock runId (.fail claim reason publicReason) v
        { v with
          rows :=
            { v.rows with
              run := some { run with status := .failed, failureReason := some publicReason }
              attempts := updateRows v.rows.attempts (claimedAttempt claim)
                (failAttempt clock reason)
              executionCheckpoints := [] }
          manifests := releasedManifests v.manifests v.rows.executionCheckpoints }
  | cancelling {v : RunView Digest} {run : RunRow Digest} (researcherId : ResearcherId)
      (requestId : RequestId) (hrun : v.rows.run = some run) (hrunning : run.status = .running)
      (hattempt : v.rows.attempts.any (·.status = .running) = true) :
      RunEffect sha256 clock runId (.cancel researcherId runId requestId) v
        { v with
          rows :=
            { v.rows with
              run := some
                { run with
                  status := .cancelling, executionFence := run.executionFence + 1
                  failureReason := none }
              attempts := cancelAttempts v.rows.attempts } }
  | cancelledIdle {v : RunView Digest} {run : RunRow Digest} (researcherId : ResearcherId)
      (requestId : RequestId) (hrun : v.rows.run = some run)
      (hidle : run.status = .queued ∨
        run.status = .running ∧ v.rows.attempts.any (·.status = .running) = false) :
      RunEffect sha256 clock runId (.cancel researcherId runId requestId) v
        { v with
          rows :=
            { v.rows with
              run := some
                { run with
                  status := .cancelled, executionFence := run.executionFence + 1
                  failureReason := none } } }
  | cancelFinished {v : RunView Digest} {run : RunRow Digest} (a : Action Digest)
      (selected : Attempt → Bool) (hrun : v.rows.run = some run)
      (hcancelling : run.status = .cancelling)
      (hselected : ∀ attempt, selected attempt = true → attempt.status = .cancelling)
      (hfound : ∃ attempt ∈ v.rows.attempts, selected attempt = true)
      (hname : (∃ claim, a = .confirmCancelled claim) ∨
        ∃ attemptId, a = .recoverCancelled runId attemptId) :
      RunEffect sha256 clock runId a v
        { v with
          rows :=
            { v.rows with
              run := some { run with status := .cancelled }
              attempts := updateRows v.rows.attempts selected (finishCancelledAttempt clock)
              executionCheckpoints := [] }
          manifests := releasedManifests v.manifests v.rows.executionCheckpoints }
  | deleted {v : RunView Digest} {run : RunRow Digest} {manifests : List Digest}
      (researcherId : ResearcherId) (stillReferenced : Bool) (hrun : v.rows.run = some run)
      (hterminal : run.status.terminal = true)
      (hmanifests : ∀ manifest ∈ manifests, manifest ∈ v.manifests) :
      RunEffect sha256 clock runId (.delete researcherId runId stillReferenced) v
        { v with rows := .empty, manifests := manifests }

lemma RunEffect.to_view {sha256 : Document Digest → Digest} {clock : Timestamp} {runId : RunId}
    {a : Action Digest} {v v' v'' : RunView Digest} (h : RunEffect sha256 clock runId a v v')
    (heq : v'' = v') : RunEffect sha256 clock runId a v v'' :=
  heq ▸ h

/-! ### Inverting the transactions -/

/-- A committed transaction has one of the effects on its Run and leaves every other Run's
rows alone. -/
structure Affects (sha256 : Document Digest → Digest) (runId : RunId) (a : Action Digest)
    (db db' : Database Digest) : Prop where
  effect : RunEffect sha256 db.clock runId a (db.view runId) (db'.view runId)
  frame : ∀ other, other ≠ runId → db'.tables other = db.tables other
  clock : db'.clock = db.clock
  ownership : (∀ researcherId input executionOwner,
      a ≠ .admitRun runId researcherId input executionOwner) ∧ db'.runOwnership = db.runOwnership ∨
    runId ∉ db.runOwnership ∧ db'.runOwnership = db.runOwnership ++ [runId] ∧
      ∃ researcherId input executionOwner, a = .admitRun runId researcherId input executionOwner ∧
        db'.tables runId = admittedRows researcherId input executionOwner

variable {sha256 : Document Digest → Digest} {db db' : Database Digest}

lemma admitRun_affects {runId : RunId} {researcherId : ResearcherId} {input : ImmutableRunInput}
    {executionOwner : ExecutionOwner}
    (h : admitRun db runId researcherId input executionOwner = .ok db') :
    Affects sha256 runId (.admitRun runId researcherId input executionOwner) db db' := by
  simp only [admitRun, bind_ok_iff, require_ok_iff, pure_ok_iff] at h
  obtain ⟨_, hfresh, rfl⟩ := h
  refine ⟨?_, fun other hne => ?_, rfl, .inr ⟨hfresh, rfl, _, _, _, rfl, ?_⟩⟩
  · refine RunEffect.to_view (.admitted researcherId input executionOwner _) ?_
    simp [Database.view, retainGenerationInTransaction, Database.setTables]
  · simp [retainGenerationInTransaction, Database.setTables, hne]
  · simp [retainGenerationInTransaction, Database.setTables]

/-- What a claim transaction hands to its worker: the row of the new attempt. -/
def ClaimHandedOut (db db' : Database Digest) (runId : RunId) (claim : ResearchRunExecutionClaim) :
    Prop :=
  ∃ run run' attempts attempt, (db.tables runId).run = some run ∧
    (db'.tables runId).run = some run' ∧ (db'.tables runId).attempts = attempts ++ [attempt] ∧
    attempts.map Attempt.id = (db.tables runId).attempts.map Attempt.id ∧
    attempt.id ∉ db.pins.map GenerationPin.ownerId ∧ claim.runId = runId ∧
    claim.attemptId = attempt.id ∧ claim.fence = attempt.fence ∧
    claim.dataGenerationId = attempt.dataGenerationId ∧
    claim.immutableInput = run.immutableInput ∧ run'.immutableInput = run.immutableInput

/-- Failing a lost attempt keeps the attempt ids. -/
lemma RecoveredAttempts.map_id {clock : Timestamp} {old new : List Attempt}
    (h : RecoveredAttempts clock old new) : new.map Attempt.id = old.map Attempt.id := by
  obtain ⟨rfl, _⟩ | ⟨_, _, _, _, rfl⟩ := h
  · rfl
  · exact map_updateRows _ _ _ _ (fun _ => rfl)

lemma claimRun_affects (sha256 : Document Digest → Digest) {run : RunRow Digest} {runId : RunId} {attemptId : AttemptId}
    {pinId : PinId} {dataThroughSession : Session} {generationMatches : Bool}
    {leaseSeconds : Nat} {result : ClaimResult} {base : Database Digest}
    {attempts : List Attempt}
    (h : claimRun base run runId attemptId pinId dataThroughSession generationMatches leaseSeconds =
      .ok (db', result))
    (hrun : (db.tables runId).run = some run)
    (hclaimable : claimable db.clock run (latestAttempt (db.tables runId).attempts) = true)
    (hrecovered : RecoveredAttempts db.clock (db.tables runId).attempts attempts)
    (htables : base.tables =
      Function.update db.tables runId { db.tables runId with attempts := attempts })
    (hmanifests : base.manifests = db.manifests) (hclock : base.clock = db.clock)
    (hownership : base.runOwnership = db.runOwnership)
    (howners : base.pins.map GenerationPin.ownerId = db.pins.map GenerationPin.ownerId) :
    Affects sha256 runId (.claim runId attemptId pinId dataThroughSession generationMatches) db db' ∧
      ∃ claim, result = .claimed claim ∧ ClaimHandedOut db db' runId claim := by
  simp only [claimRun, bind_ok_iff, require_ok_iff, pure_ok_iff, Prod.mk.injEq] at h
  obtain ⟨⟨pinned, pin⟩, hpin, _, _, rfl, rfl⟩ := h
  obtain ⟨ptables, pmanifests, pclock, pownership, pfresh, powners⟩ := pinGeneration_ok hpin
  have hbase : base.tables runId = { db.tables runId with attempts := attempts } := by
    rw [htables, Function.update_self]
  have hfresh : (newAttempt run attempts attemptId pin).id ∉
      db.pins.map GenerationPin.ownerId := by
    rw [← howners]
    exact pfresh
  refine ⟨⟨?_, fun other hne => ?_, ?_, .inl ⟨by simp, ?_⟩⟩, _, rfl, run, startRunning run, attempts,
    newAttempt run attempts attemptId pin, hrun, by rw [setTables_self], ?_, hrecovered.map_id,
    hfresh, rfl, rfl, rfl, rfl, rfl, rfl⟩
  · change RunEffect _ _ _ (.claim runId (newAttempt run attempts attemptId pin).id _ _ _) _ _
    refine RunEffect.to_view (.claimed pinId dataThroughSession generationMatches hrun hclaimable
      hrecovered hfresh rfl rfl rfl rfl) ?_
    simp only [Database.view, releaseRetentionInTransaction, setTables_self,
      setTables_manifests, pmanifests, hmanifests, hbase]
    simp only [Database.setTables, powners, howners]
    rfl
  · rw [setTables_other _ _ hne]
    change pinned.tables other = _
    rw [ptables, htables, Function.update_of_ne hne]
  · exact pclock.trans hclock
  · exact pownership.trans hownership
  · rw [setTables_self, hbase]

lemma claimNext_affects {runId : RunId} {attemptId : AttemptId} {pinId : PinId}
    {dataThroughSession : Session} {generationMatches : Bool} {leaseSeconds : Nat}
    {result : ClaimResult}
    (h : claimNext db runId attemptId pinId dataThroughSession generationMatches leaseSeconds =
      .ok (db', result)) :
    Affects sha256 runId (.claim runId attemptId pinId dataThroughSession generationMatches) db db' ∧
      ((∃ claim, result = .claimed claim ∧ ClaimHandedOut db db' runId claim) ∨
        ∃ recovery, result = .exhausted recovery ∧ db' = db) := by
  simp only [claimNext, bind_ok_iff, found_ok_iff, require_ok_iff] at h
  obtain ⟨run, hrun, _, hclaimable, h⟩ := h
  have kept : ∀ latest, latestAttempt (db.tables runId).attempts = some latest →
      latest.status ≠ .running →
      claimRun db run runId attemptId pinId dataThroughSession generationMatches leaseSeconds =
        .ok (db', result) → _ := fun latest hlatest hstatus hok =>
    claimRun_affects sha256 hok hrun hclaimable
      (.inl ⟨rfl, fun other hother => by
        rw [hlatest, Option.some.injEq] at hother
        exact hother ▸ hstatus⟩)
      (by simp) rfl rfl rfl rfl
  split at h
  · rename_i hnone
    obtain ⟨haffects, claim, rfl, hclaim⟩ := claimRun_affects sha256 h hrun hclaimable
      (.inl ⟨rfl, fun other hother => by rw [hnone] at hother; cases hother⟩)
      (by simp) rfl rfl rfl rfl
    exact ⟨haffects, .inl ⟨claim, rfl, hclaim⟩⟩
  · rename_i lost hlost
    split_ifs at h with hrunning hretry
    · simp only [bind_ok_iff] at h
      obtain ⟨released, hrelease, h⟩ := h
      obtain ⟨rtables, rmanifests, rclock, rownership, rowners⟩ := releasePin_ok hrelease
      obtain ⟨haffects, claim, rfl, hclaim⟩ := claimRun_affects sha256 h hrun hclaimable
        (.inr ⟨lost, hlost, hrunning, hretry, rfl⟩) rtables rmanifests rclock rownership rowners
      exact ⟨haffects, .inl ⟨claim, rfl, hclaim⟩⟩
    · simp only [pure_ok_iff, Prod.mk.injEq] at h
      obtain ⟨rfl, rfl⟩ := h
      exact ⟨⟨.unchanged _ _ rfl, fun _ _ => rfl, rfl, .inl ⟨by simp, rfl⟩⟩, .inr ⟨_, rfl, rfl⟩⟩
    · obtain ⟨haffects, claim, rfl, hclaim⟩ := kept lost hlost hrunning h
      exact ⟨haffects, .inl ⟨claim, rfl, hclaim⟩⟩

/-- A transaction that rewrites one Run's rows and then releases a pin. -/
lemma affects_of_releasePin {runId : RunId} {a : Action Digest} {rows : RunTables Digest}
    {manifests : List Digest} {settled : Database Digest} {pinId : PinId} {ownerId : AttemptId}
    (h : releasePinInTransaction settled pinId ownerId = .ok db')
    (ha : ∀ researcherId input executionOwner,
      a ≠ .admitRun runId researcherId input executionOwner)
    (heffect : RunEffect sha256 db.clock runId a (db.view runId)
      ⟨rows, manifests, (db.view runId).owners⟩)
    (htables : settled.tables = Function.update db.tables runId rows)
    (hmanifests : settled.manifests = manifests) (hclock : settled.clock = db.clock)
    (hownership : settled.runOwnership = db.runOwnership)
    (howners : settled.pins.map GenerationPin.ownerId = db.pins.map GenerationPin.ownerId) :
    Affects sha256 runId a db db' := by
  obtain ⟨rtables, rmanifests, rclock, rownership, rowners⟩ := releasePin_ok h
  refine ⟨?_, fun other hne => ?_, rclock.trans hclock, .inl ⟨ha, rownership.trans hownership⟩⟩
  · convert heffect using 1
    simp only [Database.view, rtables, htables, Function.update_self, rmanifests, hmanifests,
      rowners, howners]
  · rw [rtables, htables, Function.update_of_ne hne]

lemma finishExhausted_affects {recovery : WorkerLossRecovery}
    (h : finishExhaustedWorkerLoss db recovery = .ok db') :
    Affects sha256 recovery.runId (.finishExhausted recovery) db db' := by
  simp only [finishExhaustedWorkerLoss, bind_ok_iff, found_ok_iff, require_ok_iff,
    pure_ok_iff] at h
  obtain ⟨run, hrun, lost, hfind, _, ⟨_, hrunning, hstatus, hfence, hexpired⟩, released, hrelease,
    rfl⟩ := h
  obtain ⟨rtables, rmanifests, rclock, rownership, rowners⟩ := releasePin_ok hrelease
  have hid : lost.id = recovery.attemptId := by simpa using List.find?_some hfind
  have hlost := List.mem_of_find?_eq_some hfind
  rw [releaseExecutionCheckpoints_eq]
  refine ⟨?_, fun other hne => ?_, rclock, .inl ⟨by simp, rownership⟩⟩
  · have hname : recovery = ⟨recovery.runId, lost.id⟩ := by rw [hid]
    rw [hname]
    refine RunEffect.to_view (.workerLost hrun hlost hrunning hstatus hfence hexpired) ?_
    simp only [Database.view, rtables, rmanifests, setTables_self, setTables_manifests]
    simp only [Database.setTables, rtables, rowners, hid]
  · simp only [Database.setTables, rtables, Function.update_of_ne hne]

omit [DecidableEq Digest] in
lemma validateCurrentExecution_ok {claim : ResearchRunExecutionClaim} {run : RunRow Digest}
    (h : validateCurrentExecution db claim = .ok run) :
    CurrentExecution db.clock claim (db.tables claim.runId) run := by
  simp only [validateCurrentExecution, bind_ok_iff, found_ok_iff, require_ok_iff,
    pure_ok_iff, List.any_eq_true] at h
  obtain ⟨_, howned, _, ⟨hrunning, hfence⟩, _, hattempt, rfl⟩ := h
  exact ⟨(ownedRun_eq_some howned).1, hrunning, hfence, hattempt⟩

lemma heartbeat_affects {claim : ResearchRunExecutionClaim} {leaseSeconds : Nat}
    (h : heartbeatClaim db claim leaseSeconds = .ok db') :
    Affects sha256 claim.runId (.heartbeat claim) db db' := by
  simp only [heartbeatClaim, bind_ok_iff, found_ok_iff, require_ok_iff] at h
  obtain ⟨run, _, _, _, hpin⟩ := h
  obtain ⟨ptables, pmanifests, pclock, pownership, powners⟩ := heartbeatPin_ok hpin
  refine ⟨?_, fun other hne => ?_, pclock, .inl ⟨by simp, pownership⟩⟩
  · refine RunEffect.to_view (.renewed (fun attempt => unexpiredAttempt db.clock claim attempt
        && decide (run.status = .running ∧ run.executionFence = attempt.fence))
      (db.clock + leaseSeconds) rfl (fun attempt hattempt => ?_)) ?_
    rotate_left
    · simp only [Database.view, ptables, pmanifests, powners, setTables_self]
      rfl
    · simp only [unexpiredAttempt, Bool.and_eq_true] at hattempt
      exact hattempt.1.1
  · rw [ptables, setTables_other _ _ hne]

lemma commit_affects {claim : ResearchRunExecutionClaim} {chunk : StagedChunk Digest}
    {expectedPrior : Option (Nat × Digest)}
    (h : commitExecutionChunk sha256 db claim chunk expectedPrior = .ok db') :
    Affects sha256 claim.runId (.commit claim chunk expectedPrior) db db' := by
  simp only [commitExecutionChunk, bind_ok_iff, found_ok_iff, require_ok_iff, pure_ok_iff] at h
  obtain ⟨planChunk, hplan, _, hboundary, _, hordinal, run, hrun, _, hprior, _, _, rfl⟩ := h
  refine ⟨?_, fun other hne => ?_, rfl, .inl ⟨by simp, rfl⟩⟩
  · refine RunEffect.to_view (.committed rfl (validateCurrentExecution_ok hrun) hplan hboundary
      hordinal hprior) ?_
    simp [Database.view, recordManifest, Database.setTables]
  · rw [setTables_other _ _ hne]
    rfl

lemma commit_current {claim : ResearchRunExecutionClaim} {chunk : StagedChunk Digest}
    {expectedPrior : Option (Nat × Digest)}
    (h : commitExecutionChunk sha256 db claim chunk expectedPrior = .ok db') :
    ∃ run, CurrentExecution db.clock claim (db.tables claim.runId) run := by
  simp only [commitExecutionChunk, bind_ok_iff, found_ok_iff, require_ok_iff] at h
  obtain ⟨_, _, _, _, _, _, run, hvalid, _⟩ := h
  exact ⟨run, validateCurrentExecution_ok hvalid⟩

lemma mem_recordManifest {db : Database Digest} {manifest recorded : Digest} :
    manifest ∈ (recordManifest db recorded).manifests ↔ manifest = recorded ∨ manifest ∈ db.manifests := by
  simp [recordManifest]

lemma recordResult_frame (db : Database Digest) (result : Digest) (holding : Option Digest) :
    ∃ manifests, recordResult db result holding = { db with manifests := manifests } := by
  cases holding <;> exact ⟨_, rfl⟩

lemma recordResult_recordsManifests (sha256 : Document Digest → Digest) (db : Database Digest)
    (claim : ResearchRunExecutionClaim) (resultObjects : List (String × StagedPayload Digest))
    (holdingObjects : Option (List (String × StagedPayload Digest))) :
    RecordsManifests sha256 (resultManifests sha256 claim resultObjects holdingObjects)
      db.manifests
      (recordResult db
        (sha256 (.manifest ⟨resultObjects, .result (resultProvenance sha256 claim)⟩))
        (holdingObjects.map fun objects => sha256
          (.manifest ⟨objects, .holding (resultProvenance sha256 claim) claim.runId⟩))).manifests := by
  intro manifest hm
  cases holdingObjects with
  | none =>
    rcases mem_recordManifest.mp hm with rfl | hold
    · exact .inr (by simp [resultManifests])
    · exact .inl hold
  | some objects =>
    rcases mem_recordManifest.mp hm with rfl | hpublished
    · exact .inr (by simp [resultManifests])
    · rcases mem_recordManifest.mp hpublished with rfl | hold
      · exact .inr (by simp [resultManifests])
      · exact .inl hold

lemma publish_affects {claim : ResearchRunExecutionClaim}
    {resultObjects : List (String × StagedPayload Digest)}
    {holdingObjects : Option (List (String × StagedPayload Digest))}
    (h : publishSuccess sha256 db claim resultObjects holdingObjects = .ok db') :
    Affects sha256 claim.runId (.publish claim resultObjects holdingObjects) db db' := by
  simp only [publishSuccess, bind_ok_iff, found_ok_iff, require_ok_iff] at h
  obtain ⟨_, hvalid, _, _, run, howned, _, _, hpin⟩ := h
  have hcurrent := validateCurrentExecution_ok hvalid
  have hrecorded := recordResult_recordsManifests sha256 db claim resultObjects holdingObjects
  obtain ⟨manifests, hmanifests⟩ := recordResult_frame db
    (sha256 (.manifest ⟨resultObjects, .result (resultProvenance sha256 claim)⟩))
    (holdingObjects.map fun objects => sha256
      (.manifest ⟨objects, .holding (resultProvenance sha256 claim) claim.runId⟩))
  rw [hmanifests] at hrecorded
  rw [hmanifests, releaseExecutionCheckpoints_eq] at howned hpin
  have hrun := (ownedRun_eq_some howned).1
  simp only [setTables_self, hcurrent.run_eq, Option.some.injEq] at hrun
  subst hrun
  simp only [setTables_self] at hpin
  refine affects_of_releasePin hpin (by simp)
    (RunEffect.published (v := db.view claim.runId) resultObjects holdingObjects
      (sha256 (.manifest ⟨resultObjects, .result (resultProvenance sha256 claim)⟩)) rfl hcurrent
      hrecorded) ?_ rfl rfl rfl rfl
  simp only [Database.setTables, Function.update_idem]
  rfl

lemma publish_current {claim : ResearchRunExecutionClaim}
    {resultObjects : List (String × StagedPayload Digest)}
    {holdingObjects : Option (List (String × StagedPayload Digest))}
    (h : publishSuccess sha256 db claim resultObjects holdingObjects = .ok db') :
    ∃ run, CurrentExecution db.clock claim (db.tables claim.runId) run := by
  simp only [publishSuccess, bind_ok_iff] at h
  obtain ⟨run, hvalid, _⟩ := h
  exact ⟨run, validateCurrentExecution_ok hvalid⟩

lemma recordFailure_affects {claim : ResearchRunExecutionClaim} {reason : AttemptFailure}
    {publicReason : String} (h : recordFailure db claim reason publicReason = .ok db') :
    Affects sha256 claim.runId (.fail claim reason publicReason) db db' := by
  simp only [recordFailure, bind_ok_iff, found_ok_iff, require_ok_iff] at h
  obtain ⟨run, howned, _, ⟨hrunning, hfence⟩, attempt, hfind, _, hstatus, hpin⟩ := h
  have hrun := (ownedRun_eq_some howned).1
  have hattempt := List.mem_of_find?_eq_some hfind
  have hclaimed : claimedAttempt claim attempt = true := by
    have hmatch := List.find?_some hfind
    simp only [decide_eq_true_eq] at hmatch
    simp [claimedAttempt, hmatch, hstatus]
  cases hretry : attemptRetryEligible reason (db.tables claim.runId).attempts.length with
  | true =>
    simp only [hretry, if_true] at hpin
    exact affects_of_releasePin hpin (by simp)
      (RunEffect.retried (v := db.view claim.runId) publicReason rfl hrun hrunning hfence hattempt
        hclaimed hretry) rfl rfl rfl rfl rfl
  | false =>
    simp only [hretry, Bool.false_eq_true, if_false,
      releaseExecutionCheckpoints_setTables] at hpin
    exact affects_of_releasePin hpin (by simp)
      (RunEffect.failed (v := db.view claim.runId) publicReason rfl hrun hrunning hfence hattempt
        hclaimed) rfl rfl rfl rfl rfl

lemma cancel_affects {researcherId : ResearcherId} {runId : RunId} {requestId : RequestId}
    (h : cancel db researcherId runId requestId = .ok db') :
    Affects sha256 runId (.cancel researcherId runId requestId) db db' := by
  simp only [cancel, bind_ok_iff, found_ok_iff] at h
  obtain ⟨_, _, h⟩ := h
  split at h
  · simp only [bind_ok_iff, require_ok_iff, pure_ok_iff] at h
    obtain ⟨_, _, rfl⟩ := h
    exact ⟨.unchanged _ _ rfl, fun _ _ => rfl, rfl, .inl ⟨by simp, rfl⟩⟩
  · simp only [bind_ok_iff, found_ok_iff, require_ok_iff] at h
    obtain ⟨run, howned, _, _, h⟩ := h
    have hrun := (ownedRun_eq_some howned).1
    split at h
    · rename_i hrunning
      split_ifs at h with hany
      · simp only [pure_ok_iff] at h
        subst h
        refine ⟨?_, fun other hne => ?_, rfl, .inl ⟨by simp, rfl⟩⟩
        · refine RunEffect.to_view (.cancelling researcherId requestId hrun hrunning hany) ?_
          simp [Database.view, Database.setTables]
        · simp [Database.setTables, hne]
      · simp only [pure_ok_iff] at h
        subst h
        refine ⟨?_, fun other hne => ?_, rfl, .inl ⟨by simp, rfl⟩⟩
        · refine RunEffect.to_view (.cancelledIdle researcherId requestId hrun
            (.inr ⟨hrunning, Bool.eq_false_iff.mpr hany⟩)) ?_
          simp [Database.view, Database.setTables, releaseRetentionInTransaction]
        · simp [Database.setTables, releaseRetentionInTransaction, hne]
    · rename_i hqueued
      simp only [pure_ok_iff] at h
      subst h
      refine ⟨?_, fun other hne => ?_, rfl, .inl ⟨by simp, rfl⟩⟩
      · refine RunEffect.to_view (.cancelledIdle researcherId requestId hrun (.inl hqueued)) ?_
        simp [Database.view, Database.setTables, releaseRetentionInTransaction]
      · simp [Database.setTables, releaseRetentionInTransaction, hne]
    · cases h

lemma confirmCancelled_affects {claim : ResearchRunExecutionClaim}
    (h : confirmCancelled db claim = .ok db') :
    Affects sha256 claim.runId (.confirmCancelled claim) db db' := by
  simp only [confirmCancelled, bind_ok_iff, found_ok_iff, require_ok_iff,
    releaseExecutionCheckpoints_setTables] at h
  obtain ⟨run, howned, _, hcancelling, _, hcount, hpin⟩ := h
  have hfound : ∃ attempt ∈ (db.tables claim.runId).attempts,
      (cancellingAttempt claim.attemptId attempt && decide (attempt.fence = claim.fence)) = true := by
    rw [← List.countP_pos_iff]
    omega
  refine affects_of_releasePin hpin (by simp)
    (RunEffect.cancelFinished (v := db.view claim.runId) (.confirmCancelled claim) _
      (ownedRun_eq_some howned).1 hcancelling (fun attempt hattempt => ?_) hfound
      (.inl ⟨claim, rfl⟩)) rfl rfl rfl rfl rfl
  simp only [cancellingAttempt, Bool.and_eq_true, decide_eq_true_eq] at hattempt
  exact hattempt.1.2

lemma recoverCancelled_affects {runId : RunId} {attemptId : AttemptId}
    (h : recoverCancelledAttempt db runId attemptId = .ok db') :
    Affects sha256 runId (.recoverCancelled runId attemptId) db db' := by
  simp only [recoverCancelledAttempt, bind_ok_iff, found_ok_iff, require_ok_iff,
    releaseExecutionCheckpoints_setTables] at h
  obtain ⟨run, hrun, lost, hfind, _, ⟨hcancelling, hstatus, _⟩, hpin⟩ := h
  have hid : lost.id = attemptId := by simpa using List.find?_some hfind
  refine affects_of_releasePin hpin (by simp)
    (RunEffect.cancelFinished (v := db.view runId) (.recoverCancelled runId attemptId) _
      hrun hcancelling (fun attempt hattempt => ?_)
      ⟨lost, List.mem_of_find?_eq_some hfind, by simp [cancellingAttempt, hid, hstatus]⟩
      (.inr ⟨attemptId, rfl⟩)) rfl rfl rfl rfl rfl
  simp only [cancellingAttempt, Bool.decide_and, Bool.and_eq_true, decide_eq_true_eq] at hattempt
  exact hattempt.2

lemma releaseManifest_ok (db : Database Digest) (manifest : Digest) (stillReferenced : Bool) :
    ∃ manifests, (∀ m ∈ manifests, m ∈ db.manifests) ∧
      releaseManifestInTransaction db manifest stillReferenced =
        { db with manifests := manifests } := by
  cases stillReferenced with
  | true => exact ⟨db.manifests, fun _ hm => hm, rfl⟩
  | false => exact ⟨_, fun _ hm => (List.mem_filter.mp hm).1, rfl⟩

lemma delete_affects {researcherId : ResearcherId} {runId : RunId} {stillReferenced : Bool}
    (h : delete db researcherId runId stillReferenced = .ok db') :
    Affects sha256 runId (.delete researcherId runId stillReferenced) db db' := by
  simp only [delete, bind_ok_iff, found_ok_iff, require_ok_iff] at h
  obtain ⟨run, howned, _, hterminal, h⟩ := h
  have hrun := (ownedRun_eq_some howned).1
  split at h
  · simp only [pure_ok_iff] at h
    subst h
    refine ⟨?_, fun other hne => ?_, rfl, .inl ⟨by simp, rfl⟩⟩
    · refine RunEffect.to_view
        (.deleted researcherId stillReferenced hrun hterminal fun _ hm => hm) ?_
      simp [Database.view, Database.setTables]
    · simp [Database.setTables, hne]
  · simp only [pure_ok_iff] at h
    obtain ⟨manifests, hsub, heq⟩ := releaseManifest_ok
      { db.setTables runId .empty with
        cancelReceipts := db.cancelReceipts.filter fun receipt =>
          ¬(receipt.researcherId = researcherId ∧ receipt.runId = runId) } _ stillReferenced
    rw [heq] at h
    subst h
    refine ⟨?_, fun other hne => ?_, rfl, .inl ⟨by simp, rfl⟩⟩
    · refine RunEffect.to_view (.deleted researcherId stillReferenced hrun hterminal hsub) ?_
      simp [Database.view, Database.setTables]
    · simp [Database.setTables, hne]

/-! ### Committed steps -/

/-- A committed step either advances the clock or affects exactly one Run. The claims known
to the workers grow only by the claim that a claim transaction hands out. -/
theorem step_affects {leaseSeconds : Nat} {w w' : World Digest} {a : Action Digest}
    (h : Step sha256 leaseSeconds w a w') :
    (∃ clock, a = .tick clock ∧ w.db.clock ≤ clock ∧
      w' = { w with db := { w.db with clock := clock } }) ∨
    ∃ runId, a.runId = some runId ∧ Affects sha256 runId a w.db w'.db ∧
      ∀ claim ∈ w'.claims, claim ∈ w.claims ∨ ClaimHandedOut w.db w'.db runId claim := by
  cases a with
  | tick clock =>
    simp only [Step, step, bind_ok_iff, require_ok_iff, pure_ok_iff] at h
    obtain ⟨_, hle, rfl⟩ := h
    exact .inl ⟨clock, rfl, hle, rfl⟩
  | admitRun runId researcherId input executionOwner =>
    simp only [Step, step, bind_ok_iff, pure_ok_iff] at h
    obtain ⟨db, hdb, rfl⟩ := h
    exact .inr ⟨runId, rfl, admitRun_affects hdb, fun _ hc => .inl hc⟩
  | claim runId attemptId pinId dataThroughSession generationMatches =>
    simp only [Step, step, bind_ok_iff, pure_ok_iff] at h
    obtain ⟨⟨db, result⟩, hdb, rfl⟩ := h
    obtain ⟨haffects, ⟨claim, rfl, hclaim⟩ | ⟨recovery, rfl, rfl⟩⟩ := claimNext_affects hdb
    · refine .inr ⟨runId, rfl, haffects, fun other hother => ?_⟩
      rcases List.mem_append.mp hother with hold | hnew
      · exact .inl hold
      · rw [List.mem_singleton] at hnew
        exact .inr (hnew ▸ hclaim)
    · exact .inr ⟨runId, rfl, haffects, fun _ hc => .inl hc⟩
  | finishExhausted recovery =>
    simp only [Step, step, bind_ok_iff, require_ok_iff, pure_ok_iff] at h
    obtain ⟨_, _, db, hdb, rfl⟩ := h
    exact .inr ⟨_, rfl, finishExhausted_affects hdb, fun _ hc => .inl hc⟩
  | heartbeat claim =>
    simp only [Step, step, bind_ok_iff, require_ok_iff, pure_ok_iff] at h
    obtain ⟨_, _, db, hdb, rfl⟩ := h
    exact .inr ⟨_, rfl, heartbeat_affects hdb, fun _ hc => .inl hc⟩
  | commit claim chunk expectedPrior =>
    simp only [Step, step, bind_ok_iff, require_ok_iff, pure_ok_iff] at h
    obtain ⟨_, _, db, hdb, rfl⟩ := h
    exact .inr ⟨_, rfl, commit_affects hdb, fun _ hc => .inl hc⟩
  | publish claim resultObjects holdingObjects =>
    simp only [Step, step, bind_ok_iff, require_ok_iff, pure_ok_iff] at h
    obtain ⟨_, _, db, hdb, rfl⟩ := h
    exact .inr ⟨_, rfl, publish_affects hdb, fun _ hc => .inl hc⟩
  | fail claim attemptReason publicReason =>
    simp only [Step, step, bind_ok_iff, require_ok_iff, pure_ok_iff] at h
    obtain ⟨_, _, db, hdb, rfl⟩ := h
    exact .inr ⟨_, rfl, recordFailure_affects hdb, fun _ hc => .inl hc⟩
  | cancel researcherId runId requestId =>
    simp only [Step, step, bind_ok_iff, pure_ok_iff] at h
    obtain ⟨db, hdb, rfl⟩ := h
    exact .inr ⟨_, rfl, cancel_affects hdb, fun _ hc => .inl hc⟩
  | confirmCancelled claim =>
    simp only [Step, step, bind_ok_iff, require_ok_iff, pure_ok_iff] at h
    obtain ⟨_, _, db, hdb, rfl⟩ := h
    exact .inr ⟨_, rfl, confirmCancelled_affects hdb, fun _ hc => .inl hc⟩
  | recoverCancelled runId attemptId =>
    simp only [Step, step, bind_ok_iff, pure_ok_iff] at h
    obtain ⟨db, hdb, rfl⟩ := h
    exact .inr ⟨_, rfl, recoverCancelled_affects hdb, fun _ hc => .inl hc⟩
  | delete researcherId runId stillReferenced =>
    simp only [Step, step, bind_ok_iff, pure_ok_iff] at h
    obtain ⟨db, hdb, rfl⟩ := h
    exact .inr ⟨_, rfl, delete_affects hdb, fun _ hc => .inl hc⟩

end ThesisTrace.ResearchRun
