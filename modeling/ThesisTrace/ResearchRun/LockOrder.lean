import ThesisTrace.Library.Execution
import ThesisTrace.Library.LockOrder
import ThesisTrace.ResearchRun.Schema

/-!
# Lock order of the Run service

The locks that the transactions of the Run service take, in the order of their statements. Rows
that only the holder of the Run row touches (progress, quota ownership, receipts) are left out,
as are rows that a transaction inserts and nobody else can name. A transaction may end after
every statement: by an early return, an error, or the loss of its worker.
-/

namespace ThesisTrace.ResearchRun
open LabelledTransition LockOrder Relation

abbrev BatchId := Nat
abbrev FolderId := Nat
abbrev TransactionId := Nat

/-! ### Locks -/

/-- The row lock modes of PostgreSQL; an advisory lock is taken in mode `update`. -/
inductive LockMode
  | keyShare
  | share
  | noKeyUpdate
  | update
  deriving DecidableEq, Repr

def LockMode.conflicts : LockMode → LockMode → Bool
  | .update, _ | _, .update => true
  | .noKeyUpdate, .noKeyUpdate | .noKeyUpdate, .share | .share, .noKeyUpdate => true
  | .keyShare, _ | _, .keyShare | .share, .share => false

lemma LockMode.conflicts_symm (m m' : LockMode) : m.conflicts m' = m'.conflicts m := by
  cases m <;> cases m' <;> rfl

inductive RequestKind
  | admission
  | cancel
  | startTracking
  deriving DecidableEq, Repr

inductive Lock
  | publicationMutation
  | request (kind : RequestKind) (researcherId : ResearcherId) (requestId : RequestId)
  | folderRow (folderId : FolderId)
  | dailyRunQuota (researcherId : ResearcherId)
  | claimFair
  | resultStaging (runId : RunId)
  | batchRow (batchId : BatchId)
  | batchAttemptRow (batchId : BatchId) (attemptId : AttemptId)
  | runRow (runId : RunId)
  | attemptRow (runId : RunId) (attemptId : AttemptId)
  | executionCheckpoints (runId : RunId)
  | batchItemRow (runId : RunId)
  | batchProgressRow (batchId : BatchId)
  | activationCapacity (researcherId : ResearcherId)
  | activationSeed (runId : RunId)
  | dataLifecycle
  | executionOpportunity (researcherId : ResearcherId)
  deriving DecidableEq, Repr

/-- The order that the transactions keep, the publication lock first and the Data lifecycle lock
after every Run and attempt row. -/
@[simp] def Lock.rank : Lock → Nat
  | .publicationMutation => 0
  | .request .. => 1
  | .folderRow _ => 2
  | .dailyRunQuota _ | .claimFair | .resultStaging _ => 3
  | .batchRow _ => 4
  | .batchAttemptRow .. => 5
  | .runRow _ => 6
  | .executionCheckpoints _ => 7
  | .attemptRow .. => 8
  | .batchItemRow _ => 9
  | .batchProgressRow _ => 10
  | .activationCapacity _ => 11
  | .activationSeed _ => 12
  | .dataLifecycle => 13
  | .executionOpportunity _ => 14

/-- Checkpoint rows are locked under their Run row only. -/
@[simp] def Lock.guard : Lock → Option Lock
  | .executionCheckpoints runId => some (.runRow runId)
  | _ => none

/-- Only a holder of the Run row locks several of its attempt rows. -/
@[simp] def Lock.cover : Lock → Option Lock
  | .attemptRow runId _ => some (.runRow runId)
  | _ => none

def lockProtocol : Protocol Lock LockMode Nat where
  Conflicts m m' := m.conflicts m' = true
  conflicts_symm m m' h := (m'.conflicts_symm m).trans h
  exclusive := .update
  conflicts_exclusive := rfl
  rank := Lock.rank
  guard := Lock.guard
  cover := Lock.cover

/-! ### Transactions -/

inductive Statement
  /-- Wait until the lock is granted. -/
  | lock (l : Lock) (mode : LockMode)
  /-- Take a row that is free at once, or do not select it. -/
  | skipLocked (l : Lock) (mode : LockMode)
  /-- `_release_execution_checkpoints`, which releases one manifest per row that it finds. -/
  | releaseExecutionCheckpoints (runId : RunId)
  deriving DecidableEq, Repr

inductive ServiceTransaction
  | completeBatchOwnedFactorItem (batchId : BatchId) (batchAttemptId : AttemptId) (runId : RunId)
  | completeBatchOwnedStrategyItem (batchId : BatchId) (batchAttemptId : AttemptId) (runId : RunId)
  | failBatchOwnedItem (batchId : BatchId) (batchAttemptId : AttemptId) (runId : RunId)
  | authorizeBatchResultStaging (batchId : BatchId) (batchAttemptId : AttemptId) (runId : RunId)
  | admissionReplay (researcherId : ResearcherId) (requestId : RequestId)
  | admitRun (researcherId : ResearcherId) (requestId : RequestId) (folderId : FolderId)
      (runId : RunId)
  | recordAdmissionRejection (researcherId : ResearcherId) (requestId : RequestId)
  | organize (runId : RunId) (folderId : Option FolderId)
  | delete (runId : RunId) (attemptIds : List AttemptId)
  | cancel (researcherId : ResearcherId) (requestId : RequestId) (runId : RunId)
      (runningAttemptId : Option AttemptId)
  | confirmCancelled (runId : RunId) (attemptId : AttemptId)
  | recoverCancelledAttempt (runId : RunId) (attemptId : AttemptId)
  | startTracking (researcherId : ResearcherId) (requestId : RequestId) (runId : RunId)
  | claimNext (researcherId : ResearcherId) (runId : RunId) (expiredAttemptId : Option AttemptId)
  | finishExhaustedWorkerLoss (runId : RunId) (attemptId : AttemptId)
  | heartbeatClaim (runId : RunId) (attemptId : AttemptId)
  | recordProcessingMeasurement (runId : RunId) (attemptId : AttemptId)
  | validateCurrentExecution (runId : RunId)
  | commitExecutionChunk (runId : RunId) (attemptId : AttemptId)
  | authorizeResultStaging (runId : RunId)
  | publishSuccess (runId : RunId) (attemptId : AttemptId)
  | recordFailure (runId : RunId) (attemptId : AttemptId) (retry : Bool)
  deriving DecidableEq, Repr

namespace ServiceTransaction

/-- `_authorize_claim_in_transaction` of the Batch that owns a Run. -/
def authorizeBatch (batchId : BatchId) (batchAttemptId : AttemptId) : List Statement :=
  [.lock (.batchRow batchId) .update, .lock (.batchAttemptRow batchId batchAttemptId) .update]

/-- `_complete_item_in_transaction`, after it authorised the Batch again. -/
def completeBatchItem (batchId : BatchId) (runId : RunId) : List Statement :=
  [.lock (.batchItemRow runId) .noKeyUpdate, .lock (.batchProgressRow batchId) .update]

def statements : ServiceTransaction → List Statement
  | .completeBatchOwnedFactorItem batchId batchAttemptId runId
  | .completeBatchOwnedStrategyItem batchId batchAttemptId runId =>
    .lock .publicationMutation .update :: authorizeBatch batchId batchAttemptId ++
      [.lock (.runRow runId) .update, .lock .publicationMutation .update] ++
      authorizeBatch batchId batchAttemptId ++ completeBatchItem batchId runId
  | .failBatchOwnedItem batchId batchAttemptId runId =>
    authorizeBatch batchId batchAttemptId ++ [.lock (.runRow runId) .update] ++
      authorizeBatch batchId batchAttemptId ++ completeBatchItem batchId runId
  | .authorizeBatchResultStaging batchId batchAttemptId runId =>
    .lock (.resultStaging runId) .update :: authorizeBatch batchId batchAttemptId ++
      [.lock (.runRow runId) .update]
  | .admissionReplay researcherId requestId | .recordAdmissionRejection researcherId requestId =>
    [.lock (.request .admission researcherId requestId) .update]
  | .admitRun researcherId requestId folderId runId =>
    [.lock (.request .admission researcherId requestId) .update, .lock (.folderRow folderId) .keyShare,
      .lock (.dailyRunQuota researcherId) .update, .lock (.runRow runId) .update,
      .lock .dataLifecycle .update]
  | .organize runId folderId =>
    (folderId.map fun folder => Statement.lock (.folderRow folder) .keyShare).toList ++
      [.lock (.runRow runId) .noKeyUpdate]
  | .delete runId attemptIds =>
    .lock .publicationMutation .update :: .lock (.runRow runId) .update ::
      .lock (.executionCheckpoints runId) .update ::
      attemptIds.map (fun attemptId => Statement.lock (.attemptRow runId attemptId) .update) ++
      [.lock (.batchItemRow runId) .update, .lock .publicationMutation .update]
  | .cancel researcherId requestId runId runningAttemptId =>
    [.lock (.request .cancel researcherId requestId) .update,
      .lock (.resultStaging runId) .update, .lock (.runRow runId) .update] ++
      (runningAttemptId.map fun attemptId =>
        Statement.lock (.attemptRow runId attemptId) .noKeyUpdate).toList ++
      [.lock .dataLifecycle .update]
  | .confirmCancelled runId attemptId =>
    [.lock (.runRow runId) .update, .lock (.attemptRow runId attemptId) .noKeyUpdate,
      .releaseExecutionCheckpoints runId, .lock .dataLifecycle .update]
  | .recoverCancelledAttempt runId attemptId =>
    [.skipLocked (.runRow runId) .update, .skipLocked (.attemptRow runId attemptId) .update,
      .releaseExecutionCheckpoints runId, .lock .dataLifecycle .update]
  | .startTracking researcherId requestId runId =>
    [.lock .publicationMutation .update,
      .lock (.request .startTracking researcherId requestId) .update,
      .lock (.runRow runId) .share, .lock (.activationCapacity researcherId) .update,
      .lock .publicationMutation .update, .lock (.activationSeed runId) .update]
  | .claimNext researcherId runId expiredAttemptId =>
    [.lock .claimFair .update, .skipLocked (.runRow runId) .update] ++
      (expiredAttemptId.map fun attemptId =>
        Statement.lock (.attemptRow runId attemptId) .noKeyUpdate).toList ++
      [.lock .dataLifecycle .update, .lock (.executionOpportunity researcherId) .update]
  | .finishExhaustedWorkerLoss runId attemptId =>
    [.lock .publicationMutation .update, .lock (.runRow runId) .update,
      .lock (.attemptRow runId attemptId) .noKeyUpdate, .lock .dataLifecycle .update,
      .releaseExecutionCheckpoints runId]
  | .heartbeatClaim runId attemptId =>
    [.lock (.attemptRow runId attemptId) .update, .lock .dataLifecycle .update]
  | .recordProcessingMeasurement runId attemptId => [.lock (.attemptRow runId attemptId) .update]
  | .validateCurrentExecution runId => [.lock (.runRow runId) .update]
  | .commitExecutionChunk runId attemptId =>
    [.lock .publicationMutation .update, .lock (.runRow runId) .update,
      .lock (.executionCheckpoints runId) .update, .lock .publicationMutation .update,
      .lock (.runRow runId) .update, .lock (.attemptRow runId attemptId) .keyShare]
  | .authorizeResultStaging runId =>
    [.lock (.resultStaging runId) .update, .lock (.runRow runId) .update]
  | .publishSuccess runId attemptId =>
    [.lock .publicationMutation .update, .lock (.runRow runId) .update,
      .lock .publicationMutation .update, .releaseExecutionCheckpoints runId,
      .lock (.attemptRow runId attemptId) .noKeyUpdate, .lock .dataLifecycle .update]
  | .recordFailure runId attemptId retry =>
    [.lock (.runRow runId) .update, .lock (.attemptRow runId attemptId) .update] ++
      (if retry then [] else [.releaseExecutionCheckpoints runId]) ++
      [.lock .dataLifecycle .update]

/-- The transactions that lock the Run row without the publication lock and go on to release its
execution checkpoints. -/
def releasesUnderRunRow : ServiceTransaction → Bool
  | .confirmCancelled .. | .recoverCancelledAttempt .. | .recordFailure .. => true
  | _ => false

/-- The execution checkpoint rows of each Run after the transaction commits. -/
def executionCheckpoints (checkpoints : RunId → Nat) : ServiceTransaction → RunId → Nat
  | .commitExecutionChunk runId _ => Function.update checkpoints runId (checkpoints runId + 1)
  | .delete runId _ | .confirmCancelled runId _ | .recoverCancelledAttempt runId _
  | .finishExhaustedWorkerLoss runId _ | .publishSuccess runId _ | .recordFailure runId _ false =>
    Function.update checkpoints runId 0
  | _ => checkpoints

end ServiceTransaction

/-! ### Interleavings -/

structure OpenTransaction where
  work : ServiceTransaction
  held : List (Lock × LockMode)
  rest : List Statement

structure LockState where
  opened : TransactionId → Option OpenTransaction
  checkpoints : RunId → Nat

def LockState.initial : LockState := ⟨fun _ => none, fun _ => 0⟩

def LockState.table (s : LockState) : Table TransactionId Lock LockMode := fun t =>
  (s.opened t).elim [] OpenTransaction.held

/-- The lock that a transaction asks for and has to wait for. -/
def LockState.request (s : LockState) (t : TransactionId) : Option (Lock × LockMode) :=
  (s.opened t).bind fun o =>
    match o.rest with
    | .lock l m :: _ => some (l, m)
    | _ => none

def LockState.setOpened (s : LockState) (t : TransactionId) (o : Option OpenTransaction) :
    LockState :=
  { s with opened := Function.update s.opened t o }

/-- A lock is held until the end of the transaction; taking it again changes nothing. -/
def take (held : List (Lock × LockMode)) (l : Lock) (m : LockMode) : List (Lock × LockMode) :=
  if (l, m) ∈ held then held else (l, m) :: held

/-- The statements that release the checkpoints found, each manifest under the publication
lock. -/
def releaseStatements (runId : RunId) (found : Nat) : List Statement :=
  .lock (.executionCheckpoints runId) .update ::
    List.replicate found (.lock .publicationMutation .update)

inductive LockAction
  | begin (t : TransactionId) (work : ServiceTransaction)
  | execute (t : TransactionId)
  | commit (t : TransactionId)
  | abandon (t : TransactionId)
  deriving DecidableEq, Repr

inductive LockStep : LockState → LockAction → LockState → Prop
  | begin {s : LockState} {t : TransactionId} (work : ServiceTransaction)
      (hnew : s.opened t = none) :
      LockStep s (.begin t work) (s.setOpened t (some ⟨work, [], work.statements⟩))
  | lock {s : LockState} {t : TransactionId} {work : ServiceTransaction}
      {held : List (Lock × LockMode)} {rest : List Statement} {l : Lock} {m : LockMode}
      (hopened : s.opened t = some ⟨work, held, .lock l m :: rest⟩)
      (hfree : Grantable lockProtocol s.table t l m) :
      LockStep s (.execute t) (s.setOpened t (some ⟨work, take held l m, rest⟩))
  | skipLocked {s : LockState} {t : TransactionId} {work : ServiceTransaction}
      {held : List (Lock × LockMode)} {rest : List Statement} {l : Lock} {m : LockMode}
      (hopened : s.opened t = some ⟨work, held, .skipLocked l m :: rest⟩)
      (hfree : Grantable lockProtocol s.table t l m) :
      LockStep s (.execute t) (s.setOpened t (some ⟨work, take held l m, rest⟩))
  | release {s : LockState} {t : TransactionId} {work : ServiceTransaction}
      {held : List (Lock × LockMode)} {rest : List Statement} {runId : RunId}
      (hopened : s.opened t = some ⟨work, held, .releaseExecutionCheckpoints runId :: rest⟩) :
      LockStep s (.execute t)
        (s.setOpened t
          (some ⟨work, held, releaseStatements runId (s.checkpoints runId) ++ rest⟩))
  | commit {s : LockState} {t : TransactionId} {work : ServiceTransaction}
      {held : List (Lock × LockMode)} (hopened : s.opened t = some ⟨work, held, []⟩) :
      LockStep s (.commit t)
        { s.setOpened t none with checkpoints := work.executionCheckpoints s.checkpoints }
  | abandon {s : LockState} {t : TransactionId} {o : OpenTransaction}
      (hopened : s.opened t = some o) : LockStep s (.abandon t) (s.setOpened t none)

/-! ### The statements follow the protocol -/

/-- The remaining statements follow the protocol. A transaction that releases checkpoints holds
the Run row and, unless it is `early`, the publication lock. -/
def Plan (early : Bool) : List (Lock × LockMode) → List Statement → Prop
  | _, [] => True
  | held, .lock l m :: rest | held, .skipLocked l m :: rest =>
    Follows lockProtocol held l m ∧ Plan early (take held l m) rest
  | held, .releaseExecutionCheckpoints runId :: rest =>
    (.runRow runId, .update) ∈ held ∧ (early = true ∨ (.publicationMutation, .update) ∈ held) ∧
      Plan early (take held (.executionCheckpoints runId) .update) rest

lemma mem_take {held : List (Lock × LockMode)} {l : Lock} {m : LockMode} {h : Lock × LockMode} :
    h ∈ take held l m ↔ h = (l, m) ∨ h ∈ held := by
  unfold take
  split
  · next hmem => exact ⟨.inr, fun hor => hor.elim (fun heq => heq ▸ hmem) id⟩
  · exact List.mem_cons

/-- A repeated lock. -/
lemma take_of_mem {held : List (Lock × LockMode)} {l : Lock} {m : LockMode} (h : (l, m) ∈ held) :
    take held l m = held :=
  if_pos h

lemma follows_iff {held : List (Lock × LockMode)} {l : Lock} {m : LockMode} :
    Follows lockProtocol held l m ↔
      (l, m) ∈ held ∨
        match l.guard with
        | some g => (g, .update) ∈ held
        | none => ∀ h ∈ held, h.1.guard = none →
          h.1.rank < l.rank ∨ h.1.rank = l.rank ∧
            ∃ c, h.1.cover = some c ∧ l.cover = some c ∧ (c, .update) ∈ held := by
  unfold Follows
  rw [show lockProtocol.guard l = l.guard from rfl]
  cases l.guard <;> rfl

/-- The rows of several attempts of one Run, in any order. -/
lemma plan_deleted_attempts {early : Bool} {runId : RunId} (attemptIds : List AttemptId)
    {held : List (Lock × LockMode)} (hrun : (.runRow runId, .update) ∈ held)
    (hpublication : (.publicationMutation, .update) ∈ held)
    (hbelow : ∀ h ∈ held, h.1.guard = none →
      h.1.rank < 8 ∨ h.1.rank = 8 ∧ h.1.cover = some (.runRow runId)) :
    Plan early held
      (attemptIds.map (fun attemptId => Statement.lock (.attemptRow runId attemptId) .update) ++
        [.lock (.batchItemRow runId) .update, .lock .publicationMutation .update]) := by
  induction attemptIds generalizing held with
  | nil =>
    refine ⟨follows_iff.mpr (.inr fun h hh hguard => ?_), .inl ?_, trivial⟩
    · have hrank : Lock.rank (.batchItemRow runId) = 9 := rfl
      rcases hbelow h hh hguard with hlt | ⟨heq, -⟩ <;> exact .inl (by omega)
    · exact mem_take.mpr (.inr hpublication)
  | cons attemptId rest ih =>
    refine ⟨follows_iff.mpr (.inr fun h hh hguard => ?_), ?_⟩
    · rcases hbelow h hh hguard with hlt | ⟨heq, hcover⟩
      · exact .inl hlt
      · exact .inr ⟨heq, _, hcover, rfl, hrun⟩
    · refine ih (mem_take.mpr (.inr hrun)) (mem_take.mpr (.inr hpublication)) fun h hh hguard => ?_
      rcases mem_take.mp hh with rfl | hheld
      · exact .inr ⟨rfl, rfl⟩
      · exact hbelow h hheld hguard

section Statements

open ServiceTransaction

lemma plan_statements (work : ServiceTransaction) :
    Plan work.releasesUnderRunRow [] work.statements := by
  cases work with
  | delete runId attemptIds =>
    refine ⟨by simp [follows_iff], by simp [follows_iff, take], by simp [follows_iff, take], ?_⟩
    exact plan_deleted_attempts attemptIds (by simp [take]) (by simp [take]) (by simp [take])
  | organize runId folderId => cases folderId <;> simp [statements, Plan, take, follows_iff]
  | cancel researcherId requestId runId runningAttemptId =>
    cases runningAttemptId <;> simp [statements, Plan, take, follows_iff]
  | claimNext researcherId runId expiredAttemptId =>
    cases expiredAttemptId <;> simp [statements, Plan, take, follows_iff]
  | recordFailure runId attemptId retry =>
    cases retry <;> simp [statements, releasesUnderRunRow, Plan, take, follows_iff]
  | confirmCancelled | recoverCancelledAttempt | finishExhaustedWorkerLoss | publishSuccess =>
    simp [statements, releasesUnderRunRow, Plan, take, follows_iff]
  | completeBatchOwnedFactorItem | completeBatchOwnedStrategyItem | failBatchOwnedItem
  | authorizeBatchResultStaging =>
    simp [statements, authorizeBatch, completeBatchItem, Plan, take, follows_iff]
  | admissionReplay | admitRun | recordAdmissionRejection | startTracking | heartbeatClaim
  | recordProcessingMeasurement | validateCurrentExecution | commitExecutionChunk
  | authorizeResultStaging => simp [statements, Plan, take, follows_iff]

end Statements

/-- The releases found under the publication lock, which the transaction already holds or does
not need. -/
lemma plan_releaseStatements {early : Bool} {held : List (Lock × LockMode)} {runId : RunId}
    {found : Nat} {rest : List Statement} (hrun : (.runRow runId, .update) ∈ held)
    (hpublication : found = 0 ∨ (.publicationMutation, .update) ∈ held)
    (hrest : Plan early (take held (.executionCheckpoints runId) .update) rest) :
    Plan early held (releaseStatements runId found ++ rest) := by
  refine ⟨follows_iff.mpr (.inr hrun), ?_⟩
  rcases hpublication with rfl | hpublication
  · exact hrest
  · induction found with
    | zero => exact hrest
    | succ found ih =>
      have hheld : (Lock.publicationMutation, LockMode.update) ∈
          take held (.executionCheckpoints runId) .update := mem_take.mpr (.inr hpublication)
      refine ⟨.inl hheld, ?_⟩
      rw [take_of_mem hheld]
      exact ih

/-! ### Every interleaving -/

structure Disciplined (s : LockState) : Prop where
  orderly : Orderly lockProtocol s.table
  plan : ∀ t o, s.opened t = some o → Plan o.work.releasesUnderRunRow o.held o.rest

lemma table_setOpened (s : LockState) (t : TransactionId) (o : Option OpenTransaction) :
    (s.setOpened t o).table = Function.update s.table t (o.elim [] OpenTransaction.held) := by
  funext u
  rcases eq_or_ne u t with rfl | hut
  · simp [LockState.table, LockState.setOpened]
  · simp [LockState.table, LockState.setOpened, hut]

lemma table_of_opened {s : LockState} {t : TransactionId} {o : OpenTransaction}
    (h : s.opened t = some o) : s.table t = o.held := by
  simp [LockState.table, h]

lemma disciplined_initial : Disciplined .initial where
  orderly := orderly_empty
  plan _ _ h := nomatch h

/-- One transaction changes; the lock table stays orderly. -/
lemma Disciplined.set {s : LockState} (h : Disciplined s) {t : TransactionId}
    {o : Option OpenTransaction}
    (htable : Orderly lockProtocol (Function.update s.table t (o.elim [] OpenTransaction.held)))
    (hplan : ∀ o', o = some o' → Plan o'.work.releasesUnderRunRow o'.held o'.rest) :
    Disciplined (s.setOpened t o) where
  orderly := (table_setOpened s t o).symm ▸ htable
  plan u o' hu := by
    rcases eq_or_ne u t with rfl | hut
    · exact hplan o' (by simpa [LockState.setOpened] using hu)
    · exact h.plan u o' (by simpa [LockState.setOpened, hut] using hu)

lemma Disciplined.close {s : LockState} (h : Disciplined s) (t : TransactionId) :
    Disciplined (s.setOpened t none) :=
  h.set (h.orderly.release t) fun _ ho' => by cases ho'

/-- A granted lock, which may repeat one. -/
lemma Disciplined.grant {s : LockState} (h : Disciplined s) {t : TransactionId}
    {work : ServiceTransaction} {held : List (Lock × LockMode)} {rest : List Statement} {l : Lock}
    {m : LockMode} (hheld : s.table t = held) (hfree : Grantable lockProtocol s.table t l m)
    (hfollows : Follows lockProtocol held l m)
    (hrest : Plan work.releasesUnderRunRow (take held l m) rest) :
    Disciplined (s.setOpened t (some ⟨work, take held l m, rest⟩)) := by
  subst hheld
  refine h.set ?_ fun o' ho' => ?_
  · unfold take
    split
    · rw [Option.elim_some, Function.update_eq_self]
      exact h.orderly
    · next hnew => exact h.orderly.grant hfree hfollows hnew
  · cases ho'
    exact hrest

/-- No transaction that locked the Run row without the publication lock finds a checkpoint of
the Run to release. -/
def ReleasesNothingUnderRunRow (s : LockState) (a : LockAction) : Prop :=
  ∀ t o runId rest, a = .execute t → s.opened t = some o →
    o.rest = .releaseExecutionCheckpoints runId :: rest → o.work.releasesUnderRunRow = true →
    s.checkpoints runId = 0

lemma disciplined_step {s s' : LockState} {a : LockAction} (h : Disciplined s)
    (hstep : restrict LockStep ReleasesNothingUnderRunRow s a s') : Disciplined s' := by
  obtain ⟨hstep, hallowed⟩ := hstep
  cases hstep with
  | begin work hnew =>
    refine h.set ?_ fun o' ho' => ?_
    · exact h.orderly.release _
    · cases ho'
      exact plan_statements work
  | lock hopened hfree =>
    obtain ⟨hfollows, hrest⟩ := h.plan _ _ hopened
    exact h.grant (table_of_opened hopened) hfree hfollows hrest
  | skipLocked hopened hfree =>
    obtain ⟨hfollows, hrest⟩ := h.plan _ _ hopened
    exact h.grant (table_of_opened hopened) hfree hfollows hrest
  | release hopened =>
    obtain ⟨hrun, hpublication, hrest⟩ := h.plan _ _ hopened
    refine h.set ?_ fun o' ho' => ?_
    · rw [Option.elim_some, ← table_of_opened hopened, Function.update_eq_self]
      exact h.orderly
    · cases ho'
      refine plan_releaseStatements hrun ?_ hrest
      exact hpublication.imp_left (hallowed _ _ _ _ rfl hopened rfl)
  | commit hopened => exact ⟨(h.close _).orderly, (h.close _).plan⟩
  | abandon hopened => exact h.close _

/-! ### The documented order -/

/-- The publication mutation lock before the Run and attempt rows, the Data lifecycle lock
last. -/
def documentedPosition : Lock → Option Nat
  | .publicationMutation => some 0
  | .runRow _ | .attemptRow .. => some 1
  | .dataLifecycle => some 2
  | _ => none

/-- Locks taken in the documented order, the latest first. -/
def InDocumentedOrder (held : List (Lock × LockMode)) : Prop :=
  (held.filterMap fun h => documentedPosition h.1).Pairwise fun later earlier => earlier ≤ later

lemma documentedPosition_mono {l k : Lock} {i j : Nat} (hl : documentedPosition l = some i)
    (hk : documentedPosition k = some j) (h : k.rank ≤ l.rank) : j ≤ i := by
  cases l <;> cases hl <;> cases k <;> cases hk <;> simp_all

lemma guard_of_documented {l : Lock} {i : Nat} (h : documentedPosition l = some i) :
    l.guard = none := by
  cases l <;> first | rfl | cases h

lemma Disciplined.inDocumentedOrder {s : LockState} (h : Disciplined s) (t : TransactionId) :
    InDocumentedOrder (s.table t) := by
  refine List.Pairwise.filterMap _ ?_ (h.orderly.increasing t)
  intro later earlier hrank i hi j hj
  exact documentedPosition_mono hi hj
    (hrank (guard_of_documented hi) (guard_of_documented hj))

/-- Every transaction took its locks in the documented order and no transactions wait for each
other in a cycle. -/
structure AcyclicLockOrder (s : LockState) : Prop where
  ordered : ∀ t, InDocumentedOrder (s.table t)
  acyclic : ∀ t, ¬TransGen (WaitsFor lockProtocol s.table s.request) t t

lemma Disciplined.follows {s : LockState} (h : Disciplined s) (t : TransactionId) (l : Lock)
    (m : LockMode) (hrequest : s.request t = some (l, m)) :
    Follows lockProtocol (s.table t) l m := by
  unfold LockState.request at hrequest
  cases hopened : s.opened t with
  | none => simp [hopened] at hrequest
  | some o =>
    have hplan := h.plan t o hopened
    rw [table_of_opened hopened]
    rw [hopened, Option.bind_some] at hrequest
    split at hrequest
    · next heq =>
      cases hrequest
      rw [heq] at hplan
      exact hplan.1
    · cases hrequest

/-- While the transactions that lock the Run row first find no checkpoint to release, every
reachable state keeps the documented order and has no cycle of waiting transactions. -/
theorem lock_order_acyclic {s : LockState} {trace : List LockAction}
    (h : Exec (restrict LockStep ReleasesNothingUnderRunRow) .initial trace s) :
    AcyclicLockOrder s := by
  have hdisciplined : Disciplined s :=
    h.invariant (fun _ _ _ hs ht => disciplined_step hs ht) disciplined_initial
  exact ⟨hdisciplined.inDocumentedOrder,
    no_wait_cycle hdisciplined.orderly hdisciplined.follows⟩

/-! ### A terminal failure against a deletion -/

lemma grantable_of_free {s : LockState} {t : TransactionId} {l : Lock} {m : LockMode}
    (h : ∀ u, u ≠ t → ∀ m', (l, m') ∉ s.table u) : Grantable lockProtocol s.table t l m :=
  fun u hut m' hheld => absurd hheld (h u hut m')

/-- One other transaction is open, and it does not hold the lock. -/
lemma grantable_beside {s : LockState} {t v : TransactionId} {l : Lock} {m : LockMode}
    {o : OpenTransaction} (hopened : s.opened v = some o) (hother : ∀ m', (l, m') ∉ o.held)
    (h : ∀ u, u ≠ t → u ≠ v → s.opened u = none) : Grantable lockProtocol s.table t l m := by
  refine grantable_of_free fun u hut m' hheld => ?_
  rcases eq_or_ne u v with rfl | huv
  · rw [table_of_opened hopened] at hheld
    exact hother m' hheld
  · simp [LockState.table, h u hut huv] at hheld

lemma grantable_alone {s : LockState} {t : TransactionId} {l : Lock} {m : LockMode}
    (h : ∀ u, u ≠ t → s.opened u = none) : Grantable lockProtocol s.table t l m :=
  grantable_of_free fun u hut m' hheld => by simp [LockState.table, h u hut] at hheld

/-- A worker fails Run 0 for good before it committed a chunk, while the Run is deleted. -/
def failureBeforeCheckpoint : List LockAction :=
  [.begin 1 (.recordFailure 0 0 false), .execute 1, .execute 1, .execute 1, .execute 1,
    .begin 2 (.delete 0 [0]), .execute 2]

theorem lock_order_acyclic_failure :
    ∃ s, Exec (restrict LockStep ReleasesNothingUnderRunRow) .initial failureBeforeCheckpoint s ∧
      s.request 1 = some (.dataLifecycle, .update) ∧
      s.request 2 = some (.runRow 0, .update) ∧ AcyclicLockOrder s := by
  have hexec : ∃ s, Exec (restrict LockStep ReleasesNothingUnderRunRow) .initial
      failureBeforeCheckpoint s ∧ s.request 1 = some (.dataLifecycle, .update) ∧
      s.request 2 = some (.runRow 0, .update) := by
    refine ⟨_, .cons ⟨.begin _ rfl, fun _ _ _ _ _ _ _ _ => rfl⟩
      (.cons ⟨.lock rfl (grantable_alone ?_), fun _ _ _ _ _ _ _ _ => rfl⟩
      (.cons ⟨.lock rfl (grantable_alone ?_), fun _ _ _ _ _ _ _ _ => rfl⟩
      (.cons ⟨.release rfl, fun _ _ _ _ _ _ _ _ => rfl⟩
      (.cons ⟨.lock rfl (grantable_alone ?_), fun _ _ _ _ _ _ _ _ => rfl⟩
      (.cons ⟨.begin _ rfl, fun _ _ _ _ _ _ _ _ => rfl⟩
      (.cons ⟨.lock rfl (grantable_beside (v := 1) rfl ?_ ?_), fun _ _ _ _ _ _ _ _ => rfl⟩
        .nil)))))), rfl, rfl⟩
    case refine_4 => simp [take]
    all_goals
      intro u
      intros
      simp [LockState.setOpened, LockState.initial, *]
  obtain ⟨s, hexec, hfirst, hsecond⟩ := hexec
  exact ⟨s, hexec, hfirst, hsecond, lock_order_acyclic hexec⟩

/-- The first attempt of Run 0 commits a chunk. The second one fails for good while the Run is
deleted. -/
def failureAfterCheckpoint : List LockAction :=
  [.begin 0 (.commitExecutionChunk 0 0), .execute 0, .execute 0, .execute 0, .execute 0,
    .execute 0, .execute 0, .commit 0, .begin 1 (.recordFailure 0 1 false), .execute 1,
    .execute 1, .execute 1, .execute 1, .begin 2 (.delete 0 [0, 1]), .execute 2]

/-- The failure holds the Run row and waits for the publication lock to release the chunk's
manifest; the deletion holds the publication lock and waits for the Run row. -/
theorem failure_and_delete_wait_in_cycle :
    ∃ s, Exec LockStep .initial failureAfterCheckpoint s ∧
      WaitsFor lockProtocol s.table s.request 1 2 ∧ WaitsFor lockProtocol s.table s.request 2 1 ∧
      ¬AcyclicLockOrder s := by
  have hexec : ∃ s, Exec LockStep .initial failureAfterCheckpoint s ∧
      WaitsFor lockProtocol s.table s.request 1 2 ∧
      WaitsFor lockProtocol s.table s.request 2 1 := by
    refine ⟨_, .cons (.begin _ rfl) (.cons (.lock rfl (grantable_alone ?_))
      (.cons (.lock rfl (grantable_alone ?_)) (.cons (.lock rfl (grantable_alone ?_))
      (.cons (.lock rfl (grantable_alone ?_)) (.cons (.lock rfl (grantable_alone ?_))
      (.cons (.lock rfl (grantable_alone ?_)) (.cons (.commit rfl) (.cons (.begin _ rfl)
      (.cons (.lock rfl (grantable_alone ?_)) (.cons (.lock rfl (grantable_alone ?_))
      (.cons (.release rfl) (.cons (.lock rfl (grantable_alone ?_)) (.cons (.begin _ rfl)
      (.cons (.lock rfl (grantable_beside (v := 1) rfl ?_ ?_)) .nil)))))))))))))),
      ⟨.publicationMutation, .update, .update, rfl, by decide, ?_, rfl⟩,
      ⟨.runRow 0, .update, .update, rfl, by decide, ?_, rfl⟩⟩
    case refine_10 => simp [take]
    case refine_12 => simp [LockState.table, LockState.setOpened, take]
    case refine_13 => simp [LockState.table, LockState.setOpened, take]
    all_goals
      intro u
      intros
      simp [LockState.setOpened, LockState.initial, *]
  obtain ⟨s, hexec, hfirst, hsecond⟩ := hexec
  exact ⟨s, hexec, hfirst, hsecond, fun h => h.acyclic 1 (.head hfirst (.single hsecond))⟩

end ThesisTrace.ResearchRun
