import ThesisTrace.Library.Execution
import Mathlib.Logic.Function.Basic

/-!
# Publication of the Dataset Head

The Head is one file that is replaced by rename. A publication replaces it inside a database
transaction that also records the publication receipts and releases the protecting candidate.
Every call runs in small steps, any of which may raise instead.
-/

namespace ThesisTrace.Data
open LabelledTransition

abbrev Sha256 := Nat
abbrev Time := Nat
abbrev OperationId := Nat
abbrev IdempotencyKey := Nat
abbrev CallId := Nat

/-! ### The Head -/

structure DatasetCoverage where
  firstSession : Nat
  lastSession : Nat
  sessionCount : Nat
  deriving DecidableEq, Repr

structure GenerationDescriptor where
  manifestSha256 : Sha256
  dataIdentity : Sha256
  /-- The coverage of the first family, when that is the research calendar. -/
  calendarCoverage : Option DatasetCoverage
  dataThroughSession : Nat
  /-- The time that the preparation metadata carries. -/
  preparedAt : Option Time
  deriving DecidableEq, Repr

structure DatasetHeadPointer where
  generationManifestSha256 : Sha256
  dataIdentity : Sha256
  datasetCoverage : DatasetCoverage
  dataThroughSession : Nat
  preparedAt : Time
  benchmarkSnapshotSha256 : Option Sha256
  deriving DecidableEq, Repr

/-- `none` where the source raises. -/
def pointerFromGeneration (generation : GenerationDescriptor) (preparedAt : Option Time)
    (benchmarkSnapshot : Option Sha256) : Option DatasetHeadPointer := do
  let preparedAt ← preparedAt <|> generation.preparedAt
  let coverage ← generation.calendarCoverage
  return {
    generationManifestSha256 := generation.manifestSha256
    dataIdentity := generation.dataIdentity
    datasetCoverage := coverage
    dataThroughSession := generation.dataThroughSession
    preparedAt := preparedAt
    benchmarkSnapshotSha256 := benchmarkSnapshot }

/-! ### The database rows -/

structure GenerationCandidate where
  generationManifestSha256 : Sha256
  live : Bool
  leaseExpiresAt : Time
  deriving DecidableEq, Repr

inductive RefreshStatus
  | running | prepared | succeeded | succeededWithPending | succeededWithGaps | failed
  deriving DecidableEq, Repr

structure RefreshOperation where
  status : RefreshStatus
  composedGenerationManifestSha256 : Option Sha256
  publicationHeadMovedAt : Option Time
  deriving DecidableEq, Repr

inductive ReceiptTable
  | financial | dailyFinancial | industry
  deriving DecidableEq, Repr

/-- The status of an operation whose publication may be recorded. -/
def ReceiptTable.publishable : ReceiptTable → RefreshStatus
  | .financial | .industry => .succeeded
  | .dailyFinancial => .running

structure Tables where
  candidates : OperationId → Option GenerationCandidate
  operations : ReceiptTable → IdempotencyKey → Option RefreshOperation

inductive Row
  | candidate (operation : OperationId)
  | receipt (table : ReceiptTable) (key : IdempotencyKey)
  deriving DecidableEq

/-- The row is the same in both states of the database. -/
def SameRow (tables tables' : Tables) : Row → Prop
  | .candidate operation => tables'.candidates operation = tables.candidates operation
  | .receipt table key => tables'.operations table key = tables.operations table key

/-! ### Calls -/

structure SwapCall where
  expectedGeneration : Option Sha256
  /-- The descriptor that the candidate resolved to. -/
  generation : GenerationDescriptor
  /-- The operation whose candidate protects the generation, if the call requires one. -/
  protectedBy : Option OperationId
  preparedAt : Option Time
  benchmarkSnapshot : Option Sha256
  financialPublicationKey : Option IdempotencyKey
  dailyFinancialPublicationKey : Option IdempotencyKey
  industryPublicationKey : Option IdempotencyKey

def compareAndSwapHead (expected : Option Sha256) (generation : GenerationDescriptor)
    (operation : OperationId) (preparedAt : Option Time) (benchmarkSnapshot : Option Sha256)
    (financialKey dailyFinancialKey industryKey : Option IdempotencyKey) : SwapCall :=
  ⟨expected, generation, some operation, preparedAt, benchmarkSnapshot, financialKey,
    dailyFinancialKey, industryKey⟩

def compareAndSwapRefreshHead (expected : Option Sha256) (generation : GenerationDescriptor)
    (operation : OperationId) (preparedAt : Option Time) (benchmarkSnapshot : Option Sha256) :
    SwapCall :=
  ⟨expected, generation, some operation, preparedAt, benchmarkSnapshot, none, none, none⟩

/-- A refresh without new data only refers the Head to its benchmark snapshot. -/
def completeNoChange (generation : GenerationDescriptor) (benchmarkSnapshot : Sha256) : SwapCall :=
  ⟨some generation.manifestSha256, generation, none, none, some benchmarkSnapshot, none, none,
    none⟩

namespace SwapCall

/-- The receipts that the call records, in order. -/
def receipts (call : SwapCall) : List (ReceiptTable × IdempotencyKey) :=
  (call.financialPublicationKey.map fun key => (.financial, key)).toList ++
    (call.dailyFinancialPublicationKey.map fun key => (.dailyFinancial, key)).toList ++
    (call.industryPublicationKey.map fun key => (.industry, key)).toList

/-- The Head that replaces `current`. -/
def pointer (call : SwapCall) (current : Option DatasetHeadPointer) : Option DatasetHeadPointer :=
  pointerFromGeneration call.generation call.preparedAt
    (call.benchmarkSnapshot <|> current.bind DatasetHeadPointer.benchmarkSnapshotSha256)

/-- The candidate row protects the generation. -/
def Protected (call : SwapCall) (tables : Tables) : Prop :=
  ∀ operation, call.protectedBy = some operation → ∃ candidate,
    tables.candidates operation = some candidate ∧ candidate.live = true ∧
      candidate.generationManifestSha256 = call.generation.manifestSha256

/-- The `WHERE` clause of a receipt. -/
def Recordable (call : SwapCall) (tables : Tables) (receipt : ReceiptTable × IdempotencyKey) :
    Prop :=
  ∃ row, tables.operations receipt.1 receipt.2 = some row ∧
    row.status = receipt.1.publishable ∧
    row.composedGenerationManifestSha256 = some call.generation.manifestSha256 ∧
    row.publicationHeadMovedAt = none

/-- What the transaction of the call commits. -/
def commitTables (call : SwapCall) (tables : Tables) : Tables where
  candidates operation :=
    if call.protectedBy = some operation then
      (tables.candidates operation).map fun row => { row with live := false }
    else tables.candidates operation
  operations table key :=
    if (table, key) ∈ call.receipts then
      (tables.operations table key).map fun row =>
        { row with publicationHeadMovedAt := call.preparedAt }
    else tables.operations table key

end SwapCall

/-! ### Steps -/

/-- How far the open transaction of a call has come. -/
inductive Phase
  | resolved
  | lifecycleLocked
  | guarded
  | candidateLocked
  | headLocked
  | compared (current : Option DatasetHeadPointer)
  | renamed (pointer : DatasetHeadPointer)
  | recording (pointer : DatasetHeadPointer) (done left : List (ReceiptTable × IdempotencyKey))
  | candidateReleased (pointer : DatasetHeadPointer)
  | guardExited (pointer : DatasetHeadPointer)

inductive CallState
  | unused
  | running (call : SwapCall) (phase : Phase)
  | returned (pointer : DatasetHeadPointer)
  | raised

/-- The rows that the open transaction has locked. -/
def Phase.rows (call : SwapCall) : Phase → List Row
  | .resolved | .lifecycleLocked | .guarded => []
  | .candidateLocked | .headLocked | .compared _ | .renamed _ =>
    (call.protectedBy.map Row.candidate).toList
  | .recording _ done _ =>
    (call.protectedBy.map Row.candidate).toList ++ done.map fun r => Row.receipt r.1 r.2
  | .candidateReleased _ | .guardExited _ =>
    (call.protectedBy.map Row.candidate).toList ++ call.receipts.map fun r => Row.receipt r.1 r.2

structure SwapState where
  head : Option DatasetHeadPointer
  tables : Tables
  /-- The advisory lock of the Data lifecycle. -/
  lifecycleLock : Option CallId
  /-- The lock on the Head's lock file. -/
  headLock : Option CallId
  calls : CallId → CallState

def SwapState.setCall (s : SwapState) (c : CallId) (state : CallState) : SwapState :=
  { s with calls := Function.update s.calls c state }

/-- The end of a call gives back its locks. -/
def SwapState.endCall (s : SwapState) (c : CallId) (state : CallState) : SwapState :=
  { s.setCall c state with
    lifecycleLock := if s.lifecycleLock = some c then none else s.lifecycleLock
    headLock := if s.headLock = some c then none else s.headLock }

inductive SwapEvent
  | started (c : CallId) (call : SwapCall)
  | progressed (c : CallId)
  | moved (c : CallId) (pointer : DatasetHeadPointer)
  | committed (c : CallId) (call : SwapCall)
  | raised (c : CallId)
  | otherTransaction (tables : Tables)

inductive SwapStep : SwapState → SwapEvent → SwapState → Prop
  | start {s c} (call) (hc : s.calls c = .unused) :
    SwapStep s (.started c call) (s.setCall c (.running call .resolved))
  | lockLifecycle {s c call} (hc : s.calls c = .running call .resolved)
    (hfree : s.lifecycleLock = none) :
    SwapStep s (.progressed c)
      { s.setCall c (.running call .lifecycleLocked) with lifecycleLock := some c }
  | enterGuard {s c call} (hc : s.calls c = .running call .lifecycleLocked) :
    SwapStep s (.progressed c) (s.setCall c (.running call .guarded))
  | lockCandidate {s c call} (now : Time) (hc : s.calls c = .running call .guarded)
    (hlive : call.Protected s.tables)
    (hlease : ∀ operation row, call.protectedBy = some operation →
      s.tables.candidates operation = some row → now < row.leaseExpiresAt) :
    SwapStep s (.progressed c) (s.setCall c (.running call .candidateLocked))
  | lockHead {s c call} (hc : s.calls c = .running call .candidateLocked)
    (hfree : s.headLock = none) :
    SwapStep s (.progressed c) { s.setCall c (.running call .headLocked) with headLock := some c }
  | compare {s c call} (hc : s.calls c = .running call .headLocked)
    (hexpected : s.head.map DatasetHeadPointer.generationManifestSha256 =
      call.expectedGeneration) :
    SwapStep s (.progressed c) (s.setCall c (.running call (.compared s.head)))
  | rename {s c call current pointer} (hc : s.calls c = .running call (.compared current))
    (hpointer : call.pointer current = some pointer) :
    SwapStep s (.moved c pointer)
      { s.setCall c (.running call (.renamed pointer)) with head := some pointer }
  | unlockHead {s c call pointer} (hc : s.calls c = .running call (.renamed pointer)) :
    SwapStep s (.progressed c)
      { s.setCall c (.running call (.recording pointer [] call.receipts)) with headLock := none }
  | recordReceipt {s c call pointer done receipt left}
    (hc : s.calls c = .running call (.recording pointer done (receipt :: left)))
    (hrow : call.Recordable s.tables receipt) :
    SwapStep s (.progressed c)
      (s.setCall c (.running call (.recording pointer (done ++ [receipt]) left)))
  | releaseCandidate {s c call pointer done}
    (hc : s.calls c = .running call (.recording pointer done [])) :
    SwapStep s (.progressed c) (s.setCall c (.running call (.candidateReleased pointer)))
  | exitGuard {s c call pointer} (hc : s.calls c = .running call (.candidateReleased pointer)) :
    SwapStep s (.progressed c) (s.setCall c (.running call (.guardExited pointer)))
  | commit {s c call pointer} (hc : s.calls c = .running call (.guardExited pointer)) :
    SwapStep s (.committed c call)
      { s.endCall c (.returned pointer) with tables := call.commitTables s.tables }
  | raise {s c call phase} (hc : s.calls c = .running call phase) :
    SwapStep s (.raised c) (s.endCall c .raised)
  | other {s} (tables : Tables)
    (hlocked : ∀ c call phase, s.calls c = .running call phase →
      ∀ row ∈ phase.rows call, SameRow s.tables tables row) :
    SwapStep s (.otherTransaction tables) { s with tables := tables }

/-- No call has started. The Head and the tables are arbitrary. -/
structure SwapState.Initial (s : SwapState) : Prop where
  lifecycleLock : s.lifecycleLock = none
  headLock : s.headLock = none
  calls : ∀ c, s.calls c = .unused

end ThesisTrace.Data
