import ThesisTrace.Publication.Tables
import ThesisTrace.Library.Execution

/-!
# Publishers and collectors

Objects live in a content-addressed store outside the database. Publishers stage objects under a
shared staging lock and record manifests under the exclusive mutation lock; expiry and release take
the mutation lock as well. A collector holds the mutation lock and the staging lock exclusively
while it deletes an object. Everything else interleaves.
-/

namespace ThesisTrace.Publication
open LabelledTransition Transaction

abbrev TransactionId := Nat
abbrev ScopeId := Nat

/-- A manifest whose objects are being verified; those left are still to be read. -/
structure Recording where
  manifest : Manifest
  expiring : List String
  scope : Option ScopeId
  left : List ManifestObject

/-- How far the transaction of a collector has come. -/
inductive Collecting
  | mutationLocked
  | stagingLocked
  /-- The queued object is linked and stays. -/
  | retaining (digest : Sha256)
  /-- No row refers to the object, which was queued or is an orphan. -/
  | deleting (digest : Sha256) (queued : Bool)
  | deleted (digest : Sha256) (queued : Bool)

/-- A transaction that writes the tables works on its own copy until it commits. -/
inductive TransactionState
  | closed
  | mutating (work : Tables) (recording : Option Recording)
  | collecting (phase : Collecting)

structure PublicationState where
  /-- The byte size of each stored object. -/
  store : Sha256 → Option Nat
  tables : Tables
  mutationLock : Option TransactionId
  /-- The holder of the exclusive staging lock. -/
  stagingLock : Option TransactionId
  /-- The digests that each open staging scope has verified. -/
  scopes : ScopeId → Option (List Sha256)
  transactions : TransactionId → TransactionState

namespace PublicationState

def setTransaction (s : PublicationState) (t : TransactionId) (state : TransactionState) :
    PublicationState :=
  { s with transactions := Function.update s.transactions t state }

/-- The end of a transaction gives back its locks. -/
def endTransaction (s : PublicationState) (t : TransactionId) : PublicationState :=
  { s.setTransaction t .closed with
    mutationLock := none
    stagingLock := if s.stagingLock = some t then none else s.stagingLock }

/-- A read of an object inside a staging scope, if there is one and it is still open. -/
def noteVerified (s : PublicationState) (scope : Option ScopeId) (digest : Sha256) :
    PublicationState :=
  { s with scopes := fun k =>
      if scope = some k then (s.scopes k).map (digest :: ·) else s.scopes k }

end PublicationState

/-- What a collector writes when it commits. -/
def Collecting.commitTables (t : Tables) : Collecting → Tables
  | .retaining digest => dequeueDeletion t digest
  | .deleted digest true => deleteObjectRow t digest
  | .mutationLocked | .stagingLocked | .deleting _ _ | .deleted _ false => t

inductive PublicationEvent
  | openScope (k : ScopeId)
  | closeScope (k : ScopeId)
  | putObject (digest : Sha256)
  | verifyObject (digest : Sha256)
  | beginTransaction (t : TransactionId)
  | write (t : TransactionId)
  | deleteObject (digest : Sha256)
  | commit (t : TransactionId)
  | rollback (t : TransactionId)

section Steps

variable (manifestDigest : Manifest → Sha256)

/-- One atomic step. The times at which rows and objects fall due are left open. -/
inductive PublicationStep : PublicationState → PublicationEvent → PublicationState → Prop
  | openScope {s k} (hscope : s.scopes k = none) (hstaging : s.stagingLock = none) :
    PublicationStep s (.openScope k) { s with scopes := Function.update s.scopes k (some []) }
  /-- The publisher leaves the scope, or its session is lost. -/
  | closeScope {s} (k) :
    PublicationStep s (.closeScope k) { s with scopes := Function.update s.scopes k none }
  /-- `IfNoneMatch` leaves an object that is there. -/
  | putObject {s} (digest size) :
    PublicationStep s (.putObject digest)
      { s with store := Function.update s.store digest ((s.store digest).getD size) }
  | stageObject {s size} (scope digest) (hstored : s.store digest = some size) :
    PublicationStep s (.verifyObject digest) (s.noteVerified scope digest)
  | beginMutation {s t} (hclosed : s.transactions t = .closed) (hfree : s.mutationLock = none) :
    PublicationStep s (.beginTransaction t)
      { s.setTransaction t (.mutating s.tables none) with mutationLock := some t }
  /-- A release, or the expiry of a holding unit, which decides whether the manifest is still
  referenced before it takes the lock. -/
  | release {s t work} (hwork : s.transactions t = .mutating work none) (sha stillReferenced) :
    PublicationStep s (.write t)
      (s.setTransaction t (.mutating (releaseManifest work sha stillReferenced) none))
  | expirePayloads {s t work work'} (hwork : s.transactions t = .mutating work none) {sha}
    (hexpire : expirePayloads work sha = .ok work') :
    PublicationStep s (.write t) (s.setTransaction t (.mutating work' none))
  | beginRecord {s t work} (hwork : s.transactions t = .mutating work none) (m expiring scope)
    (hsession : ∀ k, scope = some k → (s.scopes k).isSome)
    (hchecks : recordChecks manifestDigest work m expiring = .ok ()) :
    PublicationStep s (.write t)
      (s.setTransaction t (.mutating work (some ⟨m, expiring, scope, m.objects⟩)))
  | verifyRecorded {s t work m expiring scope item left}
    (hwork : s.transactions t = .mutating work (some ⟨m, expiring, scope, item :: left⟩))
    (hstored : s.store item.sha256 = some item.byteSize) :
    PublicationStep s (.verifyObject item.sha256)
      ((s.noteVerified scope item.sha256).setTransaction t
        (.mutating work (some ⟨m, expiring, scope, left⟩)))
  | finishRecord {s t work work' m expiring scope}
    (hwork : s.transactions t = .mutating work (some ⟨m, expiring, scope, []⟩))
    (hrecord : recordTables manifestDigest work m expiring = .ok work') :
    PublicationStep s (.write t) (s.setTransaction t (.mutating work' none))
  | commitMutation {s t work} (hwork : s.transactions t = .mutating work none) :
    PublicationStep s (.commit t) { s.endTransaction t with tables := work }
  | beginCollection {s t} (hclosed : s.transactions t = .closed) (hfree : s.mutationLock = none) :
    PublicationStep s (.beginTransaction t)
      { s.setTransaction t (.collecting .mutationLocked) with mutationLock := some t }
  | tryStagingLock {s t} (hphase : s.transactions t = .collecting .mutationLocked)
    (hfree : s.stagingLock = none) (hscopes : ∀ k, s.scopes k = none) :
    PublicationStep s (.write t)
      { s.setTransaction t (.collecting .stagingLocked) with stagingLock := some t }
  | chooseQueued {s t digest} (hphase : s.transactions t = .collecting .stagingLocked)
    (hqueued : digest ∈ s.tables.objectDeletions) :
    PublicationStep s (.write t) (s.setTransaction t (.collecting
      (if isLinked s.tables digest then .retaining digest else .deleting digest true)))
  | chooseOrphan {s t digest} (hphase : s.transactions t = .collecting .stagingLocked)
    (horphan : s.tables.objects digest = none) :
    PublicationStep s (.write t) (s.setTransaction t (.collecting (.deleting digest false)))
  | deleteObject {s t digest queued}
    (hphase : s.transactions t = .collecting (.deleting digest queued)) :
    PublicationStep s (.deleteObject digest)
      { s.setTransaction t (.collecting (.deleted digest queued)) with
        store := Function.update s.store digest none }
  | commitCollection {s t phase} (hphase : s.transactions t = .collecting phase) :
    PublicationStep s (.commit t)
      { s.endTransaction t with tables := phase.commitTables s.tables }
  | rollback {s t} (hopen : s.mutationLock = some t) :
    PublicationStep s (.rollback t) (s.endTransaction t)

end Steps

/-- No rows, no open scope and no open transaction; the store may hold anything. -/
structure PublicationState.Initial (s : PublicationState) : Prop where
  tables : s.tables = .empty
  mutationLock : s.mutationLock = none
  stagingLock : s.stagingLock = none
  scopes : ∀ k, s.scopes k = none
  transactions : ∀ t, s.transactions t = .closed

end ThesisTrace.Publication
