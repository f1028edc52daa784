import ThesisTrace.Library.Transaction
import Mathlib.Data.List.Basic
import Mathlib.Logic.Function.Basic

/-!
# The publication tables

A manifest names objects by digest. Its inventory is the live links of `manifest_objects` together
with the tombstones of `expired_payloads`. The functions are the table parts of the transactions
that record, release, expire and collect, each under the publication mutation lock.
-/

namespace ThesisTrace.Publication
open Transaction

abbrev Sha256 := Nat

/-! ### Rows -/

structure ManifestObject where
  name : String
  mediaType : String
  sha256 : Sha256
  /-- As canonical text. -/
  serialization : String
  byteSize : Nat
  deriving DecidableEq, Repr

structure Manifest where
  kind : String
  provenance : String
  objects : List ManifestObject
  nonempty : objects ≠ []
  deriving DecidableEq, Repr

structure PublishedRef where
  manifestSha256 : Sha256
  kind : String
  provenance : String
  deriving DecidableEq, Repr

structure ObjectLink where
  manifestSha256 : Sha256
  ordinal : Nat
  logicalName : String
  objectSha256 : Sha256
  deriving DecidableEq, Repr

/-- A named object of a manifest, at its place. -/
structure InventoryRow where
  ordinal : Nat
  logicalName : String
  objectSha256 : Sha256
  byteSize : Nat
  deriving DecidableEq, Repr

structure ExpiredPayload extends InventoryRow where
  manifestSha256 : Sha256
  deriving DecidableEq, Repr

/-- A row of `payload_retention`. Readers move its deadline outside the mutation lock, so that any
row that is not expired may be due. -/
structure PayloadRetention where
  payloadNames : List String
  expired : Bool
  deriving DecidableEq, Repr

structure Tables where
  /-- The byte size of each recorded object. -/
  objects : Sha256 → Option Nat
  manifests : Sha256 → Option Manifest
  manifestObjects : List ObjectLink
  objectDeletions : List Sha256
  payloadRetention : Sha256 → Option PayloadRetention
  expiredPayloads : List ExpiredPayload

def Tables.empty : Tables := ⟨fun _ => none, fun _ => none, [], [], fun _ => none, []⟩

inductive PublicationError
  | notCommitted
  | checksumInvalid
  | kindMismatch
  | provenanceMismatch
  | inventoryConflict
  | expiringNamesUnknown
  | expiredRepublication
  | objectConflict
  | manifestConflict
  | retentionConflict
  | retentionIncomplete
  | notDue
  deriving DecidableEq, Repr

/-! ### Inventory -/

def joinObject (t : Tables) (link : ObjectLink) : Option InventoryRow :=
  (t.objects link.objectSha256).map fun size =>
    ⟨link.ordinal, link.logicalName, link.objectSha256, size⟩

def linksOf (t : Tables) (sha : Sha256) : List ObjectLink :=
  t.manifestObjects.filter fun link => link.manifestSha256 = sha

/-- The links of a manifest, joined with their objects. -/
def liveRows (t : Tables) (sha : Sha256) : List InventoryRow :=
  (linksOf t sha).filterMap (joinObject t)

def expiredRows (t : Tables) (sha : Sha256) : List InventoryRow :=
  (t.expiredPayloads.filter fun row => row.manifestSha256 = sha).map ExpiredPayload.toInventoryRow

def inventory (t : Tables) (sha : Sha256) : List InventoryRow :=
  liveRows t sha ++ expiredRows t sha

/-- `ORDER BY ordinal` -/
def sortByOrdinal (rows : List InventoryRow) : List InventoryRow :=
  rows.mergeSort fun a b => a.ordinal ≤ b.ordinal

/-- The inventory that the manifest itself names. -/
def expectedRows (m : Manifest) : List InventoryRow :=
  m.objects.zipIdx.map fun item => ⟨item.2, item.1.name, item.1.sha256, item.1.byteSize⟩

def verifyRecordedLinks (t : Tables) (sha : Sha256) (m : Manifest) :
    Except PublicationError Unit :=
  require (sortByOrdinal (inventory t sha) = expectedRows m) .inventoryConflict

section Digest

-- the checksum of the canonical bytes of a manifest
variable (manifestDigest : Manifest → Sha256)

/-- The manifest behind a reference, for a read of it. -/
def validatedPublishedManifest (t : Tables) (ref : PublishedRef) :
    Except PublicationError Manifest := do
  let m ← found (t.manifests ref.manifestSha256) .notCommitted
  require (manifestDigest m = ref.manifestSha256) .checksumInvalid
  verifyRecordedLinks t ref.manifestSha256 m
  require (m.kind = ref.kind) .kindMismatch
  require (m.provenance = ref.provenance) .provenanceMismatch
  return m

/-! ### Recording -/

/-- `INSERT … ON CONFLICT DO NOTHING`, and the stored row has to agree. -/
def insertObject (t : Tables) (item : ManifestObject) : Except PublicationError Tables :=
  match t.objects item.sha256 with
  | none => .ok { t with objects := Function.update t.objects item.sha256 (some item.byteSize) }
  | some size => (require (size = item.byteSize) .objectConflict).map fun _ => t

def insertManifest (t : Tables) (sha : Sha256) (m : Manifest) : Except PublicationError Tables :=
  match t.manifests sha with
  | none => .ok { t with manifests := Function.update t.manifests sha (some m) }
  | some stored => (require (stored = m) .manifestConflict).map fun _ => t

/-- `INSERT … ON CONFLICT DO NOTHING` under both keys of the table. -/
def insertLink (sha : Sha256) (t : Tables) (item : ManifestObject × Nat) : Tables :=
  if ∃ link ∈ t.manifestObjects, link.manifestSha256 = sha ∧
      (link.ordinal = item.2 ∨ link.logicalName = item.1.name) then t
  else { t with manifestObjects :=
    t.manifestObjects ++ [⟨sha, item.2, item.1.name, item.1.sha256⟩] }

/-- `expiring` is sorted. -/
def insertRetention (t : Tables) (sha : Sha256) (expiring : List String) :
    Except PublicationError Tables :=
  if expiring = [] then .ok t
  else match t.payloadRetention sha with
    | none =>
      .ok { t with
        payloadRetention := Function.update t.payloadRetention sha (some ⟨expiring, false⟩) }
    | some row => (require (row.payloadNames = expiring) .retentionConflict).map fun _ => t

/-- The checks of `record` before it reads the objects. -/
def recordChecks (t : Tables) (m : Manifest) (expiring : List String) :
    Except PublicationError Unit := do
  require (∀ name ∈ expiring, name ∈ m.objects.map ManifestObject.name) .expiringNamesUnknown
  require (∀ row ∈ t.expiredPayloads, row.manifestSha256 ≠ manifestDigest m) .expiredRepublication

/-- The writes of `record` after it verified every object. -/
def recordTables (t : Tables) (m : Manifest) (expiring : List String) :
    Except PublicationError Tables := do
  let sha := manifestDigest m
  let t ← m.objects.foldlM insertObject t
  let t ← insertManifest t sha m
  let t := m.objects.zipIdx.foldl (insertLink sha) t
  verifyRecordedLinks t sha m
  insertRetention t sha expiring

end Digest

/-! ### Releasing, expiring and collecting -/

def isLinked (t : Tables) (digest : Sha256) : Bool :=
  t.manifestObjects.any fun link => link.objectSha256 = digest

/-- Queue an object that no link refers to any more. -/
def enqueueDeletion (t : Tables) (digest : Sha256) : Tables :=
  if isLinked t digest ∨ digest ∈ t.objectDeletions then t
  else { t with objectDeletions := t.objectDeletions ++ [digest] }

/-- Deleting the manifest cascades to its retention and its tombstones. -/
def deleteManifest (t : Tables) (sha : Sha256) : Tables :=
  { t with
    manifestObjects := t.manifestObjects.filter fun link => link.manifestSha256 ≠ sha
    manifests := Function.update t.manifests sha none
    payloadRetention := Function.update t.payloadRetention sha none
    expiredPayloads := t.expiredPayloads.filter fun row => row.manifestSha256 ≠ sha }

def releaseManifest (t : Tables) (sha : Sha256) (stillReferenced : Bool) : Tables :=
  if stillReferenced then t
  else ((linksOf t sha).map ObjectLink.objectSha256).foldl enqueueDeletion (deleteManifest t sha)

/-- The links that expiry selects, joined with their objects. -/
def expiringObjects (t : Tables) (sha : Sha256) (names : List String) : List ExpiredPayload :=
  (((linksOf t sha).filter fun link => link.logicalName ∈ names).filterMap (joinObject t)).map
    fun row => ⟨row, sha⟩

/-- Replace the links of these payloads by tombstones. -/
def moveToTombstones (t : Tables) (sha : Sha256) (names : List String) : Tables :=
  { t with
    expiredPayloads := t.expiredPayloads ++ expiringObjects t sha names
    manifestObjects := t.manifestObjects.filter fun link =>
      ¬(link.manifestSha256 = sha ∧ link.logicalName ∈ names)
    payloadRetention := Function.update t.payloadRetention sha (some ⟨names, true⟩) }

/-- Expire the designated payloads of a manifest. -/
def expirePayloads (t : Tables) (sha : Sha256) : Except PublicationError Tables := do
  let row ← found (t.payloadRetention sha) .notDue
  require (row.expired = false) .notDue
  let objects := expiringObjects t sha row.payloadNames
  let names := objects.map fun object => object.logicalName
  require ((∀ name ∈ row.payloadNames, name ∈ names) ∧ ∀ name ∈ names, name ∈ row.payloadNames)
    .retentionIncomplete
  return (objects.map fun object => object.objectSha256).foldl enqueueDeletion
    (moveToTombstones t sha row.payloadNames)

def dequeueDeletion (t : Tables) (digest : Sha256) : Tables :=
  { t with objectDeletions := t.objectDeletions.filter fun queued => queued ≠ digest }

/-- Once the bytes are gone, and unless a link refers to them. -/
def deleteObjectRow (t : Tables) (digest : Sha256) : Tables :=
  { dequeueDeletion t digest with
    objects := if isLinked t digest then t.objects else Function.update t.objects digest none }

end ThesisTrace.Publication
