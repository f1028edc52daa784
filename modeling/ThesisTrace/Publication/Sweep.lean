import Mathlib.Algebra.Order.Group.Unbundled.Int
import ThesisTrace.Publication.Recorded

/-!
# The orphan sweep

A sweep goes through the stored objects in the order of their keys, a page at a time, and deletes
those without a row that are older than its cutoff. Its cursor and its cutoff are kept in one row of
the database, so that any later step goes on from there. Publishers and collectors interleave.
-/

namespace ThesisTrace.Publication
open LabelledTransition

/-- Seconds. -/
abbrev Time := ℤ

def pageSize : ℕ := 1000
def deleteLimit : ℕ := 10

/-- How long before the start of a sweep an object has to be stored. -/
def orphanAge : Time := 3600

/-! ### States -/

/-- The row of the orphan scan, without a key at the start of the bucket. -/
structure MaintenanceState where
  lastKey : Option Sha256
  cutoff : Option Time
deriving DecidableEq

/-- A listed object with its time of modification. The keys have the order of the digests. -/
abbrev ListedObject := Sha256 × Time

/-- The loop over a page: the items that are left, and the digests that had a row. -/
structure Scan where
  lastKey : Option Sha256
  cutoff : Time
  items : List ListedObject
  truncated : Bool
  recorded : List Sha256
  deleted : ℕ

/-- How far `_remove_orphan` has come. -/
inductive Removal where
  | locked
  | fenced
  | unrecorded
  | headed
  | checked
  | deleted
deriving DecidableEq

inductive Worker where
  | idle
  | loaded (state : MaintenanceState) (currentTime : Time)
  | scanning (lastKey : Option Sha256) (cutoff : Time)
  | listed (lastKey : Option Sha256) (cutoff : Time) (items : List ListedObject) (truncated : Bool)
  | looping (scan : Scan)
  | removing (scan : Scan) (phase : Removal)
  /-- The loop was left before its end. -/
  | stopping (scan : Scan)

structure SweepState where
  publication : PublicationState
  /-- The time at which each stored object was put. -/
  modified : Sha256 → Time
  clock : Time
  row : MaintenanceState
  worker : Worker

inductive SweepEvent where
  | others (event : PublicationEvent)
  | tick
  | work
  | startSweep (cutoff : Time)
  | deleteObject (digest : Sha256)
  | completeSweep
  | stop

/-- A put creates the object now, unless it is there. -/
def SweepState.arrival (s : SweepState) : PublicationEvent → Sha256 → Time
  | .putObject digest =>
    if s.publication.store digest = none then Function.update s.modified digest s.clock
    else s.modified
  | _ => s.modified

/-- The page that a listing after a key returns, as the scan accepts it. -/
structure ListsPage (s : SweepState) (lastKey : Option Sha256) (items : List ListedObject)
    (truncated : Bool) : Prop where
  size : items.length ≤ pageSize
  ordered : items.Pairwise fun a b => a.1 < b.1
  later : ∀ item ∈ items, ∀ key ∈ lastKey, key < item.1
  listed : ∀ item ∈ items, (s.publication.store item.1).isSome ∧ item.2 = s.modified item.1
  complete : ∀ digest, (s.publication.store digest).isSome → (∀ key ∈ lastKey, key < digest) →
    (digest, s.modified digest) ∈ items ∨
      truncated = true ∧ ∀ item ∈ items, item.1 < digest
  nonempty : truncated = true → items ≠ []

/-- `state["last_key"]` of a worker. -/
def Worker.lastKey : Worker → Option (Option Sha256)
  | .idle => none
  | .loaded state _ => some state.lastKey
  | .scanning lastKey _ | .listed lastKey _ _ _ => some lastKey
  | .looping scan | .removing scan _ | .stopping scan => some scan.lastKey

def Scan.advance (scan : Scan) (key : Sha256) (rest : List ListedObject) (deleted : ℕ) : Scan :=
  { scan with lastKey := some key, items := rest, deleted := deleted }

/-! ### Steps -/

section Steps

variable (manifestDigest : Manifest → Sha256) (sweeper : TransactionId)

/-- One atomic step of the worker, or of anything around it. The session lock of the maintenance
admits one worker; its deadline may pass at any moment. -/
inductive SweepStep : SweepState → SweepEvent → SweepState → Prop
  | others {s p event} (hstep : PublicationStep manifestDigest s.publication event p)
    (hown : p.transactions sweeper = s.publication.transactions sweeper) :
    SweepStep s (.others event) { s with publication := p, modified := s.arrival event }
  | tick {s} (now) (hnow : s.clock ≤ now) : SweepStep s .tick { s with clock := now }
  | load {s} (hworker : s.worker = .idle) :
    SweepStep s .work { s with worker := .loaded s.row s.clock }
  | startSweep {s state now} (hworker : s.worker = .loaded state now)
    (hcutoff : state.cutoff = none) :
    SweepStep s (.startSweep (now - orphanAge)) { s with
      row := { s.row with cutoff := some (now - orphanAge) }
      worker := .scanning state.lastKey (now - orphanAge) }
  | resume {s state now cutoff} (hworker : s.worker = .loaded state now)
    (hcutoff : state.cutoff = some cutoff) :
    SweepStep s .work { s with worker := .scanning state.lastKey cutoff }
  | late {s lastKey cutoff} (hworker : s.worker = .scanning lastKey cutoff) :
    SweepStep s .stop { s with worker := .idle }
  | list {s lastKey cutoff items truncated} (hworker : s.worker = .scanning lastKey cutoff)
    (hpage : ListsPage s lastKey items truncated) :
    SweepStep s .work { s with worker := .listed lastKey cutoff items truncated }
  | readRecorded {s lastKey cutoff items truncated}
    (hworker : s.worker = .listed lastKey cutoff items truncated) :
    SweepStep s .work { s with
      worker := .looping {
        lastKey := lastKey
        cutoff := cutoff
        items := items
        truncated := truncated
        recorded := (items.map Prod.fst).filter fun digest =>
          (s.publication.tables.objects digest).isSome
        deleted := 0 } }
  | leave {s scan} (hworker : s.worker = .looping scan) (hitems : scan.items ≠ []) :
    SweepStep s .work { s with worker := .stopping scan }
  | skip {s scan key modified rest} (hworker : s.worker = .looping scan)
    (hlimit : scan.deleted < deleteLimit) (hitems : scan.items = (key, modified) :: rest)
    (hskip : key ∈ scan.recorded ∨ scan.cutoff < modified) :
    SweepStep s .work { s with worker := .looping (scan.advance key rest scan.deleted) }
  | beginRemoval {s p scan key modified rest} (hworker : s.worker = .looping scan)
    (hlimit : scan.deleted < deleteLimit) (hitems : scan.items = (key, modified) :: rest)
    (hunrecorded : key ∉ scan.recorded) (hold : modified ≤ scan.cutoff)
    (hstep : PublicationStep manifestDigest s.publication (.beginTransaction sweeper) p)
    (hphase : p.transactions sweeper = .collecting .mutationLocked) :
    SweepStep s .work { s with publication := p, worker := .removing scan .locked }
  | fence {s p scan} (hworker : s.worker = .removing scan .locked)
    (hstep : PublicationStep manifestDigest s.publication (.write sweeper) p)
    (hphase : p.transactions sweeper = .collecting .stagingLocked) :
    SweepStep s .work { s with publication := p, worker := .removing scan .fenced }
  | findUnrecorded {s scan key modified rest} (hworker : s.worker = .removing scan .fenced)
    (hitems : scan.items = (key, modified) :: rest)
    (hrow : s.publication.tables.objects key = none) :
    SweepStep s .work { s with worker := .removing scan .unrecorded }
  | head {s scan key modified rest} (hworker : s.worker = .removing scan .unrecorded)
    (hitems : scan.items = (key, modified) :: rest)
    (hstored : (s.publication.store key).isSome) (hold : s.modified key ≤ scan.cutoff) :
    SweepStep s .work { s with worker := .removing scan .headed }
  | check {s p scan key modified rest} (hworker : s.worker = .removing scan .headed)
    (hitems : scan.items = (key, modified) :: rest)
    (hstep : PublicationStep manifestDigest s.publication (.write sweeper) p)
    (hphase : p.transactions sweeper = .collecting (.deleting key false)) :
    SweepStep s .work { s with publication := p, worker := .removing scan .checked }
  | deleteObject {s p scan key modified rest} (hworker : s.worker = .removing scan .checked)
    (hitems : scan.items = (key, modified) :: rest)
    (hstep : PublicationStep manifestDigest s.publication (.deleteObject key) p)
    (hphase : p.transactions sweeper = .collecting (.deleted key false)) :
    SweepStep s (.deleteObject key) { s with
      publication := p, worker := .removing scan .deleted }
  /-- The commit of a deletion moves the stored cursor. -/
  | removed {s p scan key modified rest} (hworker : s.worker = .removing scan .deleted)
    (hitems : scan.items = (key, modified) :: rest)
    (hstep : PublicationStep manifestDigest s.publication (.commit sweeper) p) :
    SweepStep s .work { s with
      publication := p
      row := { s.row with lastKey := some key }
      worker := .looping (scan.advance key rest (scan.deleted + 1)) }
  /-- A row was found, or the object is gone or was stored again. -/
  | kept {s p scan phase key modified rest} (hworker : s.worker = .removing scan phase)
    (hitems : scan.items = (key, modified) :: rest)
    (hkept : phase = .fenced ∧ (s.publication.tables.objects key).isSome ∨
      phase = .unrecorded ∧ (s.publication.store key = none ∨ scan.cutoff < s.modified key) ∨
      phase = .headed ∧ (s.publication.tables.objects key).isSome)
    (hstep : PublicationStep manifestDigest s.publication (.commit sweeper) p) :
    SweepStep s .work { s with
      publication := p, worker := .looping (scan.advance key rest scan.deleted) }
  /-- The staging lock is taken, or the deadline has passed. -/
  | contended {s p scan phase} (hworker : s.worker = .removing scan phase)
    (hphase : phase ≠ .deleted)
    (hstep : PublicationStep manifestDigest s.publication (.commit sweeper) p) :
    SweepStep s .work { s with publication := p, worker := .stopping scan }
  | finish {s scan} (hworker : s.worker = .stopping scan ∨
      s.worker = .looping scan ∧ scan.items = [] ∧ scan.truncated = true) :
    SweepStep s .stop { s with row := { s.row with lastKey := scan.lastKey }, worker := .idle }
  | completeSweep {s scan} (hworker : s.worker = .looping scan) (hitems : scan.items = [])
    (hwhole : scan.truncated = false) :
    SweepStep s .completeSweep { s with row := ⟨none, none⟩, worker := .idle }
  /-- A failure outside a removal, which stores the key that was reached. -/
  | fail {s lastKey} (hlastKey : s.worker.lastKey = some lastKey)
    (houtside : ∀ scan phase, s.worker ≠ .removing scan phase) :
    SweepStep s .stop { s with row := { s.row with lastKey := lastKey }, worker := .idle }
  | failRemoval {s p scan phase} (hworker : s.worker = .removing scan phase)
    (hstep : PublicationStep manifestDigest s.publication (.rollback sweeper) p) :
    SweepStep s .stop { s with
      publication := p, row := { s.row with lastKey := scan.lastKey }, worker := .idle }
  /-- The process ends and stores nothing. -/
  | crash {s} (houtside : ∀ scan phase, s.worker ≠ .removing scan phase) :
    SweepStep s .stop { s with worker := .idle }
  | crashRemoval {s p scan phase} (hworker : s.worker = .removing scan phase)
    (hstep : PublicationStep manifestDigest s.publication (.rollback sweeper) p) :
    SweepStep s .stop { s with publication := p, worker := .idle }

end Steps

structure SweepState.Initial (s : SweepState) : Prop where
  publication : s.publication.Initial
  row : s.row = ⟨none, none⟩
  worker : s.worker = .idle

end ThesisTrace.Publication
