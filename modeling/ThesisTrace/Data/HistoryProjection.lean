import Mathlib.Algebra.Ring.Nat
import Mathlib.Data.Finset.Sort
import Mathlib.Data.String.Basic
import ThesisTrace.Library.KeyOrder
import ThesisTrace.Library.LruCache
import ThesisTrace.Library.SortedRuns
import ThesisTrace.Library.Transaction

/-!
# Reuse of immutable history projections

Tables of columns, and the cache of the projections that a mounted reader has loaded: a whole
object under its identity, or the timeline of one instrument under an identity and the instrument.
An entry is widened by the columns of later loads and dropped when the budget is short.
-/

namespace ThesisTrace.HistoryProjection
open SortedRuns LruCache Transaction
open scoped KeyOrder

abbrev Column := String

inductive Error
  | keyError
  | arrowInvalid
  | differentCoordinates
  | outOfScopeInstrument
  deriving DecidableEq, Repr

/-! ### Tables -/

/-- The columns of a table stand in an order and hold a value for each row. -/
structure Table (V : Type) where
  numRows : Nat
  columns : List (Column × List V)
  deriving DecidableEq, Repr

section Tables

variable {V : Type}

def Table.columnNames (table : Table V) : List Column := table.columns.map Prod.fst

def Table.column (table : Table V) (name : Column) : Option (List V) :=
  (table.columns.find? fun entry => entry.1 = name).map Prod.snd

def Table.select (table : Table V) (names : List Column) : Except Error (Table V) := do
  let columns ← names.mapM fun name => do
    return (name, ← found (table.column name) Error.keyError)
  return ⟨table.numRows, columns⟩

def Table.appendColumn (table : Table V) (entry : Column × List V) : Table V :=
  { table with columns := table.columns ++ [entry] }

def Table.take (table : Table V) (positions : List Nat) : Table V :=
  ⟨positions.length, table.columns.map fun entry => (entry.1, takeAt positions entry.2)⟩

/-- `pa.concat_tables`; the tables have one schema, and there is at least one. -/
def concatTables : List (Table V) → Except Error (Table V)
  | [] => .error .arrowInvalid
  | first :: rest => do
    require (∀ table ∈ rest, table.columnNames = first.columnNames) Error.arrowInvalid
    let columns ← first.columnNames.mapM fun name => do
      let parts ← (first :: rest).mapM fun table => found (table.column name) Error.keyError
      return (name, parts.flatten)
    return ⟨if columns = [] then 0 else ((first :: rest).map Table.numRows).sum, columns⟩

end Tables

def sorted (columns : Finset Column) : List Column := columns.sort

/-! ### The cache -/

section Cache

variable {Identity V : Type} [DecidableEq Identity] [DecidableEq V]

/-- `_get`: the requested columns of an entry that has them all. -/
def getEntry (cache : Cache Identity (Table V)) (identity : Identity) (columns : Finset Column) :
    Except Error (Option (Table V) × Cache Identity (Table V)) :=
  match peek cache identity with
  | none => .ok (none, cache)
  | some table =>
    if columns ⊆ table.columnNames.toFinset then do
      return (some (← table.select (sorted columns)), touch cache identity)
    else .ok (none, touch cache identity)

/-- Both tables have the same rows in the columns that they share. -/
def sameCoordinates (previous table : Table V) : Prop :=
  previous.numRows = table.numRows ∧
    ∀ name ∈ previous.columnNames, name ∈ table.columnNames →
      previous.column name = table.column name

instance (previous table : Table V) : Decidable (sameCoordinates previous table) := by
  unfold sameCoordinates
  infer_instance

/-- The columns of an entry that a new table lacks. -/
def widen (previous table : Table V) : Table V :=
  previous.columns.foldl
    (fun table entry =>
      if entry.1 ∈ table.columnNames then table else table.appendColumn entry) table

/-- A loaded table with the columns of the entry that it replaces. -/
def merge (previous : Option (Table V)) (table : Table V) : Except Error (Table V) :=
  match previous with
  | none => .ok table
  | some previous => do
    require (sameCoordinates previous table) Error.differentCoordinates
    return widen previous table

/-- `_retain` -/
def retain (size : Table V → Nat) (cache : Cache Identity (Table V)) (identity : Identity)
    (table : Table V) : Except Error (Cache Identity (Table V)) := do
  let table ← merge (peek cache identity) table
  let cache := touch cache identity
  -- a table above the whole budget is not stored
  return (LruCache.set size cache identity table).getD cache

def read (size : Table V → Nat) (cache : Cache Identity (Table V)) (objectIdentity : Identity)
    (columns : Finset Column) (load : Table V) :
    Except Error (Table V × Cache Identity (Table V)) := do
  let (cached, cache) ← getEntry cache objectIdentity columns
  match cached with
  | some table => return (table, cache)
  | none =>
    let cache ← retain size cache objectIdentity load
    return (load, cache)

end Cache

/-! ### Timelines of instruments -/

section Instruments

variable {Identity V : Type} [DecidableEq Identity] [LinearOrder V]

def instrumentId : Column := "instrument_id"

/-- The cached timelines in the order of the instruments, and the instruments without one. -/
def cachedTimelines (pair : Identity → V → Identity) (identity : Identity)
    (columns : Finset Column) :
    List V → Cache Identity (Table V) →
      Except Error (List (Table V) × List V × Cache Identity (Table V))
  | [], cache => .ok ([], [], cache)
  | instrument :: rest, cache => do
    let (table, cache) ← getEntry cache (pair identity instrument) columns
    let (tables, missing, cache) ← cachedTimelines pair identity columns rest cache
    return match table with
      | some table => (table :: tables, missing, cache)
      | none => (tables, instrument :: missing, cache)

/-- Cut the loaded rows by instrument, retain each timeline and select the requested columns. -/
def retainTimelines (size : Table V → Nat) (pair : Identity → V → Identity)
    (identity : Identity) (columns : Finset Column) (loaded : Table V) (ids : List V) :
    List V → Cache Identity (Table V) →
      Except Error (List (Table V) × Cache Identity (Table V))
  | [], cache => .ok ([], cache)
  | instrument :: rest, cache => do
    let bounds := boundsOf ids instrument
    let table := loaded.take (List.range' bounds.1 (bounds.2 - bounds.1))
    let cache ← retain size cache (pair identity instrument) table
    let selected ← table.select (sorted columns)
    let (tables, cache) ← retainTimelines size pair identity columns loaded ids rest cache
    return (selected :: tables, cache)

def readInstruments (size : Table V → Nat) (pair : Identity → V → Identity)
    (cache : Cache Identity (Table V)) (identity : Identity) (columns : Finset Column)
    (instrumentIds : Finset V) (load : Finset V → Table V) :
    Except Error (Table V × Cache Identity (Table V)) := do
  let (tables, missing, cache) ←
    cachedTimelines pair identity columns instrumentIds.sort cache
  if missing = [] then return (← concatTables tables, cache)
  let table := load missing.toFinset
  let unsorted ← found (table.column instrumentId) Error.keyError
  let loaded := table.take (sortIndices unsorted)
  let ids ← found (loaded.column instrumentId) Error.keyError
  require (∀ run ∈ runs ids, run.1 ∈ missing) Error.outOfScopeInstrument
  let (selected, cache) ← retainTimelines size pair identity columns loaded ids missing cache
  return (← concatTables (tables ++ selected), cache)

/-- A call of the cache, with the loader that it gives. -/
inductive Call (Identity V : Type)
  | read (objectIdentity : Identity) (columns : Finset Column) (load : Table V)
  | readInstruments (identity : Identity) (columns : Finset Column) (instrumentIds : Finset V)
      (load : Finset V → Table V)

def serve (size : Table V → Nat) (pair : Identity → V → Identity)
    (cache : Cache Identity (Table V)) :
    Call Identity V → Except Error (Table V × Cache Identity (Table V))
  | .read objectIdentity columns load => read size cache objectIdentity columns load
  | .readInstruments identity columns instrumentIds load =>
    readInstruments size pair cache identity columns instrumentIds load

/-- The tables that a sequence of calls returns. -/
def serveAll (size : Table V → Nat) (pair : Identity → V → Identity) :
    Cache Identity (Table V) → List (Call Identity V) → Except Error (List (Table V))
  | _, [] => .ok []
  | cache, call :: calls => do
    let (table, cache) ← serve size pair cache call
    return table :: (← serveAll size pair cache calls)

end Instruments

end ThesisTrace.HistoryProjection
