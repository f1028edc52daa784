import Mathlib.Data.Sum.Order
import ThesisTrace.Data.HistoryTransparency
import ThesisTrace.Data.IndicatorVersions
import ThesisTrace.Library.AsOf
import ThesisTrace.Library.OrderedMap

/-!
# Series of financial indicators

The stored versions of an instrument become its states at the sessions from which a version is
effective, and a request selects the latest state at each of its sessions.
-/

namespace ThesisTrace.IndicatorSeries
open Transaction IndicatorVersions KeyOrder HistoryProjection

/-! ### Stored rows -/

structure IndicatorRow (I T : Type) where
  instrumentId : I
  sourceReportPeriod : String
  sourcePublishedDate : Option String
  stateEffectiveSession : Option CalendarDate
  availabilityStatus : AvailabilityStatus
  observationEventAt : T
  /-- The texts of the source columns -/
  cells : String → Option String

/-- `None if row[name] is None else str(row[name])` -/
def storedCell (cell : Option IndicatorCollection.Cell) : Option String :=
  match cell with
  | none | some .null => none
  | some cell => some cell.str

def storedRow {I T D : Type} (instrumentId : I) (version : IndicatorVersion I T D) :
    IndicatorRow I T where
  instrumentId := instrumentId
  sourceReportPeriod := version.sourceReportPeriod
  sourcePublishedDate := storedCell version.sourcePublishedDate
  stateEffectiveSession := version.stateEffectiveSession
  availabilityStatus := version.availabilityStatus
  observationEventAt := version.observationEventAt
  cells column := storedCell (version.row.lookup column)

/-- The rows that a family stores of some versions -/
def storedRows {I T D : Type} (versions : List (IndicatorVersion I T D)) : List (IndicatorRow I T) :=
  versions.filterMap fun version => version.instrumentId.map fun instrumentId =>
    storedRow instrumentId version

structure IndicatorField where
  fieldId : Column
  sourceColumn : String
  sourceUnit : String
  deriving DecidableEq

inductive SeriesError
  /-- "Invalid financial indicator Series request" -/
  | request
  /-- "Indicator history exceeds its frozen coverage" -/
  | coverage
  /-- "Invalid financial indicator number" and the other refusals of a number -/
  | number
  /-- `max` of no states -/
  | noState
  | history (error : HistoryProjection.Error)
  deriving DecidableEq, Repr

/-! ### Numbers -/

/-- Decimals of the standard library and their conversion to floats -/
structure IndicatorNumbers (Q N : Type) where
  decimal : String → Option Q
  isFinite : Q → Bool
  hundredth : Q → Q
  /-- `float(number)`, where it is finite -/
  float : Q → Option N

def normalizeIndicatorValue {Q N : Type} (numbers : IndicatorNumbers Q N)
    (source : Option String) (sourceUnit : String) : Except SeriesError (Option N) :=
  match source with
  | none => .ok none
  | some text => do
    let number ← found (numbers.decimal text) .number
    require (numbers.isFinite number) .number
    let number := if sourceUnit = "percent" then numbers.hundredth number else number
    return some (← found (numbers.float number) .number)

/-! ### States of an instrument -/

/-- A row with a session, and what is read of its source columns -/
structure Fact (W T : Type) where
  sourceReportPeriod : String
  sourcePublishedDate : Option String
  stateEffectiveSession : CalendarDate
  availabilityStatus : AvailabilityStatus
  observationEventAt : T
  cells : W

namespace Fact

variable {W T : Type}

def groupKey (fact : Fact W T) : String × Option String × T × CalendarDate :=
  (fact.sourceReportPeriod, fact.sourcePublishedDate, fact.observationEventAt,
    fact.stateEffectiveSession)

/-- `(row["source_report_period"], row["source_published_date"])`; a row with a session is
announced. -/
def reportKey (fact : Fact W T) : String ×ₗ WithBot String :=
  toLex (fact.sourceReportPeriod, fact.sourcePublishedDate)

def order (fact : Fact W T) : CalendarDate ×ₗ T :=
  toLex (fact.stateEffectiveSession, fact.observationEventAt)

end Fact

/-- `row["state_effective_session"] is not None` -/
def IndicatorRow.fact {I T : Type} (row : IndicatorRow I T) :
    Option (Fact (String → Option String) T) :=
  row.stateEffectiveSession.map fun session => ⟨row.sourceReportPeriod, row.sourcePublishedDate,
    session, row.availabilityStatus, row.observationEventAt, row.cells⟩

section States

variable {W T : Type} [LinearOrder T]

/-- The state of a group of simultaneous rows, with what `agree` keeps of their columns -/
def agreeingState (agree : W → List W → W) (first : Fact W T) (rest : List (Fact W T)) :
    Fact W T :=
  match rest with
  | [] => first
  | _ => { first with
      availabilityStatus :=
        if ∀ row ∈ first :: rest, row.availabilityStatus = .available ∨
            row.availabilityStatus = .conflictingObservation
        then .available else .conflictingObservation
      cells := agree first.cells (rest.map Fact.cells) }

/-- `_agreeing_observation_states` -/
def agreeingObservationStates (agree : W → List W → W) (rows : List (Fact W T)) :
    List (Fact W T) :=
  (rows.map Fact.groupKey).eraseDups.filterMap fun key =>
    match rows.filter fun row => row.groupKey = key with
    | [] => none
    | first :: rest => some (agreeingState agree first rest)

/-- A row that is put in the place of an earlier one of its event -/
def markConflict (same : Fact W T → Fact W T → Bool) (previous : Option (Fact W T))
    (row : Fact W T) : Fact W T :=
  match previous with
  | none => row
  | some previous =>
    if previous.observationEventAt = row.observationEventAt ∧ ¬ same previous row then
      { row with availabilityStatus := .conflictingObservation }
    else row

abbrev States (W T : Type) := OrderedMap (String ×ₗ WithBot String) (Fact W T)

def updateState (same : Fact W T → Fact W T → Bool) (states : States W T) (row : Fact W T) :
    States W T :=
  OrderedMap.set states row.reportKey (markConflict same (states.lookup row.reportKey) row)

/-- `states[max(states)]` -/
def selectedState (states : States W T) : Option (Fact W T) := states.keys.max?.bind states.lookup

/-- The loop over the sessions of an instrument's states, with the rows that are left -/
def stateLoop {R : Type} (same : Fact W T → Fact W T → Bool)
    (transition : CalendarDate → Fact W T → Except SeriesError R) :
    List CalendarDate → List (Fact W T) → States W T → Except SeriesError (List R)
  | [], _, _ => .ok []
  | session :: sessions, facts, states => do
    let states := (facts.takeWhile (·.stateEffectiveSession ≤ session)).foldl
      (updateState same) states
    let selected ← found (selectedState states) .noState
    let row ← transition session selected
    let rows ← stateLoop same transition sessions
      (facts.dropWhile (·.stateEffectiveSession ≤ session)) states
    return row :: rows

end States

/-! ### Transitions -/

section Transitions

variable {I T Q N : Type} [LinearOrder I] [LinearOrder T] (numbers : IndicatorNumbers Q N)

/-- The columns on which all rows of a group agree -/
def agreeingCells (sourceColumns : List String) (first : String → Option String)
    (rest : List (String → Option String)) : String → Option String := fun column =>
  if column ∈ sourceColumns then
    if ∀ cells ∈ rest, cells column = first column then first column else none
  else first column

/-- `previous == row`, for rows of the columns that were read -/
def sameRow (sourceColumns : List String) (previous row : Fact (String → Option String) T) : Bool :=
  previous.groupKey = row.groupKey ∧ previous.availabilityStatus = row.availabilityStatus ∧
    ∀ column ∈ sourceColumns, previous.cells column = row.cells column

structure Transition (I N : Type) where
  instrumentId : I
  session : CalendarDate
  values : List (Option N)

/-- The value of a field in a state -/
def stateValue (field : IndicatorField) (selected : Fact (String → Option String) T) :
    Except SeriesError (Option N) :=
  if selected.availabilityStatus = .available then
    normalizeIndicatorValue numbers (selected.cells field.sourceColumn) field.sourceUnit
  else .ok none

def instrumentTransitions (fields : List IndicatorField) (rows : List (IndicatorRow I T))
    (instrumentId : I) : Except SeriesError (List (Transition I N)) :=
  let columns := fields.map IndicatorField.sourceColumn
  let facts := sortBy Fact.order
    (agreeingObservationStates (agreeingCells columns) (rows.filterMap IndicatorRow.fact))
  let sessions := (facts.map Fact.stateEffectiveSession).toFinset.sort
  stateLoop (sameRow columns)
    (fun session selected => do
      return ⟨instrumentId, session, ← fields.mapM fun field => stateValue numbers field selected⟩)
    sessions facts ∅

/-- `_indicator_transitions` -/
def indicatorTransitions (table : List (IndicatorRow I T)) (fields : List IndicatorField) :
    Except SeriesError (List (Transition I N)) := do
  let transitions ← ((table.map IndicatorRow.instrumentId).toFinset.sort).mapM fun instrumentId =>
    instrumentTransitions numbers fields
      (table.filter fun row => row.instrumentId = instrumentId) instrumentId
  return transitions.flatten

/-- The rows of a family that are read for some instruments up to a day -/
def readTable (rows : List (IndicatorRow I T)) (instrumentIds : Finset I) (through : CalendarDate) :
    List (IndicatorRow I T) :=
  rows.filter fun row =>
    row.instrumentId ∈ instrumentIds ∧ row.stateEffectiveSession.any (· ≤ through)

end Transitions

/-! ### Tables of transitions -/

/-- A cell of a table of transitions: an instrument, a session or a number -/
abbrev TableCell (I N : Type) := I ⊕ₗ (CalendarDate ⊕ₗ WithBot N)

section Tables

variable {I N : Type}

def instrumentCell (instrumentId : I) : TableCell I N := toLex (.inl instrumentId)

def sessionCell (session : CalendarDate) : TableCell I N := toLex (.inr (toLex (.inl session)))

def numberCell (number : Option N) : TableCell I N := toLex (.inr (toLex (.inr number)))

def TableCell.number (cell : TableCell I N) : Option N :=
  match ofLex cell with
  | .inl _ => none
  | .inr cell =>
    match ofLex cell with
    | .inl _ => none
    | .inr number => number

def stateEffectiveSession : Column := "state_effective_session"

def transitionsTable (fields : List IndicatorField) (transitions : List (Transition I N)) :
    Table (TableCell I N) where
  numRows := transitions.length
  columns :=
    (instrumentId, transitions.map fun transition => instrumentCell transition.instrumentId) ::
    (stateEffectiveSession, transitions.map fun transition => sessionCell transition.session) ::
    fields.zipIdx.map fun (field, i) =>
      (field.fieldId, transitions.map fun transition => numberCell (transition.values[i]?.join))

end Tables

/-! ### Requests -/

structure SeriesRequest (I M : Type) where
  manifestSha256 : M
  fieldIds : List Column
  sessions : List CalendarDate
  instrumentIds : List I

/-- The fields of the family, each under its own name -/
structure IndicatorCatalog where
  fields : List IndicatorField
  nodup : (fields.map IndicatorField.fieldId).Nodup
  unreserved : ∀ field ∈ fields,
    field.fieldId ≠ instrumentId ∧ field.fieldId ≠ stateEffectiveSession

/-- `_FIELDS[field_id]` -/
def IndicatorCatalog.field (catalog : IndicatorCatalog) (fieldId : Column) : Option IndicatorField :=
  catalog.fields.find? fun field => field.fieldId = fieldId

/-- A cell of the aligned table -/
structure SeriesCell (I N : Type) where
  session : CalendarDate
  instrumentId : I
  fieldId : Column
  value : Option N
  deriving DecidableEq

/-- The history cache of a mounted reader, and the frozen end of what it retains -/
structure HistoryCache (Identity V : Type) where
  cache : LruCache.Cache Identity (Table V)
  historyEnd : CalendarDate

section Requests

variable {I T Q N M Identity : Type} [LinearOrder I] [LinearOrder T] [LinearOrder N] [DecidableEq M]
  [DecidableEq Identity]

/-- The checks of `resolve_table` -/
def validateRequest (catalog : IndicatorCatalog) (manifestSha256 : M)
    (request : SeriesRequest I M) : Except SeriesError (List IndicatorField) := do
  require (request.manifestSha256 = manifestSha256 ∧ request.fieldIds.Nodup ∧
    request.sessions.Pairwise (· < ·) ∧ request.instrumentIds.Nodup) .request
  request.fieldIds.mapM fun fieldId => found (catalog.field fieldId) .request

/-- The sessions and the values of an instrument in a table of transitions, session by session -/
def historyOf (table : Table (TableCell I N)) (instrument : I) (fieldId : Column) :
    List (TableCell I N × TableCell I N) :=
  sortBy Prod.fst ((table.rowsOf (instrumentCell instrument) stateEffectiveSession).zip
    (table.rowsOf (instrumentCell instrument) fieldId))

/-- The value at the last position whose session is not after the requested one -/
def alignedValue (table : Table (TableCell I N)) (session : CalendarDate) (instrument : I)
    (fieldId : Column) : Option N :=
  (AsOf.lastAtMost Prod.fst (historyOf table instrument fieldId)
    (sessionCell session)).bind fun row => row.2.number

def alignTable (request : SeriesRequest I M) (table : Table (TableCell I N)) :
    List (SeriesCell I N) :=
  request.sessions.flatMap fun session =>
    request.instrumentIds.toFinset.sort.flatMap fun instrument =>
      request.fieldIds.map fun fieldId =>
        ⟨session, instrument, fieldId, alignedValue table session instrument fieldId⟩

variable (numbers : IndicatorNumbers Q N)

/-- `load`; the cache asks for instruments by their cells. -/
def loadTransitions (rows : List (IndicatorRow I T)) (fields : List IndicatorField)
    (instrumentIds : Finset I) (through : CalendarDate) :
    Except SeriesError (Table (TableCell I N)) := do
  let transitions ← indicatorTransitions numbers (readTable rows instrumentIds through) fields
  return transitionsTable fields transitions

/-- The instruments that some cells name -/
def instrumentsOf (cells : Finset (TableCell I N)) : Finset I :=
  (cells.sort.filterMap fun cell => (ofLex cell).getLeft?).toFinset

def emptyTable : Table (TableCell I N) := ⟨0, []⟩

variable (size : Table (TableCell I N) → ℕ) (pair : Identity → TableCell I N → Identity)
  (identityOf : M → CalendarDate → Identity)

def historyColumns (request : SeriesRequest I M) : Finset Column :=
  {instrumentId, stateEffectiveSession} ∪ request.fieldIds.toFinset

/-- No entry of the instrument has all columns. -/
def lacksHistory (cache : LruCache.Cache Identity (Table (TableCell I N))) (identity : Identity)
    (columns : Finset Column) : Bool :=
  match getEntry cache identity columns with
  | .ok (some _, _) => false
  | _ => true

/-- The transitions with the help of the cache: what an instrument lacks is loaded for its whole
frozen history, and an error of the loader is raised through the cache. -/
def readHistory (rows : List (IndicatorRow I T)) (request : SeriesRequest I M)
    (fields : List IndicatorField) (history : HistoryCache Identity (TableCell I N)) :
    Except SeriesError (Table (TableCell I N) × HistoryCache Identity (TableCell I N)) := do
  require (∀ session ∈ request.sessions.getLast?, session ≤ history.historyEnd) .coverage
  let load := fun missing =>
    loadTransitions numbers rows fields (instrumentsOf missing) history.historyEnd
  let instruments := request.instrumentIds.toFinset.image instrumentCell
  let identity := identityOf request.manifestSha256 history.historyEnd
  let _ ← load (instruments.filter fun instrument =>
    lacksHistory history.cache (pair identity instrument) (historyColumns request))
  let (table, cache) ← (readInstruments size pair history.cache identity (historyColumns request)
    instruments fun missing => ((load missing).toOption).getD emptyTable).mapError .history
  return (table, { history with cache := cache })

/-- `FinancialIndicatorSeriesResolver.resolve_table` -/
def resolveTable (catalog : IndicatorCatalog) (manifestSha256 : M)
    (rows : List (IndicatorRow I T)) (history : Option (HistoryCache Identity (TableCell I N)))
    (request : SeriesRequest I M) :
    Except SeriesError (List (SeriesCell I N) × Option (HistoryCache Identity (TableCell I N))) := do
  let fields ← validateRequest catalog manifestSha256 request
  match request.sessions.getLast?, request.instrumentIds with
  | none, _ | _, [] => return ([], history)
  | some last, _ =>
    match history with
    | none =>
      let table ← loadTransitions numbers rows fields request.instrumentIds.toFinset last
      return (alignTable request table, none)
    | some history =>
      let (table, history) ← readHistory numbers size pair identityOf rows request fields history
      return (alignTable request table, some history)

end Requests

end ThesisTrace.IndicatorSeries
