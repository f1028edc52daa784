import ThesisTrace.Data.FinancialRows
import ThesisTrace.Library.OrderedMap

/-!
# Financial series

`resolve` and `resolveTable` turn financial rows into series: at each session an instrument has
the figures of its latest report period, in the latest revision that is available by then. The
first works along lists of rows and checks the values, the second on sorted tables, whose
transitions it may keep in a cache that other requests share.
-/

namespace ThesisTrace.FinancialSeries
open Transaction AsOf
open scoped KeyOrder

variable {F S I V T M : Type}

/-! ### Requests -/

inductive PeriodSelection
  | annual
  | latestReported
  | ttm
  deriving DecidableEq, Repr

def PeriodSelection.all : List PeriodSelection := [.annual, .latestReported, .ttm]

structure FieldProjection (F : Type) where
  fieldId : F
  endpoint : Endpoint
  sourceColumn : String
  periodSelection : PeriodSelection
  companyTypes : List String
  deriving DecidableEq, Repr

/-- `_REQUIRED_SOURCE_FIELDS` -/
def requiredSourceFields : List String :=
  ["ts_code", "ann_date", "f_ann_date", "end_date", "report_type", "comp_type", "end_type",
    "update_flag"]

/-- `_PROJECTION_BY_ID`. What is projected are figures, none of the columns that every table has. -/
structure FieldCatalog (F : Type) where
  projection : F → Option (FieldProjection F)
  fieldId_eq : ∀ fieldId p, projection fieldId = some p → p.fieldId = fieldId
  figures : ∀ fieldId p, projection fieldId = some p → p.sourceColumn ∉ requiredSourceFields

structure SeriesRequest (F S I M : Type) where
  manifestSha256 : M
  fieldIds : List F
  sessions : List S
  instrumentIds : List I

/-- `Decimal` on the figures. -/
structure DecimalTexts (V : Type) where
  Amount : Type
  /-- `Decimal(str(value))`, unless that raises. -/
  parse : V → Option Amount
  isFinite : Amount → Bool
  /-- `amounts[0] + amounts[1] - amounts[2]`, unless that raises. -/
  total : Amount → Amount → Amount → Option Amount
  /-- `str(amount)` -/
  text : Amount → V
  parse_text : ∀ amount, parse (text amount) = some amount
  total_finite : ∀ a b c amount, isFinite a → isFinite b → isFinite c →
    total a b c = some amount → isFinite amount

variable [DecidableEq F] [LinearOrder S] [LinearOrder I] [LinearOrder T]

/-- `_validate_request` -/
def SeriesRequest.validate (request : SeriesRequest F S I M) : Except FinancialSeriesError Unit :=
  require (request.fieldIds ≠ [] ∧ request.fieldIds.Nodup ∧ request.sessions ≠ [] ∧
    request.sessions.Pairwise (· < ·) ∧ request.instrumentIds ≠ [] ∧
    request.instrumentIds.Pairwise (· < ·)) .requestInvalid

/-- The projections of the requested fields. -/
def FieldCatalog.select (catalog : FieldCatalog F) (fieldIds : List F) :
    Except FinancialSeriesError (List (FieldProjection F)) :=
  fieldIds.mapM fun fieldId => found (catalog.projection fieldId) .fieldUnsupported

/-! ### Transitions -/

/-- What the values of an instrument become at a session. -/
structure Transition (F S I V : Type) where
  session : S
  instrumentId : I
  values : F → Option V
  /-- The `ttm_window_end` columns. -/
  windows : F → Option ReportPeriod

/-- `_COMPANY_TYPES` -/
def companyTypes : List String := ["1", "2", "3", "4"]

/-- The periods of a selection. -/
def PeriodSelection.accepts : PeriodSelection → ReportPeriod → Bool
  | .annual, period => period.monthDay = 1231
  | .latestReported, _ => true
  | .ttm, period => period.monthDay ∈ [331, 630, 930, 1231]

/-- The rows that a selection accepts. -/
def FinancialRow.accepted (selection : PeriodSelection) (instrumentIds : List I)
    (row : FinancialRow S I V T) : Bool :=
  row.instrumentId ∈ instrumentIds
  ∧ row.availabilityStatus = "available"
  ∧ row.sourceReportType = "1"
  ∧ row.sourceCompanyType ∈ companyTypes
  ∧ selection.accepts row.sourceReportPeriod

/-- The accepted rows, instrument by instrument in the order of their versions. -/
def acceptedRows (selection : PeriodSelection) (instrumentIds : List I)
    (rows : List (FinancialRow S I V T)) : List (FinancialRow S I V T) :=
  (rows.filter (FinancialRow.accepted selection instrumentIds)).mergeSort fun x y =>
    toLex (x.instrumentId, x.versionKey) ≤ toLex (y.instrumentId, y.versionKey)

def FinancialRow.instrumentSession (row : FinancialRow S I V T) : I ×ₗ S :=
  toLex (row.instrumentId, row.effectiveAvailableSession)

/-- The latest row of each period. -/
abbrev Latest (S I V T : Type) := OrderedMap ReportPeriod (FinancialRow S I V T)

def Latest.add (latest : Latest S I V T) (row : FinancialRow S I V T) : Latest S I V T :=
  latest.set row.sourceReportPeriod row

/-- `latest[max(latest)]` -/
def Latest.current (latest : Latest S I V T) : Option (FinancialRow S I V T) :=
  match (latest.keys.maximum : Option ReportPeriod) with
  | none => none
  | some period => latest.lookup period

/-- The rows of each session, instrument by instrument, come with the latest rows of each
period after them: the last row of the session and what is known then. -/
def stateChanges (accepted : List (FinancialRow S I V T)) :
    List (FinancialRow S I V T × Latest S I V T) :=
  lastOfRuns (fun entry => entry.1.instrumentSession)
    (scanGroups Latest.add FinancialRow.instrumentId ∅ none accepted)

/-- The figure of a row for a field, when the field applies to the company. -/
def FieldProjection.figure (projection : FieldProjection F) (row : FinancialRow S I V T) :
    Option V :=
  if row.sourceCompanyType ∈ projection.companyTypes then row.figure projection.sourceColumn
  else none

/-- A value for each of the projections. -/
def projectedValues {W : Type} (projections : List (FieldProjection F))
    (value : FieldProjection F → Option W) (fieldId : F) : Option W :=
  (projections.find? fun projection => projection.fieldId = fieldId).bind value

/-- `_state_transitions_rows` -/
def stateTransitionsRows (rows : List (FinancialRow S I V T))
    (projections : List (FieldProjection F)) (instrumentIds : List I) (annual : Bool) :
    List (Transition F S I V) :=
  let accepted := acceptedRows (if annual then .annual else .latestReported) instrumentIds rows
  ((stateChanges accepted).map fun entry =>
    { session := entry.1.effectiveAvailableSession
      instrumentId := entry.1.instrumentId
      values := projectedValues projections fun projection =>
        entry.2.current.bind projection.figure
      windows := fun _ => none : Transition F S I V }).mergeSort fun x y =>
    toLex (x.session, x.instrumentId) ≤ toLex (y.session, y.instrumentId)

/-- `_state_transitions_table`: the rows that attain the running maximum of the periods, of which
the last of each session. -/
def stateTransitionsTable (table : List (FinancialRow S I V T))
    (projections : List (FieldProjection F)) (instrumentIds : List I) (annual : Bool) :
    List (Transition F S I V) :=
  let accepted := acceptedRows (if annual then .annual else .latestReported) instrumentIds table
  let candidates := ((scanGroups (raise FinancialRow.sourceReportPeriod) FinancialRow.instrumentId
    ⊥ none accepted).filter fun entry =>
      (entry.1.sourceReportPeriod : WithBot ReportPeriod) = entry.2).map Prod.fst
  let latest := lastOfRuns FinancialRow.instrumentSession candidates
  (latest.map fun row =>
    { session := row.effectiveAvailableSession
      instrumentId := row.instrumentId
      values := projectedValues projections fun projection => projection.figure row
      windows := fun _ => none : Transition F S I V }).mergeSort fun x y =>
    toLex (x.session, x.instrumentId) ≤ toLex (y.session, y.instrumentId)

/-! ### Trailing twelve months -/

section Ttm
variable (texts : DecimalTexts V)

/-- `f"{year}{monthDay}"` of the year before. Years are written without leading zeros. -/
def ReportPeriod.inPreviousYear (period : ReportPeriod) (monthDay : Nat) : Option ReportPeriod :=
  if 1000 < period.year then some (toLex (period.year - 1, monthDay)) else none

/-- The rows that make up the trailing twelve months of a row. -/
def Latest.components (latest : Latest S I V T) (target : FinancialRow S I V T) :
    List (Option (FinancialRow S I V T)) :=
  let period := target.sourceReportPeriod
  if period.monthDay = 1231 then [some target]
  else [some target, (period.inPreviousYear 1231).bind latest.lookup,
    (period.inPreviousYear period.monthDay).bind latest.lookup]

def DecimalTexts.sum : List texts.Amount → Option texts.Amount
  | [] => none
  | [amount] => some amount
  | [_, _] => none
  | amount :: annual :: quarter :: _ => texts.total amount annual quarter

/-- The value of one field, for the latest rows of each period. -/
def ttmValue (projection : FieldProjection F) (latest : Latest S I V T) :
    Except FinancialSeriesError (Option V) :=
  match latest.current with
  | none => .ok none
  | some target =>
    let figures := (latest.components target).mapM fun component => component.bind fun row =>
      if row.sourceCompanyType = target.sourceCompanyType then projection.figure row else none
    match figures with
    | none => .ok none
    | some figures => do
      let amounts ← figures.mapM fun figure => found (texts.parse figure) .decimal
      if amounts.all texts.isFinite then do
        let amount ← found (texts.sum amounts) .decimal
        pure (some (texts.text amount))
      else pure none

/-- One turn of the loop of `_ttm_state_transitions`. -/
def ttmTransition (projections : List (FieldProjection F))
    (entry : FinancialRow S I V T × Latest S I V T) :
    Except FinancialSeriesError (Transition F S I V) := do
  let values ← projections.mapM fun projection => do
    let value ← ttmValue texts projection entry.2
    pure (projection.fieldId, value)
  let value := fun fieldId => (values.lookup fieldId).join
  pure
    { session := entry.1.effectiveAvailableSession
      instrumentId := entry.1.instrumentId
      values := value
      windows := fun fieldId =>
        if (value fieldId).isSome then entry.2.current.map FinancialRow.sourceReportPeriod
        else none }

/-- `_ttm_state_transitions` -/
def ttmStateTransitions (rows : List (FinancialRow S I V T))
    (projections : List (FieldProjection F)) (instrumentIds : List I) :
    Except FinancialSeriesError (List (Transition F S I V)) :=
  (stateChanges (acceptedRows .ttm instrumentIds rows)).mapM (ttmTransition texts projections)

/-- `_ttm_state_transitions_table`: a slice of the sorted table for each instrument. -/
def ttmStateTransitionsTable (table : List (FinancialRow S I V T))
    (projections : List (FieldProjection F)) (instrumentIds : List I) :
    Except FinancialSeriesError (List (Transition F S I V)) := do
  let ordered := (table.filter fun row => row.instrumentId ∈ instrumentIds).mergeSort fun x y =>
    x.instrumentId ≤ y.instrumentId
  let transitions ← (ordered.map FinancialRow.instrumentId).dedup.mapM fun instrumentId =>
    ttmStateTransitions texts (ordered.filter fun row => row.instrumentId = instrumentId)
      projections instrumentIds
  pure transitions.flatten

/-- `_projection_transitions` -/
def projectionTransitions (table : List (FinancialRow S I V T))
    (projections : List (FieldProjection F)) (selection : PeriodSelection)
    (instrumentIds : List I) : Except FinancialSeriesError (List (Transition F S I V)) :=
  if selection = .ttm then ttmStateTransitionsTable texts table projections instrumentIds
  else .ok (stateTransitionsTable table projections instrumentIds (selection = .annual))

/-- The transitions that `_resolve_projection_group` aligns. -/
def projectionTransitionsRows (rows : List (FinancialRow S I V T))
    (projections : List (FieldProjection F)) (selection : PeriodSelection)
    (instrumentIds : List I) : Except FinancialSeriesError (List (Transition F S I V)) :=
  if selection = .ttm then ttmStateTransitions texts rows projections instrumentIds
  else .ok (stateTransitionsRows rows projections instrumentIds (selection = .annual))

end Ttm

/-! ### Alignment -/

/-- A value and its window at each coordinate. -/
abbrev AlignedColumn (S I V : Type) := List ((S × I) × Option V × Option ReportPeriod)

/-- The last transition of an instrument up to a session: `searchsorted` in its slice of the
sorted transitions. -/
def transitionAt (transitions : List (Transition F S I V)) (session : S) (instrumentId : I) :
    Option (Transition F S I V) :=
  lastAtMost Transition.session ((transitions.mergeSort fun x y =>
      toLex (x.instrumentId, x.session) ≤ toLex (y.instrumentId, y.session)).filter
    fun transition => transition.instrumentId = instrumentId) session

/-- `_align_projection_group`: a column for each projection. -/
def alignProjectionGroup (transitions : List (Transition F S I V))
    (projections : List (FieldProjection F)) (sessions : List S) (instrumentIds : List I) :
    List (F × AlignedColumn S I V) :=
  projections.map fun projection => (projection.fieldId,
    sessions.flatMap fun session => instrumentIds.map fun instrumentId =>
      let transition := transitionAt transitions session instrumentId
      ((session, instrumentId), transition.bind fun at_ => at_.values projection.fieldId,
        transition.bind fun at_ => at_.windows projection.fieldId))

/-! ### Resolvers -/

section Resolvers
variable [DecidableEq V] (texts : DecimalTexts V) (catalog : FieldCatalog F)
variable (families : M → FinancialFamily S I V T)

/-- The dictionary of one field. -/
abbrev NumericSeries (S I V : Type) := List ((S × I) × V)

/-- `_numeric_value` -/
def numericValue (value : V) : Except FinancialSeriesError V :=
  match texts.parse value with
  | none => .error .valueInvalid
  | some amount => if texts.isFinite amount then .ok value else .error .valueInvalid

/-- The valid values of a column. -/
def validValues (column : AlignedColumn S I V) : NumericSeries S I V :=
  column.filterMap fun cell => cell.2.1.map fun value => (cell.1, value)

/-- The groups of projections that are resolved together, for one endpoint. -/
def projectionGroups (projections : List (FieldProjection F)) (endpoint : Endpoint) :
    List (PeriodSelection × List (FieldProjection F)) :=
  (PeriodSelection.all.map fun selection => (selection, projections.filter fun projection =>
    projection.endpoint = endpoint ∧ projection.periodSelection = selection)).filter
      fun group => group.2 ≠ []

/-- The figures that the projections of an endpoint ask for. -/
def sourceColumns (projections : List (FieldProjection F)) (endpoint : Endpoint) : List String :=
  (projections.filter fun projection => projection.endpoint = endpoint).map
    FieldProjection.sourceColumn

/-- Read the rows of each endpoint that is asked for, and resolve its groups. -/
def resolveGroups {W : Type} (request : SeriesRequest F S I M)
    (projections : List (FieldProjection F))
    (resolveGroup : List (FinancialRow S I V T) → PeriodSelection → List (FieldProjection F) →
      Except FinancialSeriesError (List (F × W))) :
    Except FinancialSeriesError (List (F × W)) := do
  let resolved ← (Endpoint.all.filter fun endpoint =>
      projectionGroups projections endpoint ≠ []).mapM fun endpoint => do
    let rows ← (families request.manifestSha256).readFinancialTable endpoint
      (sourceColumns projections endpoint) request.sessions request.instrumentIds
    let groups ← (projectionGroups projections endpoint).mapM fun group =>
      resolveGroup rows group.1 group.2
    pure groups.flatten
  pure resolved.flatten

/-- `_resolve_projection_group` -/
def resolveProjectionGroup (request : SeriesRequest F S I M) (rows : List (FinancialRow S I V T))
    (selection : PeriodSelection) (projections : List (FieldProjection F)) :
    Except FinancialSeriesError (List (F × NumericSeries S I V)) := do
  let transitions ← projectionTransitionsRows texts rows projections selection
    request.instrumentIds
  (alignProjectionGroup transitions projections request.sessions request.instrumentIds).mapM
    fun column => do
      let values ← (validValues column.2).mapM fun entry => do
        let value ← numericValue texts entry.2
        pure (entry.1, value)
      pure (column.1, values)

/-- `FinancialSeriesResolver.resolve` -/
def resolve (request : SeriesRequest F S I M) :
    Except FinancialSeriesError (List (F × NumericSeries S I V)) := do
  request.validate
  let projections ← catalog.select request.fieldIds
  let resolved ← resolveGroups families request projections (resolveProjectionGroup texts request)
  pure (projections.map fun projection =>
    (projection.fieldId, (resolved.lookup projection.fieldId).getD []))

/-- `_resolve_projection_group_table` -/
def resolveProjectionGroupTable (request : SeriesRequest F S I M)
    (table : List (FinancialRow S I V T)) (selection : PeriodSelection)
    (projections : List (FieldProjection F)) :
    Except FinancialSeriesError (List (F × AlignedColumn S I V)) := do
  let transitions ← projectionTransitions texts table projections selection request.instrumentIds
  pure (alignProjectionGroup transitions projections request.sessions request.instrumentIds)

/-- `FinancialSeriesResolver.resolve_table` without a cache. -/
def resolveTable (request : SeriesRequest F S I M) :
    Except FinancialSeriesError (List (F × AlignedColumn S I V)) := do
  request.validate
  let projections ← catalog.select request.fieldIds
  let aligned ← resolveGroups families request projections
    (resolveProjectionGroupTable texts request)
  pure (projections.map fun projection =>
    (projection.fieldId, (aligned.lookup projection.fieldId).getD []))

/-! ### The cache -/

/-- The research sessions that a family covers, as the resolver of a cache is given them. -/
structure FrozenCalendar (S : Type) [LinearOrder S] where
  sessions : List S
  ascending : sessions.Pairwise (· < ·)

/-- What identifies the transitions of one instrument in the cache. -/
structure HistoryKey (F S I M : Type) where
  manifestSha256 : M
  fieldId : F
  firstSession : S
  lastSession : S
  instrumentId : I
  deriving DecidableEq

/-- The retained tables. -/
abbrev HistoryProjectionCache (F S I V M : Type) :=
  HistoryKey F S I M → Option (List (Transition F S I V))

/-- What `resolve_table` loads for instruments that are not cached. -/
def loadHistory (manifestSha256 : M) (projection : FieldProjection F) (history : List S)
    (instrumentIds : List I) : Except FinancialSeriesError (List (Transition F S I V)) := do
  let table ← (families manifestSha256).readFinancialTable projection.endpoint
    [projection.sourceColumn] history instrumentIds
  projectionTransitions texts table [projection] projection.periodSelection instrumentIds

/-- `HistoryProjectionCache.read_instruments`. Of the tables that are there and those that are
loaded, the cache keeps what `retained` says. -/
def readInstruments [DecidableEq M] (cache : HistoryProjectionCache F S I V M)
    (retained : HistoryKey F S I M → Bool) (manifestSha256 : M) (projection : FieldProjection F)
    (history : List S) (instrumentIds : List I) :
    Except FinancialSeriesError (List (Transition F S I V) × HistoryProjectionCache F S I V M) := do
  let first ← found history.head? .sessionInvalid
  let last ← found history.getLast? .sessionInvalid
  let key := HistoryKey.mk manifestSha256 projection.fieldId first last
  let cached := instrumentIds.filterMap fun instrumentId => cache (key instrumentId)
  let missing := instrumentIds.filter fun instrumentId => (cache (key instrumentId)).isNone
  if missing = [] then
    pure (cached.flatten, fun entry => if retained entry then cache entry else none)
  else
    let loaded ← loadHistory texts families manifestSha256 projection history missing
    require (∀ transition ∈ loaded, transition.instrumentId ∈ missing) .outOfScopeInstrument
    let slice := fun instrumentId => (loaded.mergeSort fun x y =>
      x.instrumentId ≤ y.instrumentId).filter fun transition =>
        transition.instrumentId = instrumentId
    pure (cached.flatten ++ missing.flatMap slice, fun entry =>
      if retained entry then
        if entry = key entry.instrumentId ∧ entry.instrumentId ∈ missing then
          some (slice entry.instrumentId)
        else cache entry
      else none)

/-- The loop of `resolve_table` along the projections. -/
def resolveCachedProjections [DecidableEq M] (retained : F → HistoryKey F S I M → Bool)
    (history : FrozenCalendar S) (request : SeriesRequest F S I M) :
    List (FieldProjection F) → HistoryProjectionCache F S I V M →
      Except FinancialSeriesError
        (List (F × AlignedColumn S I V) × HistoryProjectionCache F S I V M)
  | [], cache => .ok ([], cache)
  | projection :: projections, cache => do
    let (transitions, cache) ← readInstruments texts families cache (retained projection.fieldId)
      request.manifestSha256 projection history.sessions request.instrumentIds
    let (columns, cache) ← resolveCachedProjections retained history request projections cache
    pure (alignProjectionGroup transitions [projection] request.sessions request.instrumentIds ++
      columns, cache)

/-- `FinancialSeriesResolver.resolve_table` with a cache. -/
def resolveTableCached [DecidableEq M] (retained : F → HistoryKey F S I M → Bool)
    (history : FrozenCalendar S) (cache : HistoryProjectionCache F S I V M)
    (request : SeriesRequest F S I M) :
    Except FinancialSeriesError
      (List (F × AlignedColumn S I V) × HistoryProjectionCache F S I V M) := do
  request.validate
  let projections ← catalog.select request.fieldIds
  require (∀ session ∈ request.sessions, session ∈ history.sessions) .sessionInvalid
  resolveCachedProjections texts families retained history request projections cache

/-- The caches that reads of any family, field, history and instruments leave behind. -/
inductive CacheReachable [DecidableEq M] : HistoryProjectionCache F S I V M → Prop
  | empty : CacheReachable fun _ => none
  | read {cache next : HistoryProjectionCache F S I V M} (retained : HistoryKey F S I M → Bool)
      (manifestSha256 : M) (projection : FieldProjection F) (history : List S)
      (instrumentIds : List I) (transitions : List (Transition F S I V))
      (hreachable : CacheReachable cache)
      (hprojection : catalog.projection projection.fieldId = some projection)
      (hread : readInstruments texts families cache retained manifestSha256 projection history
        instrumentIds = .ok (transitions, next)) : CacheReachable next

end Resolvers

end ThesisTrace.FinancialSeries
