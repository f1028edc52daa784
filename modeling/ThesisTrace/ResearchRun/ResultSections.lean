import Mathlib.Algebra.Ring.Nat
import Mathlib.Data.List.Sort
import Mathlib.Data.Prod.Lex
import Mathlib.Data.String.Basic
import ThesisTrace.Library.Pagination
import ThesisTrace.Library.Transaction

/-!
# Pages of Result sections

The sections of a Result that are read in pages. The rows of a section lie in partitions with
declared bounds and row counts, and a page opens only the partitions that it plans to need. `D` is
what else a row holds.
-/

namespace ThesisTrace.ResearchRun.Results
open Pagination Transaction

/-! ### Sessions -/

def daysInMonth (year month : ℕ) : ℕ :=
  if month = 2 then if year % 4 = 0 ∧ (year % 100 ≠ 0 ∨ year % 400 = 0) then 29 else 28
  else if month = 4 ∨ month = 6 ∨ month = 9 ∨ month = 11 then 30
  else 31

/-- `date.fromisoformat(value).isoformat() == value` -/
def isSession (text : String) : Bool :=
  match text.toList with
  | [y₁, y₂, y₃, y₄, '-', m₁, m₂, '-', d₁, d₂] =>
    let digits := [y₁, y₂, y₃, y₄, m₁, m₂, d₁, d₂]
    let year := Nat.ofDigitChars 10 [y₁, y₂, y₃, y₄] 0
    let month := Nat.ofDigitChars 10 [m₁, m₂] 0
    let day := Nat.ofDigitChars 10 [d₁, d₂] 0
    digits.all Char.isDigit && 1 ≤ year && 1 ≤ month && month ≤ 12 && 1 ≤ day &&
      day ≤ daysInMonth year month
  | _ => false

/-- A Session is written as an ISO date. -/
structure Session where
  text : String
  iso : isSession text = true
  deriving DecidableEq

/-! ### Rows -/

structure Observation (D : Type) where
  session : Session
  values : D

structure Position (D : Type) where
  instrumentId : String
  values : D

inductive CommonIdentifier
  | universeReturn
  | universeAdvancingFraction
  | industryReturn
  | industryAdvancingFraction
  deriving DecidableEq, Repr

def CommonIdentifier.text : CommonIdentifier → String
  | .universeReturn => "universe_return"
  | .universeAdvancingFraction => "universe_advancing_fraction"
  | .industryReturn => "industry_return"
  | .industryAdvancingFraction => "industry_advancing_fraction"

/-- A code of the industry catalog, which has digits only. -/
structure IndustryCode where
  text : String
  digits : text.toList.all Char.isDigit = true
  deriving DecidableEq

structure CommonObservation (D : Type) where
  session : Session
  identifier : CommonIdentifier
  industryCode : Option IndustryCode
  values : D

inductive Horizon
  | one
  | five
  | twenty
  deriving DecidableEq, Repr

def Horizon.sessions : Horizon → ℕ
  | .one => 1
  | .five => 5
  | .twenty => 20

structure FactorDay (D : Type) where
  horizon : Horizon
  session : Session
  values : D

inductive Granularity
  | all
  | month
  | year
  deriving DecidableEq, Repr

def Granularity.text : Granularity → String
  | .all => "all"
  | .month => "month"
  | .year => "year"

structure FactorPeriod (D : Type) where
  horizon : Horizon
  granularity : Granularity
  period : String
  firstSignalSession : Session
  lastSignalSession : Session
  values : D

inductive ResultError
  /-- A section of the other kind of Research. -/
  | researchKind
  /-- A descriptor or one of its partitions is invalid. -/
  | descriptor
  /-- A partition is missing or differs from its descriptor. -/
  | partition
  /-- The parameters of a page are invalid. -/
  | request
  /-- The summary or the statistics of periods are invalid. -/
  | summary
  deriving DecidableEq, Repr

/-! ### Partitions with bounds -/

/-- A partition is named by its number. -/
structure PartitionDescriptor (K : Type) where
  name : ℕ
  rowCount : ℕ
  first : K
  last : K
  deriving DecidableEq, Repr

/-- The descriptor of a section and the rows that the payload of each name decodes to. -/
structure PartitionedSection (K R : Type) where
  partitions : List (PartitionDescriptor K)
  payload : ℕ → Option (List R)

section Bounded

variable {K R : Type} [LinearOrder K]

/-- The checks of the partitions from an index on, after one that ended at `prior`. -/
def checkPartitions (size : Option ℕ) :
    ℕ → Option K → List (PartitionDescriptor K) → Except ResultError Unit
  | _, _, [] => .ok ()
  | index, prior, part :: parts => do
    require (part.name = index ∧ 1 ≤ part.rowCount ∧ size.all (part.rowCount ≤ ·) ∧
      part.first ≤ part.last ∧ prior.all (· < part.first)) .descriptor
    checkPartitions size (index + 1) (some part.last) parts

/-- `canonicalize_parquet_rows`, for rows that are identified by one key -/
def canonicalRows (key : R → K) (rows : List R) : Except ResultError (List R) := do
  require (rows.map key).Nodup .partition
  return rows.insertionSort fun a b => key a ≤ key b

/-- The rows of a described partition. -/
def readPartition (decode : List R → Except ResultError (List R)) (bound : R → K)
    (payload : ℕ → Option (List R)) (part : PartitionDescriptor K) :
    Except ResultError (List R) := do
  let content ← found (payload part.name) .partition
  let rows ← decode content
  require (rows ≠ [] ∧ part.rowCount = rows.length ∧
    rows.head?.map bound = some part.first ∧ rows.getLast?.map bound = some part.last) .partition
  return rows

/-- `_read_selected_daily_observations` and `_read_selected_terminal_positions` -/
def readSelected (key : R → K) (payload : ℕ → Option (List R)) (names : List ℕ) :
    List (PartitionDescriptor K) → Except ResultError (List R)
  | [] => .ok []
  | part :: parts =>
    if part.name ∈ names then do
      let rows ← readPartition (canonicalRows key) key payload part
      let rest ← readSelected key payload names parts
      return rows ++ rest
    else readSelected key payload names parts

/-- The partitions of `plan_bounded_result_partition_names` from any of them on, with the rows
that are available in those before. -/
def planPartitions (after : Option K) (limit : ℕ) :
    ℕ → List (PartitionDescriptor K) → List ℕ
  | _, [] => []
  | availableRows, part :: parts =>
    if after.any (part.last ≤ ·) then planPartitions after limit availableRows parts
    else
      let availableRows :=
        if after.all (· < part.first) then availableRows + part.rowCount else availableRows
      if limit + 1 ≤ availableRows then [part.name]
      else part.name :: planPartitions after limit availableRows parts

def planBoundedResultPartitionNames (partitions : List (PartitionDescriptor K)) (after : Option K)
    (limit : ℕ) : List ℕ :=
  planPartitions after limit 0 partitions

/-- A page of a section with bounds in its key. -/
def readBoundedPage (key : R → K) (size : Option ℕ) (stored : PartitionedSection K R)
    (after : Option K) (limit : ℕ) : Except ResultError (Page K R) := do
  checkPartitions size 0 none stored.partitions
  let names := planBoundedResultPartitionNames stored.partitions after limit
  let rows ← readSelected key stored.payload names stored.partitions
  return pageOf key (rows.filter fun row => after.all (· < key row)) limit

/-- All rows of a section with bounds in its key. -/
def readBoundedRows (key : R → K) (size : Option ℕ) (stored : PartitionedSection K R) :
    Except ResultError (List R) := do
  checkPartitions size 0 none stored.partitions
  readSelected key stored.payload (stored.partitions.map PartitionDescriptor.name)
    stored.partitions

end Bounded

/-! ### Strategy sections -/

section Strategy

variable {D : Type}

def Observation.key (row : Observation D) : String := row.session.text

def dailyPartitionSessionCount : ℕ := 504

def terminalPositionPartitionCount : ℕ := 50

/-- `strategy_observations`; there is at least one partition. -/
def readStrategyObservations (stored : PartitionedSection String (Observation D))
    (after : Option String) (limit : ℕ) : Except ResultError (Page String (Observation D)) := do
  require (stored.partitions ≠ []) .descriptor
  readBoundedPage Observation.key (some dailyPartitionSessionCount) stored after limit

def readDailyObservations (stored : PartitionedSection String (Observation D)) :
    Except ResultError (List (Observation D)) := do
  require (stored.partitions ≠ []) .descriptor
  readBoundedRows Observation.key (some dailyPartitionSessionCount) stored

/-- `terminal_positions` -/
def readTerminalPositionPage (stored : PartitionedSection String (Position D))
    (after : Option String) (limit : ℕ) : Except ResultError (Page String (Position D)) :=
  readBoundedPage Position.instrumentId (some terminalPositionPartitionCount) stored after limit

def readTerminalPositions (stored : PartitionedSection String (Position D)) :
    Except ResultError (List (Position D)) :=
  readBoundedRows Position.instrumentId (some terminalPositionPartitionCount) stored

end Strategy

/-! ### Common inputs -/

section Common

variable {D : Type}

abbrev CommonKey := String ×ₗ (String ×ₗ String)

/-- `_common_observation_order` -/
def commonObservationOrder (row : CommonObservation D) : CommonKey :=
  toLex (row.session.text, toLex (row.identifier.text,
    (row.industryCode.map IndustryCode.text).getD ""))

/-- `"|".join` of the order of a row -/
def commonCursor (key : CommonKey) : String :=
  String.ofList (List.intercalate ['|'] [(ofLex key).1.toList,
    (ofLex (ofLex key).2).1.toList, (ofLex (ofLex key).2).2.toList])

/-- The boundary that a cursor names. -/
def commonBoundary (after : String) : Except ResultError CommonKey :=
  match (after.toList.splitOn '|').map String.ofList with
  | [session, identifier, industry] => do
    require (session ≠ "" ∧ identifier ≠ "") .request
    return toLex (session, toLex (identifier, industry))
  | _ => .error .request

/-- `read_common_input_observation_partition` -/
def decodeCommonRows (rows : List (CommonObservation D)) :
    Except ResultError (List (CommonObservation D)) := do
  require (rows.Pairwise fun a b => commonObservationOrder a < commonObservationOrder b) .partition
  return rows

def readCommonPartition (payload : ℕ → Option (List (CommonObservation D)))
    (part : PartitionDescriptor String) : Except ResultError (List (CommonObservation D)) :=
  readPartition decodeCommonRows (fun row => row.session.text) payload part

/-- The loop of `read_common_input_observation_page` over the partitions, with the rows that
remain so far. -/
def scanCommonPartitions (payload : ℕ → Option (List (CommonObservation D)))
    (boundary : Option CommonKey) (limit : ℕ) :
    List (CommonObservation D) → List (PartitionDescriptor String) →
      Except ResultError (List (CommonObservation D))
  | remaining, [] => .ok remaining
  | remaining, part :: parts =>
    if boundary.any (fun key => part.last < (ofLex key).1) then
      scanCommonPartitions payload boundary limit remaining parts
    else do
      let rows ← readCommonPartition payload part
      let remaining := remaining ++
        rows.filter fun row => boundary.all (· < commonObservationOrder row)
      if limit < remaining.length then return remaining
      else scanCommonPartitions payload boundary limit remaining parts

/-- No cursor, or the boundary that it names -/
def requestedBoundary : Option String → Except ResultError (Option CommonKey)
  | none => .ok none
  | some after => (commonBoundary after).map some

/-- `read_common_input_observation_page` -/
def readCommonInputObservationPage (stored : PartitionedSection String (CommonObservation D))
    (after : Option String) (limit : ℕ) :
    Except ResultError (Page String (CommonObservation D)) := do
  require (1 ≤ limit) .request
  let boundary ← requestedBoundary after
  checkPartitions none 0 none stored.partitions
  let remaining ← scanCommonPartitions stored.payload boundary limit [] stored.partitions
  return pageOf (fun row => commonCursor (commonObservationOrder row)) remaining limit

/-- `_read_common_result_observations` -/
def readCommonResultObservations (stored : PartitionedSection String (CommonObservation D)) :
    Except ResultError (List (CommonObservation D)) := do
  checkPartitions none 0 none stored.partitions
  let rows ← stored.partitions.mapM (readCommonPartition stored.payload)
  return rows.flatten

end Common

/-! ### Factor sections -/

structure HorizonSpan where
  horizon : Horizon
  rowCount : ℕ
  firstSession : String
  lastSession : String
  deriving DecidableEq, Repr

structure FactorDescriptor where
  name : ℕ
  rowCount : ℕ
  horizons : List HorizonSpan
  deriving DecidableEq, Repr

/-- The daily evidence and the statistics of a Factor Result. -/
structure FactorEvidence (D : Type) where
  partitions : List FactorDescriptor
  payload : ℕ → Option (List (FactorDay D))
  periods : List (FactorPeriod D)
  /-- Whether the summary agrees with the descriptors and the statistics, which are valid. -/
  consistent : Bool

section Factor

variable {D : Type}

def horizons : List Horizon := [.one, .five, .twenty]

/-- The order of `(row["horizon"], row["session"])` -/
def factorCoordinate (row : FactorDay D) : ℕ ×ₗ String :=
  toLex (row.horizon.sessions, row.session.text)

/-- The order of `(row["horizon"], row["granularity"], row["period"])` -/
def periodKey (row : FactorPeriod D) : ℕ ×ₗ (String ×ₗ String) :=
  toLex (row.horizon.sessions, toLex (row.granularity.text, row.period))

/-- The last session of every horizon so far; `""` before the first one. -/
abbrev LastSessions := Horizon → String

/-- The checks of the spans of one partition. -/
def checkSpans : LastSessions → List HorizonSpan → Except ResultError LastSessions
  | previous, [] => .ok previous
  | previous, span :: spans => do
    require (1 ≤ span.rowCount ∧ isSession span.firstSession ∧ isSession span.lastSession ∧
      span.firstSession ≤ span.lastSession ∧ previous span.horizon < span.firstSession) .descriptor
    checkSpans (Function.update previous span.horizon span.lastSession) spans

/-- The checks of `factor_partition_descriptors` from an index on -/
def checkFactorParts : ℕ → LastSessions → List FactorDescriptor → Except ResultError LastSessions
  | _, previous, [] => .ok previous
  | index, previous, part :: parts => do
    require (part.name = index ∧ 1 ≤ part.rowCount ∧ part.horizons ≠ []) .descriptor
    let previous ← checkSpans previous part.horizons
    require ((part.horizons.map fun span => span.horizon.sessions).Pairwise (· < ·) ∧
      (part.horizons.map HorizonSpan.rowCount).sum = part.rowCount) .descriptor
    checkFactorParts (index + 1) previous parts

/-- `factor_partition_descriptors`; every horizon has a span. -/
def factorPartitionDescriptors (stored : FactorEvidence D) :
    Except ResultError (List FactorDescriptor) := do
  require (stored.partitions ≠ []) .descriptor
  let previous ← checkFactorParts 0 (fun _ => "") stored.partitions
  require (∀ horizon ∈ horizons, previous horizon ≠ "") .descriptor
  return stored.partitions

/-- The span of a horizon in some rows. -/
def spanOf (rows : List (FactorDay D)) (horizon : Horizon) : Option HorizonSpan :=
  let sessions := (rows.filter fun row => row.horizon = horizon).map fun row => row.session.text
  match sessions.head?, sessions.getLast? with
  | some first, some last => some ⟨horizon, sessions.length, first, last⟩
  | _, _ => none

/-- `read_factor_described_partition` -/
def readFactorDescribedPartition (stored : FactorEvidence D) (part : FactorDescriptor) :
    Except ResultError (List (FactorDay D)) := do
  let rows ← found (stored.payload part.name) .partition
  require ((rows.map factorCoordinate).Pairwise (· < ·)) .partition
  require (rows.length = part.rowCount ∧ horizons.filterMap (spanOf rows) = part.horizons)
    .partition
  return rows

/-- What a page of daily evidence is filtered by. -/
structure FactorDayFilter where
  horizon : Horizon
  startSession : Option String
  endSession : Option String
  deriving DecidableEq, Repr

def FactorDayFilter.Valid (filter : FactorDayFilter) : Prop :=
  filter.startSession.all isSession ∧ filter.endSession.all isSession ∧
    filter.startSession.all fun first => filter.endSession.all fun last => first ≤ last

instance (filter : FactorDayFilter) : Decidable filter.Valid :=
  inferInstanceAs (Decidable (_ ∧ _ ∧ _))

def FactorDayFilter.matches (filter : FactorDayFilter) (row : FactorDay D) : Bool :=
  row.horizon = filter.horizon && filter.startSession.all (· ≤ row.session.text) &&
    filter.endSession.all (row.session.text ≤ ·)

/-- No row of the span is wanted. -/
def FactorDayFilter.skips (filter : FactorDayFilter) (after : Option String) (span : HorizonSpan) :
    Bool :=
  after.any (span.lastSession ≤ ·) || filter.startSession.any (span.lastSession < ·) ||
    filter.endSession.any (· < span.firstSession)

/-- The loop of `read_factor_daily_page` over the partitions, with the rows selected so far. It
ends with the first row beyond the limit. -/
def scanFactorPartitions (stored : FactorEvidence D) (filter : FactorDayFilter)
    (after : Option String) (limit : ℕ) :
    List (FactorDay D) → List FactorDescriptor → Except ResultError (List (FactorDay D))
  | selected, [] => .ok selected
  | selected, part :: parts =>
    match part.horizons.find? fun span => span.horizon = filter.horizon with
    | none => scanFactorPartitions stored filter after limit selected parts
    | some span =>
      if filter.skips after span then
        scanFactorPartitions stored filter after limit selected parts
      else do
        let rows ← readFactorDescribedPartition stored part
        let selected := selected ++
          rows.filter fun row => after.all (· < row.session.text) && filter.matches row
        if limit < selected.length then return selected.take (limit + 1)
        else scanFactorPartitions stored filter after limit selected parts

/-- `read_factor_daily_page` -/
def readFactorDailyPage (stored : FactorEvidence D) (filter : FactorDayFilter)
    (after : Option String) (limit : ℕ) : Except ResultError (Page String (FactorDay D)) := do
  require (1 ≤ limit ∧ limit ≤ 50) .request
  require (filter.Valid ∧ after.all isSession) .request
  let parts ← factorPartitionDescriptors stored
  let selected ← scanFactorPartitions stored filter after limit [] parts
  return pageOf (fun row => row.session.text) selected limit

/-- The rows of all partitions of the daily evidence. -/
def readFactorDays (stored : FactorEvidence D) : Except ResultError (List (FactorDay D)) := do
  let parts ← factorPartitionDescriptors stored
  let rows ← parts.mapM (readFactorDescribedPartition stored)
  return rows.flatten

/-- The period follows the signal dates. -/
def FactorPeriod.periodValid (row : FactorPeriod D) : Bool :=
  match row.granularity with
  | .all => row.period = "all"
  | .month => row.firstSignalSession.text.toList.take 7 = row.period.toList &&
      row.lastSignalSession.text.toList.take 7 = row.period.toList
  | .year => row.firstSignalSession.text.toList.take 4 = row.period.toList &&
      row.lastSignalSession.text.toList.take 4 = row.period.toList

/-- `read_factor_summary_bundle`, as far as it accepts the statistics -/
def readFactorSummaryBundle (stored : FactorEvidence D) :
    Except ResultError (List (FactorPeriod D)) := do
  let _parts ← factorPartitionDescriptors stored
  require (stored.periods ≠ [] ∧ stored.periods.all FactorPeriod.periodValid) .summary
  require ((stored.periods.map periodKey).Pairwise (· < ·)) .summary
  require stored.consistent .summary
  return stored.periods

/-- The cursor names a period of the granularity. -/
def Granularity.accepts (granularity : Granularity) (after : String) : Bool :=
  match granularity with
  | .all => after = "all"
  | .month => isSession (after ++ "-01")
  | .year => isSession (after ++ "-01-01")

/-- `read_factor_period_page` -/
def readFactorPeriodPage (stored : FactorEvidence D) (horizon : Horizon)
    (granularity : Granularity) (after : Option String) (limit : ℕ) :
    Except ResultError (Page String (FactorPeriod D)) := do
  require (1 ≤ limit ∧ limit ≤ 50) .request
  require (after.all granularity.accepts) .request
  let periods ← readFactorSummaryBundle stored
  return pageOf FactorPeriod.period (periods.filter fun row => row.horizon = horizon &&
    row.granularity = granularity && after.all (· < row.period)) limit

end Factor

/-! ### Sections -/

inductive ResearchKind
  | factorEvaluation
  | strategyBacktest
  deriving DecidableEq, Repr

/-- A Result, as far as its sections are read in pages; without partitions of common inputs their
descriptor is missing. -/
structure ResearchResult (D : Type) where
  researchKind : ResearchKind
  hasCommonInputs : Bool
  strategyObservations : PartitionedSection String (Observation D)
  terminalPositions : PartitionedSection String (Position D)
  commonInputObservations : PartitionedSection String (CommonObservation D)
  factorEvidence : FactorEvidence D

inductive SectionQuery
  | factorPeriods (horizon : Horizon) (granularity : Granularity)
  | factorObservations (filter : FactorDayFilter)
  | commonInputObservations
  | strategyObservations
  | terminalPositions

inductive SectionRow (D : Type)
  | factorPeriod (row : FactorPeriod D)
  | factorDay (row : FactorDay D)
  | common (row : CommonObservation D)
  | observation (row : Observation D)
  | position (row : Position D)

section Sections

variable {D : Type}

/-- `read_semantic_result_section` of a section that is read in pages -/
def readSemanticResultSection (result : ResearchResult D) (query : SectionQuery)
    (after : Option String) (limit : ℕ) : Except ResultError (Page String (SectionRow D)) :=
  match query with
  | .factorPeriods horizon granularity => do
    require (result.researchKind = .factorEvaluation) .researchKind
    let page ← readFactorPeriodPage result.factorEvidence horizon granularity after limit
    return page.map .factorPeriod
  | .factorObservations filter => do
    require (result.researchKind = .factorEvaluation) .researchKind
    let page ← readFactorDailyPage result.factorEvidence filter after limit
    return page.map .factorDay
  | .commonInputObservations =>
    if result.hasCommonInputs then do
      let page ← readCommonInputObservationPage result.commonInputObservations after limit
      return page.map .common
    else return ⟨[], none⟩
  | .strategyObservations => do
    require (result.researchKind = .strategyBacktest) .researchKind
    let page ← readStrategyObservations result.strategyObservations after limit
    return page.map .observation
  | .terminalPositions => do
    require (result.researchKind = .strategyBacktest) .researchKind
    let page ← readTerminalPositionPage result.terminalPositions after limit
    return page.map .position

/-- The rows of a verified section that match the query, in their order. -/
def matchingRows (result : ResearchResult D) :
    SectionQuery → Except ResultError (List (SectionRow D))
  | .factorPeriods horizon granularity => do
    require (result.researchKind = .factorEvaluation) .researchKind
    let rows ← readFactorSummaryBundle result.factorEvidence
    return (rows.filter fun row =>
      row.horizon = horizon && row.granularity = granularity).map .factorPeriod
  | .factorObservations filter => do
    require (result.researchKind = .factorEvaluation) .researchKind
    let rows ← readFactorDays result.factorEvidence
    return (rows.filter filter.matches).map .factorDay
  | .commonInputObservations =>
    if result.hasCommonInputs then do
      let rows ← readCommonResultObservations result.commonInputObservations
      return rows.map .common
    else return []
  | .strategyObservations => do
    require (result.researchKind = .strategyBacktest) .researchKind
    let rows ← readDailyObservations result.strategyObservations
    return rows.map .observation
  | .terminalPositions => do
    require (result.researchKind = .strategyBacktest) .researchKind
    let rows ← readTerminalPositions result.terminalPositions
    return rows.map .position

/-- A limit that a page of the query can have, with filters that are valid. -/
def SectionQuery.Accepts : SectionQuery → ℕ → Prop
  | .factorPeriods _ _, limit => 1 ≤ limit ∧ limit ≤ 50
  | .factorObservations filter, limit => filter.Valid ∧ 1 ≤ limit ∧ limit ≤ 50
  | _, limit => 1 ≤ limit

/-- Where a row stands in its section. -/
def SectionRow.place : SectionRow D → CommonKey
  | .factorPeriod row => toLex (row.period, toLex ("", ""))
  | .factorDay row => toLex (row.session.text, toLex ("", ""))
  | .common row => commonObservationOrder row
  | .observation row => toLex (row.session.text, toLex ("", ""))
  | .position row => toLex (row.instrumentId, toLex ("", ""))

end Sections

end ThesisTrace.ResearchRun.Results
