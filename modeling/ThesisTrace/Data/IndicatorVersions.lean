import Mathlib.Data.Finset.Sort
import Mathlib.Data.String.Basic
import ThesisTrace.Data.IndicatorCollection
import ThesisTrace.Library.KeyOrder

/-!
# Versions of financial indicators

The observations of an instrument become versions that are aligned with the sessions of a calendar:
a first observation with its disclosure, a later one with the day on which it was made.
-/

namespace ThesisTrace.IndicatorVersions
open Transaction IndicatorCollection KeyOrder

/-! ### Source rows -/

/-- A row as a dictionary, in the order of its columns -/
abbrev SourceRow := List (String × Cell)

def rowOf (fields : List String) (item : List Cell) : SourceRow :=
  sortBy Prod.fst (fields.zip item)

/-- The digest of a row's canonical bytes, without collisions -/
structure RowDigest (D : Type) where
  sha256 : SourceRow → D
  injective : Function.Injective sha256

inductive VersionError
  /-- An observation that `_validate_observation` rejects -/
  | observation (error : CollectionError)
  /-- A `KeyError` of a row -/
  | column
  /-- "Indicator instrument is absent from historical identity" -/
  | absentInstrument
  /-- "Invalid indicator report period" -/
  | reportPeriod
  deriving DecidableEq, Repr

/-- `(code, period, row["ann_date"])` -/
structure VersionKey where
  code : String
  period : String
  announcement : Cell
  deriving DecidableEq, Repr

/-- A source row with the time of its observation and the key that it is grouped by -/
structure Entry (T : Type) where
  key : VersionKey
  observed : T
  row : SourceRow
  deriving DecidableEq

/-- `if code not in instrument_ids` fails for what is no text. -/
def codeOf {I : Type} (instrumentIds : String → Option I) (cell : Cell) :
    Except VersionError String :=
  match cell with
  | .text code => do
    require (instrumentIds code).isSome .absentInstrument
    return code
  | _ => .error .absentInstrument

def keyOf {I : Type} (instrumentIds : String → Option I) (row : SourceRow) :
    Except VersionError VersionKey := do
  let code ← codeOf instrumentIds (← found (row.lookup "ts_code") .column)
  let period ← found (row.lookup "end_date") .column
  require (CalendarDate.isCompact period.str) .reportPeriod
  let announcement ← found (row.lookup "ann_date") .column
  return ⟨code, period.str, announcement⟩

def entriesOf {I T : Type} (instrumentIds : String → Option I) (observation : Observation T) :
    Except VersionError (List (Entry T)) := do
  (validateObservation observation).mapError .observation
  observation.items.mapM fun item => do
    let row := rowOf observation.fields item
    return ⟨← keyOf instrumentIds row, observation.observedAt, row⟩

/-! ### States -/

inductive AvailabilityStatus
  | available
  | invalidAnnouncement
  | missingAnnouncement
  | conflictingObservation
  | outsideCalendar
  deriving DecidableEq, Repr

/-- `str(row.get("update_flag") or "")` -/
def flagText (row : SourceRow) : String :=
  match row.lookup "update_flag" with
  | none | some .null | some (.number 0) => ""
  | some cell => cell.str

/-- `_preferred_indicator_rows` -/
def preferredIndicatorRows {D : Type} [DecidableEq D] (digests : Finset D)
    (rowsByDigest : D → SourceRow) : Finset D :=
  let latest := digests.filter fun digest => flagText (rowsByDigest digest) = "1"
  if latest.Nonempty then latest else digests

/-- The date of an announcement that is written as the source writes dates -/
def announcementDate (announcement : Cell) : Option CalendarDate :=
  (CalendarDate.strptime announcement.str).filter fun published =>
    announcement = .text published.compactText

/-- The status of a state of `count` rows, before the calendar is asked -/
def announcedStatus (key : VersionKey) (count : ℕ) : AvailabilityStatus :=
  match announcementDate key.announcement, CalendarDate.strptime key.period with
  | some published, some period =>
    if published < period then .invalidAnnouncement
    else if 1 < count then .conflictingObservation
    else .available
  | _, _ => .missingAnnouncement

def bisectRight (calendar : List CalendarDate) (cutoff : CalendarDate) : ℕ :=
  (calendar.takeWhile (· ≤ cutoff)).length

/-- The first day on which a state of a key could be known: its disclosure, and for a state that is
not the first one the day of its observation -/
def cutoffOf (published observedDay : CalendarDate) (index : ℕ) : CalendarDate :=
  if index = 0 then published else max published observedDay

/-- The status of a state and the session from which it is effective -/
def align (calendar : List CalendarDate) (key : VersionKey) (count index : ℕ)
    (observedDay : CalendarDate) : AvailabilityStatus × Option CalendarDate :=
  let status := announcedStatus key count
  if status = .available ∨ status = .conflictingObservation then
    match announcementDate key.announcement with
    | none => (status, none)
    | some published =>
      match calendar[bisectRight calendar (cutoffOf published observedDay index)]? with
      | some session => (status, some session)
      | none => (.outsideCalendar, none)
  else (status, none)

structure IndicatorVersion (I T D : Type) where
  row : SourceRow
  instrumentId : Option I
  sourceReportPeriod : String
  sourcePublishedDate : Cell
  sourceRowSha256 : D
  firstObservedAt : Option T
  observationEventAt : T
  stateEffectiveSession : Option CalendarDate
  effectiveAvailableSession : Option CalendarDate
  availabilityStatus : AvailabilityStatus
  deriving DecidableEq

section Projection

variable {I T D : Type} [LinearOrder I] [LinearOrder T] [LinearOrder D] (digest : RowDigest D)
  (shanghaiDate : T → CalendarDate) (calendar : List CalendarDate)
  (instrumentIds : String → Option I)

/-- `rows_by_digest[digest]` -/
def rowByDigest (entries : List (Entry T)) (sha256 : D) : SourceRow :=
  ((entries.find? fun entry => digest.sha256 entry.row = sha256).map Entry.row).getD []

/-- `grouped[key][observed]` -/
def digestsAt (entries : List (Entry T)) (key : VersionKey) (observed : T) : Finset D :=
  ((entries.filter fun entry => entry.key = key ∧ entry.observed = observed).map fun entry =>
    digest.sha256 entry.row).toFinset

/-- `sorted(by_time)` -/
def timesOf (entries : List (Entry T)) (key : VersionKey) : List T :=
  (((entries.filter fun entry => entry.key = key).map Entry.observed).toFinset).sort

/-- `earliest.setdefault(digest, observed)` for every digest of an observation -/
def setEarliest (earliest : D → Option T) (observedValues : Finset D) (observed : T) :
    D → Option T :=
  fun sha256 => if sha256 ∈ observedValues then (earliest sha256).or (some observed)
    else earliest sha256

/-- A row of a state -/
def versionOf (rowsByDigest : D → SourceRow) (key : VersionKey) (earliest : D → Option T)
    (observed : T) (aligned : AvailabilityStatus × Option CalendarDate) (sha256 : D) :
    IndicatorVersion I T D where
  row := rowsByDigest sha256
  instrumentId := instrumentIds key.code
  sourceReportPeriod := key.period
  sourcePublishedDate := key.announcement
  sourceRowSha256 := sha256
  firstObservedAt := earliest sha256
  observationEventAt := observed
  stateEffectiveSession := aligned.2
  effectiveAvailableSession := if aligned.1 = .available then aligned.2 else none
  availabilityStatus := aligned.1

/-- The loop over the times of a key, from an index on -/
def timeline (observedAt : T → Finset D) (rowsByDigest : D → SourceRow) (key : VersionKey) :
    ℕ → (D → Option T) → Option (Finset D) → List T → List (IndicatorVersion I T D)
  | _, _, _, [] => []
  | index, earliest, previousState, observed :: times =>
    let observedValues := observedAt observed
    let earliest := setEarliest earliest observedValues observed
    let values := preferredIndicatorRows observedValues rowsByDigest
    if some values = previousState then
      timeline observedAt rowsByDigest key (index + 1) earliest previousState times
    else
      let aligned := align calendar key values.card index (shanghaiDate observed)
      values.sort.map (versionOf instrumentIds rowsByDigest key earliest observed aligned) ++
        timeline observedAt rowsByDigest key (index + 1) earliest (some values) times

def versionsOfKey (entries : List (Entry T)) (key : VersionKey) : List (IndicatorVersion I T D) :=
  timeline shanghaiDate calendar instrumentIds (digestsAt digest entries key)
    (rowByDigest digest entries) key 0 (fun _ => none) none (timesOf entries key)

/-- `(instrument_id, source_report_period, observation_event_at, source_row_sha256)` -/
def IndicatorVersion.sortKey (version : IndicatorVersion I T D) :
    WithBot I ×ₗ String ×ₗ T ×ₗ D :=
  toLex (version.instrumentId, toLex (version.sourceReportPeriod,
    toLex (version.observationEventAt, version.sourceRowSha256)))

def projectEntries (entries : List (Entry T)) : List (IndicatorVersion I T D) :=
  sortBy IndicatorVersion.sortKey ((entries.map Entry.key).dedup.flatMap
    (versionsOfKey digest shanghaiDate calendar instrumentIds entries))

/-- `IndicatorVersionProjector.project` -/
def project (observations : List (Observation T)) :
    Except VersionError (List (IndicatorVersion I T D)) := do
  let entries ← observations.mapM (entriesOf instrumentIds)
  return projectEntries digest shanghaiDate calendar instrumentIds entries.flatten

end Projection

end ThesisTrace.IndicatorVersions
