import ThesisTrace.Evidence.EventPages
import ThesisTrace.Library.Slices
import ThesisTrace.Library.Transaction

/-!
# Daily holding pages

Daily holdings are published in partitions of at most 512 rows, ordered by session and instrument.
A page read scans at most eight of the partitions that its filters and cursor leave. It stops
collecting at its row limit; when the partition bound ends it, the page may have no row and still
carry the key of the last partition that it scanned.
-/

namespace ThesisTrace.Evidence
open Pagination Transaction

/-! ### Rows -/

structure HoldingRow where
  session : Session
  instrumentId : String
  executionShares : ℕ
  adjustedUnits : String
  adjustedMark : String
  marketValueCny : String
  weight : ℚ
deriving DecidableEq

abbrev HoldingKey := Lex (Session × String)

def holdingKey (row : HoldingRow) : HoldingKey := toLex (row.session, row.instrumentId)

def HoldingKey.session (key : HoldingKey) : Session := (ofLex key).1

def holdingPartitionRows : ℕ := 512

inductive HoldingError where
  /-- "Daily holding partition size is invalid" -/
  | partitionSize
  /-- "Daily holding rows must be ordered and unique" -/
  | rowOrder
  /-- "Daily holding coverage must be ordered and unique" -/
  | coverageOrder
  /-- "Daily holding segments overlap" -/
  | segmentsOverlap
  /-- "Daily holding row is outside coverage" -/
  | outsideCoverage
  /-- "Daily holding rows overlap" -/
  | rowsOverlap
  /-- "Daily holding publication has no Session coverage" -/
  | noCoverage
  /-- "Daily holding coverage is invalid" -/
  | coverageInvalid
  /-- "Daily holding partition descriptor is invalid" -/
  | partitionDescriptor
  /-- "Daily holding partitions overlap" -/
  | partitionsOverlap
  /-- The payload of a partition is missing. -/
  | payload
  /-- "Daily holding partition bounds differ from its rows" -/
  | partitionBounds
deriving DecidableEq, Repr

def validatedHoldingRows (rows : List HoldingRow) : Except HoldingError (List HoldingRow) := do
  require (1 ≤ rows.length ∧ rows.length ≤ holdingPartitionRows) .partitionSize
  require (rows.Pairwise fun a b => holdingKey a < holdingKey b) .rowOrder
  pure rows

/-! ### Publication -/

/-- The descriptor of a partition. Its name is the text of its index. -/
structure HoldingPart where
  index : ℕ
  rowCount : ℕ
  first : HoldingKey
  last : HoldingKey

/-- `HoldingEvidencePublication`: the coverage, the descriptors and the rows of the partitions,
which are named in the order in which they are added. -/
structure HoldingEvidence where
  sessions : List Session
  parts : List HoldingPart
  payloads : List (List HoldingRow)

def HoldingEvidence.empty : HoldingEvidence := ⟨[], [], []⟩

/-- `rows[start:start + HOLDING_PARTITION_ROWS]` for every start. -/
def holdingPartitions (rows : List HoldingRow) : List (List HoldingRow) :=
  (List.range (Slices.count holdingPartitionRows rows)).map (Slices.slice holdingPartitionRows rows)

/-- A round of the validating loop, with the last key of the partition before. -/
def validatePartition (previous : Option HoldingKey) (rows : List HoldingRow) :
    Except HoldingError (Option HoldingKey) := do
  let values ← validatedHoldingRows rows
  require (∀ p ∈ previous, ∀ row ∈ values.head?, p < holdingKey row) .rowsOverlap
  pure (values.getLast?.map holdingKey)

/-- A round of the adding loop. -/
def addPartition (evidence : HoldingEvidence) (rows : List HoldingRow) :
    Except HoldingError HoldingEvidence := do
  let values ← validatedHoldingRows rows
  let first ← found values.head? .partitionSize
  let last ← found values.getLast? .partitionSize
  pure { evidence with
    parts := evidence.parts ++
      [⟨evidence.parts.length, values.length, holdingKey first, holdingKey last⟩]
    payloads := evidence.payloads ++ [values] }

def addSegment (evidence : HoldingEvidence) (sessions : List Session) (rows : List HoldingRow) :
    Except HoldingError HoldingEvidence := do
  require (sessions ≠ [] ∧ sessions.Pairwise (· < ·)) .coverageOrder
  require (∀ last ∈ evidence.sessions.getLast?, ∀ first ∈ sessions.head?, last < first)
    .segmentsOverlap
  require (∀ row ∈ rows, row.session ∈ sessions) .outsideCoverage
  let _ ← (holdingPartitions rows).foldlM validatePartition none
  let evidence ← (holdingPartitions rows).foldlM addPartition evidence
  pure { evidence with sessions := evidence.sessions ++ sessions }

def finish (evidence : HoldingEvidence) : Except HoldingError HoldingEvidence := do
  require (evidence.sessions ≠ []) .noCoverage
  pure evidence

/-- The evidence that a Run or Track publishes for its segments. -/
def publishHoldings (segments : List (List Session × List HoldingRow)) :
    Except HoldingError HoldingEvidence :=
  segments.foldlM (fun evidence segment => addSegment evidence segment.1 segment.2) .empty >>=
    finish

/-! ### Queries -/

def maxHoldingPageLimit : ℕ := 50

structure HoldingPageLimit where
  value : ℕ
  pos : 0 < value
  le : value ≤ maxHoldingPageLimit

structure HoldingFilters where
  startSession : Option Session
  endSession : Option Session
  instrumentId : Option String

structure HoldingCoverage where
  firstSession : Option Session
  lastSession : Option Session
  sessionCount : ℕ
deriving DecidableEq, Repr

structure HoldingDetailsPage where
  coverage : HoldingCoverage
  rows : List HoldingRow
  nextAfter : Option HoldingKey

def holdingPagePartitions : ℕ := 8

/-- A session within the dates of the filters. -/
def HoldingFilters.covers (filters : HoldingFilters) (session : Session) : Bool :=
  (filters.startSession.all fun start => decide (start ≤ session)) &&
  filters.endSession.all fun stop => decide (session ≤ stop)

/-! ### Reading one page -/

section Read

variable (evidence : HoldingEvidence) (filters : HoldingFilters) (limit : ℕ)
  (boundary : Option HoldingKey)

def selectedSessions : List Session := evidence.sessions.filter filters.covers

def rowMatches (row : HoldingRow) : Bool :=
  decide (row.session ∈ selectedSessions evidence filters) &&
  filters.instrumentId.all fun instrument => decide (row.instrumentId = instrument)

/-- The rows of one partition; the loop ends with the first row beyond the limit. -/
def scanHoldingRows : List HoldingRow → List HoldingRow → List HoldingRow
  | [], rows => rows
  | row :: values, rows =>
    if wanted holdingKey (rowMatches evidence filters) boundary row then
      if limit < (rows ++ [row]).length then rows ++ [row]
      else scanHoldingRows values (rows ++ [row])
    else scanHoldingRows values rows

structure HoldingScan where
  rows : List HoldingRow
  previous : Option HoldingKey
  scannedParts : ℕ
  lastScanned : Option HoldingKey
  scanIncomplete : Bool

def HoldingScan.start : HoldingScan := ⟨[], none, 0, none, false⟩

/-- A partition without a row for the page, or after the page is full. -/
def skipsPart (rows : List HoldingRow) (part : HoldingPart) : Bool :=
  match (selectedSessions evidence filters).head?,
    (selectedSessions evidence filters).getLast? with
  | some lowest, some highest =>
    decide (HoldingKey.session part.last < lowest) ||
    decide (highest < HoldingKey.session part.first) ||
    (boundary.any fun b => decide (part.last ≤ b)) ||
    decide (limit < rows.length)
  | _, _ => true

/-- One round of the loop over the partition descriptors. -/
def scanPart (scan : HoldingScan) (entry : HoldingPart × ℕ) : Except HoldingError HoldingScan := do
  let part := entry.1
  require (part.index = entry.2 ∧ 1 ≤ part.rowCount ∧ part.rowCount ≤ holdingPartitionRows)
    .partitionDescriptor
  require (part.first ≤ part.last ∧ ∀ previous ∈ scan.previous, previous < part.first)
    .partitionsOverlap
  if skipsPart evidence filters limit boundary scan.rows part then
    pure { scan with previous := some part.last }
  else if holdingPagePartitions ≤ scan.scannedParts then
    pure { scan with previous := some part.last, scanIncomplete := true }
  else
    let payload ← found evidence.payloads[part.index]? .payload
    let values ← validatedHoldingRows payload
    require (values.length = part.rowCount ∧ values.head?.map holdingKey = some part.first ∧
      values.getLast?.map holdingKey = some part.last ∧
      ∀ row ∈ values, row.session ∈ evidence.sessions) .partitionBounds
    pure {
      rows := scanHoldingRows evidence filters limit boundary values scan.rows
      previous := some part.last
      scannedParts := scan.scannedParts + 1
      lastScanned := some part.last
      scanIncomplete := scan.scanIncomplete }

/-- The rows and the cursor of a finished scan. -/
def HoldingScan.page (scan : HoldingScan) : Page HoldingKey HoldingRow where
  rows := scan.rows.take limit
  next :=
    if limit < scan.rows.length then scan.rows[limit - 1]?.map holdingKey
    else if scan.scanIncomplete then scan.lastScanned
    else none

def readHoldingPage : Except HoldingError HoldingDetailsPage := do
  require (evidence.sessions ≠ [] ∧ evidence.sessions.Pairwise (· < ·)) .coverageInvalid
  let selected := selectedSessions evidence filters
  let scan ← evidence.parts.zipIdx.foldlM (scanPart evidence filters limit boundary) .start
  pure {
    coverage := ⟨selected.head?, selected.getLast?, selected.length⟩
    rows := (scan.page limit).rows
    nextAfter := (scan.page limit).next }

end Read

/-- The dates lie after or before the unit, whose metadata has the ends of its coverage. -/
def outsideUnit (evidence : HoldingEvidence) (filters : HoldingFilters) : Bool :=
  (filters.startSession.any fun start =>
    evidence.sessions.getLast?.any fun last => decide (last < start)) ||
  filters.endSession.any fun stop =>
    evidence.sessions.head?.any fun first => decide (stop < first)

/-- The response about an available unit. Dates outside it are answered without a read. -/
def holdingQueryResponse (evidence : HoldingEvidence) (filters : HoldingFilters)
    (limit : HoldingPageLimit) (cursor : Option HoldingKey) :
    Except HoldingError HoldingDetailsPage :=
  if outsideUnit evidence filters then .ok ⟨⟨none, none, 0⟩, [], none⟩
  else readHoldingPage evidence filters limit.value cursor

/-- One request for a page of daily holdings. -/
def holdingPage (evidence : HoldingEvidence) (filters : HoldingFilters) (limit : HoldingPageLimit)
    (cursor : Option HoldingKey) : Except HoldingError (Page HoldingKey HoldingRow) :=
  (holdingQueryResponse evidence filters limit cursor).map fun page => ⟨page.rows, page.nextAfter⟩

end ThesisTrace.Evidence
