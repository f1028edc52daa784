import Mathlib.Data.Prod.Lex
import Mathlib.Data.String.Basic
import ThesisTrace.Library.Pagination

/-!
# Strategy event pages

A recorded event section is a list of verified partitions, whose rows are ordered by session and
event id. A page read scans the partitions that its filters and cursor leave, within a partition
budget, and stops at its row limit. The response keeps the largest prefix that fits its bytes.
-/

namespace ThesisTrace.Evidence
open Pagination

/-- A trading date. -/
abbrev Session := Nat

/-! ### Rows and partitions -/

inductive EventSection
  | historyReads
  | framework
  | targets
  | orders
  | childOrders
  | fills
  | adjustments
  | executionConstraints
  deriving DecidableEq, Repr

/-- What a page query reads of an event row. -/
structure EventRow where
  session : Session
  eventId : String
  /-- The instruments of a target or framework decision. -/
  instrumentIds : List String
  /-- `row.get(key)` of the text fields. -/
  field : String → Option String

/-- `event_order`: the session, then the event id. -/
abbrev EventKey := Lex (Session × String)

def eventOrder (row : EventRow) : EventKey := toLex (row.session, row.eventId)

def eventPartitionRows : ℕ := 512

/-- A partition that `validated_event_rows` accepts. -/
structure EventPartition where
  rows : List EventRow
  nonempty : rows ≠ []
  bounded : rows.length ≤ eventPartitionRows
  ordered : rows.Pairwise fun a b => eventOrder a < eventOrder b

namespace EventPartition

/-- The declared bounds, which equal those of the rows. -/
def first (part : EventPartition) : EventKey := eventOrder (part.rows.head part.nonempty)

def last (part : EventPartition) : EventKey := eventOrder (part.rows.getLast part.nonempty)

end EventPartition

def EventKey.session (key : EventKey) : Session := (ofLex key).1

/-- The partitions of one section, as `event_partition_descriptors` accepts them. -/
structure EventPartitions where
  parts : List EventPartition
  ordered : parts.Pairwise fun a b => a.last < b.first

def EventPartitions.rows (partitions : EventPartitions) : List EventRow :=
  partitions.parts.flatMap EventPartition.rows

/-! ### Queries -/

structure EventFilters where
  startSession : Option Session
  endSession : Option Session
  instrumentId : Option String
  /-- The identity filters of the section, such as `order_id`. -/
  identities : List (String × Option String)

def eventMatches (row : EventRow) (section_ : EventSection) (filters : EventFilters) : Bool :=
  !(filters.startSession.any fun start => decide (row.session < start)) &&
  !(filters.endSession.any fun stop => decide (stop < row.session)) &&
  (filters.instrumentId.all fun instrument =>
    match section_ with
    | .targets | .framework => decide (instrument ∈ row.instrumentIds)
    | _ => decide (row.field "instrument_id" = some instrument)) &&
  filters.identities.all fun (key, value) => value.all fun id => decide (row.field key = some id)

def maxEventPageLimit : ℕ := 50

structure EventPageLimit where
  value : ℕ
  pos : 0 < value
  le : value ≤ maxEventPageLimit

structure StrategyEventQuery where
  filters : EventFilters
  limit : ℕ

inductive EvidenceStatus
  | recorded
  | notRecorded
  | expired
  | partiallyExpired
  deriving DecidableEq, Repr

structure StrategyEventPageRead where
  status : EvidenceStatus
  rows : List EventRow
  nextAfter : Option EventKey

inductive EventReadError
  | partitionBudgetUnavailable
  | pageCapacity
  | statusInvalid
  deriving DecidableEq, Repr

/-! ### Reading one page -/

section Read

variable (section_ : EventSection) (query : StrategyEventQuery) (boundary : Option EventKey)

/-- A row that the page may return. -/
def selected (row : EventRow) : Bool :=
  after eventOrder boundary row && eventMatches row section_ query.filters

/-- The rows of one partition; `.error` is the page that the row limit ends. -/
def scanRows : List EventRow → List EventRow → Except StrategyEventPageRead (List EventRow)
  | [], rows => .ok rows
  | row :: values, rows =>
    if selected section_ query boundary row then
      let rows := rows ++ [row]
      if query.limit < rows.length then
        .error ⟨.recorded, rows.take query.limit, rows[query.limit - 1]?.map eventOrder⟩
      else scanRows values rows
    else scanRows values rows

/-- The loop over the partitions, with the partitions left in the budget, the last key scanned and
the rows found so far. -/
def scanPartitions :
    List EventPartition → ℕ → Option EventKey → List EventRow →
      Except EventReadError (StrategyEventPageRead × ℕ)
  | [], budget, _, rows => .ok (⟨.recorded, rows, none⟩, budget)
  | part :: parts, budget, lastScanned, rows =>
    if boundary.any fun b => decide (part.last ≤ b) then
      scanPartitions parts budget lastScanned rows
    else if query.filters.startSession.any fun start => decide (part.last.session < start) then
      scanPartitions parts budget lastScanned rows
    else if query.filters.endSession.any fun stop => decide (stop < part.first.session) then
      .ok (⟨.recorded, rows, none⟩, budget)
    else
      match budget with
      | 0 =>
        match lastScanned with
        | none => .error .partitionBudgetUnavailable
        | some key => .ok (⟨.recorded, rows, some key⟩, 0)
      | budget + 1 =>
        match scanRows section_ query boundary part.rows rows with
        | .error page => .ok (page, budget)
        | .ok rows => scanPartitions parts budget (some part.last) rows

/-- `read_strategy_event_page`, with the partition budget left afterwards; `none` is a section
that the publication does not record. -/
def readStrategyEventPage (partitions : Option EventPartitions) (partitionsLeft : ℕ) :
    Except EventReadError (StrategyEventPageRead × ℕ) :=
  match partitions with
  | none => .ok (⟨.notRecorded, [], none⟩, partitionsLeft)
  | some partitions =>
    scanPartitions section_ query boundary partitions.parts partitionsLeft boundary []

end Read

/-! ### Fitting a response -/

/-- The largest fitting prefix, and at least one record unless there is none. -/
def fitPage {Record : Type*} (fits : List Record → Bool) (records : List Record) :
    Option (List Record) :=
  let minimum := if records = [] then 0 else 1
  ((List.range' minimum (records.length + 1 - minimum)).reverse.map records.take).find? fits

/-- The response to a page read, which moves its cursor back to the last row that fits. -/
def strategyEventResponse (fits : Page EventKey EventRow → Bool) (read : StrategyEventPageRead) :
    Except EventReadError (Page EventKey EventRow) :=
  let build (rows : List EventRow) : Page EventKey EventRow :=
    ⟨rows, if rows.length < read.rows.length then rows.getLast?.map eventOrder
      else read.nextAfter⟩
  match fitPage (fun rows => fits (build rows)) read.rows with
  | none => .error .pageCapacity
  | some rows => .ok (build rows)

/-- One request for a page of a recorded section. -/
def eventPage (section_ : EventSection) (filters : EventFilters) (limit : EventPageLimit)
    (partitions : EventPartitions) (partitionsLeft : ℕ)
    (fits : Page EventKey EventRow → Bool) (cursor : Option EventKey) :
    Except EventReadError (Page EventKey EventRow) :=
  match readStrategyEventPage section_ ⟨filters, limit.value⟩ cursor (some partitions)
    partitionsLeft with
  | .error error => .error error
  | .ok (read, _) => strategyEventResponse fits read

end ThesisTrace.Evidence
