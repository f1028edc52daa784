import Mathlib.Data.Prod.Lex
import Mathlib.Data.String.Basic
import ThesisTrace.Library.AsOf
import ThesisTrace.Library.KeyOrder
import ThesisTrace.Library.Transaction

/-!
# Stored financial rows

A financial row states the figures of one report period in one revision, and the session from
which they were available. `readFinancialTable` reads what was available through the last of the
requested sessions, adds a row for the figures on which conflicting rows of one observation agree,
and keeps one row per logical report from before the first of the sessions.
-/

namespace ThesisTrace.FinancialSeries
open Transaction AsOf
open scoped KeyOrder

/-- `YYYYMMDD`, as the year and the rest. Periods sort alike as texts and as the numbers to
which they are cast. -/
abbrev ReportPeriod := Nat ×ₗ Nat

def ReportPeriod.year (period : ReportPeriod) : Nat := (ofLex period).1

def ReportPeriod.monthDay (period : ReportPeriod) : Nat := (ofLex period).2

inductive Endpoint
  | income
  | balancesheet
  | cashflow
  deriving DecidableEq, Repr

/-- `_ENDPOINTS` -/
def Endpoint.all : List Endpoint := [.income, .balancesheet, .cashflow]

inductive FinancialSeriesError
  | requestInvalid
  | fieldUnsupported
  | coverageInvalid
  | sessionInvalid
  | projectionInvalid
  | valueInvalid
  /-- What `Decimal` raises: an amount is no number, or the sum leaves its range. -/
  | decimal
  /-- Sparse history contains an out-of-scope instrument -/
  | outOfScopeInstrument
  deriving DecidableEq, Repr

section Rows
variable {S I V T : Type}

/-- A row of a financial table: all columns are texts. `T` are the texts that are only
compared, `V` the figures. As a session `⊥` is the empty text. -/
@[ext]
structure FinancialRow (S I V T : Type) where
  instrumentId : I
  sourceReportPeriod : ReportPeriod
  sourceReportType : String
  sourceCompanyType : String
  sourceEndType : String
  effectiveAvailableSession : S
  availabilityStatus : String
  firstObservedAt : T
  firstObservedSession : WithBot S
  sourceAvailableSession : WithBot S
  logicalRevisionGroupSha256 : T
  sourcePublishedDate : T
  annDate : Option T
  sourceRowSha256 : T
  updateFlag : Option String
  /-- The source columns. -/
  figure : String → Option V

variable [LinearOrder S] [LinearOrder I] [LinearOrder T]

def FinancialRow.updateOrder (row : FinancialRow S I V T) : Nat :=
  if row.updateFlag = some "1" then 1 else 0

/-- What orders the revisions of a report. A missing announcement date comes last, as a null in
a sorted table and as the text `None` after digits. -/
abbrev RevisionKey (T : Type) := Nat ×ₗ T ×ₗ WithTop T ×ₗ T ×ₗ T

def FinancialRow.revision (row : FinancialRow S I V T) : RevisionKey T :=
  toLex (row.updateOrder, toLex (row.sourcePublishedDate, toLex ((row.annDate : WithTop T),
    toLex (row.firstObservedAt, row.sourceRowSha256))))

/-- `_version_key` -/
def FinancialRow.versionKey (row : FinancialRow S I V T) : S ×ₗ ReportPeriod ×ₗ RevisionKey T :=
  toLex (row.effectiveAvailableSession, toLex (row.sourceReportPeriod, row.revision))

/-! ### The store -/

/-- The tables of a family, as the overlay of their objects leaves them: one row for each digest.
The digest of a logical group covers the instrument. -/
structure FinancialFamily (S I V T : Type) where
  rows : Endpoint → List (FinancialRow S I V T)
  distinct : ∀ endpoint, ((rows endpoint).map FinancialRow.sourceRowSha256).Nodup
  logical : ∀ endpoint, ∀ x ∈ rows endpoint, ∀ y ∈ rows endpoint,
    x.logicalRevisionGroupSha256 = y.logicalRevisionGroupSha256 → x.instrumentId = y.instrumentId
  sourceFields : Endpoint → List String
  researchSessions : List S
  coverageStart : S
  observationThroughSession : S

/-! ### Conflicts -/

/-- `revision_keys` -/
def FinancialRow.publication (row : FinancialRow S I V T) : T × T :=
  (row.logicalRevisionGroupSha256, row.sourcePublishedDate)

/-- `keys`: one observation of a publication. -/
def FinancialRow.observation (row : FinancialRow S I V T) : (T × T) × T :=
  (row.publication, row.firstObservedAt)

/-- A version that contradicts another one of its observation. -/
def FinancialRow.Conflicts (row : FinancialRow S I V T) : Prop :=
  row.availabilityStatus = "quarantined" ∧ row.sourceAvailableSession ≠ ⊥

instance (row : FinancialRow S I V T) : Decidable row.Conflicts :=
  inferInstanceAs (Decidable (_ ∧ _))

/-- The conflicting rows of an observation. -/
def conflictGroup (table : List (FinancialRow S I V T)) (key : (T × T) × T) :
    List (FinancialRow S I V T) :=
  table.filter fun row => row.Conflicts ∧ row.observation = key

/-- The publication has been observed before. -/
def isCorrection (table : List (FinancialRow S I V T)) (key : (T × T) × T) : Bool :=
  table.any fun row => row.publication = key.1 ∧ row.firstObservedAt < key.2

/-- The `min` of a column of a group. -/
def leastOf {κ : Type} [LinearOrder κ] (column : FinancialRow S I V T → κ)
    (first : FinancialRow S I V T) (rest : List (FinancialRow S I V T)) : κ :=
  rest.foldl (fun least row => min least (column row)) (column first)

/-- The order of `min`, which skips nulls. -/
def FinancialRow.announced (row : FinancialRow S I V T) : WithTop T := row.annDate

/-- The order of `max`, which skips nulls. -/
def FinancialRow.flagged (row : FinancialRow S I V T) : (WithBot String)ᵒᵈ :=
  OrderDual.toDual row.updateFlag

/-- From when on a consensus is known: a correction not before it was observed, if the calendar
reaches that. -/
def consensusSession (correction : Bool) : WithBot S → WithBot S → Option S
  | some available, some observed => some (if correction then max available observed else available)
  | some available, none => if correction then none else some available
  | none, _ => none

/-- The figures on which all rows of a group agree, under the least of their other columns. -/
def consensusRow [DecidableEq V] (first : FinancialRow S I V T)
    (rest : List (FinancialRow S I V T)) (effective : S) : FinancialRow S I V T where
  instrumentId := leastOf FinancialRow.instrumentId first rest
  sourceReportPeriod := leastOf FinancialRow.sourceReportPeriod first rest
  sourceReportType := leastOf FinancialRow.sourceReportType first rest
  sourceCompanyType := leastOf FinancialRow.sourceCompanyType first rest
  sourceEndType := leastOf FinancialRow.sourceEndType first rest
  effectiveAvailableSession := effective
  availabilityStatus := "available"
  firstObservedAt := first.firstObservedAt
  firstObservedSession := leastOf FinancialRow.firstObservedSession first rest
  sourceAvailableSession := leastOf FinancialRow.sourceAvailableSession first rest
  logicalRevisionGroupSha256 := first.logicalRevisionGroupSha256
  sourcePublishedDate := first.sourcePublishedDate
  annDate := (leastOf FinancialRow.announced first rest : WithTop T)
  sourceRowSha256 := leastOf FinancialRow.sourceRowSha256 first rest
  updateFlag := (leastOf FinancialRow.flagged first rest).ofDual
  figure := fun column =>
    if ∀ row ∈ rest, row.figure column = first.figure column then first.figure column else none

/-- The row of a group of at least two. -/
def agreeingRow [DecidableEq V] (correction : Bool) :
    List (FinancialRow S I V T) → Option (FinancialRow S I V T)
  | first :: second :: rest =>
    (consensusSession correction (leastOf FinancialRow.sourceAvailableSession first (second :: rest))
      (leastOf FinancialRow.firstObservedSession first (second :: rest))).map
        (consensusRow first (second :: rest))
  | _ => none

/-- The rows of all observations with conflicts. -/
def agreeingRows [DecidableEq V] (table : List (FinancialRow S I V T)) :
    List (FinancialRow S I V T) :=
  (((table.filter fun row => row.Conflicts).map FinancialRow.observation).dedup).filterMap fun key =>
    agreeingRow (isCorrection table key) (conflictGroup table key)

/-- `_project_agreeing_financial_values`. The value columns are the figures that are asked for. -/
def projectAgreeingFinancialValues [DecidableEq V] (table : List (FinancialRow S I V T))
    (throughSession : S) : List (FinancialRow S I V T) :=
  table ++ (agreeingRows table).filter fun row => row.effectiveAvailableSession ≤ throughSession

/-! ### History -/

/-- `_FINANCIAL_HISTORY_IDENTITY_FIELDS` -/
def FinancialRow.identity (row : FinancialRow S I V T) :
    I ×ₗ ReportPeriod ×ₗ String ×ₗ String ×ₗ String ×ₗ String :=
  toLex (row.instrumentId, toLex (row.sourceReportPeriod, toLex (row.sourceReportType,
    toLex (row.sourceCompanyType, toLex (row.sourceEndType, row.availabilityStatus)))))

/-- The order in which `_compact_financial_history` sorts. -/
def FinancialRow.historyKey (row : FinancialRow S I V T) :=
  toLex (row.identity, toLex (row.effectiveAvailableSession, row.revision))

/-- `_compact_financial_history` -/
def compactFinancialHistory (rows : List (FinancialRow S I V T)) (startSession : S) :
    List (FinancialRow S I V T) :=
  let before := rows.filter fun row => row.effectiveAvailableSession < startSession
  let within := rows.filter fun row => startSession ≤ row.effectiveAvailableSession
  lastOfRuns FinancialRow.identity
    (before.mergeSort fun x y => x.historyKey ≤ y.historyKey) ++ within

/-- The order of the rows that `read_financial_table` returns. -/
def FinancialRow.storageKey (row : FinancialRow S I V T) :=
  toLex (row.effectiveAvailableSession, toLex (row.instrumentId, toLex (row.sourceReportPeriod,
    toLex (row.sourceReportType, toLex (row.sourceCompanyType, row.sourceRowSha256)))))

/-- `read_financial_table`, and `read_financial_rows`, which lists its rows. -/
def FinancialFamily.readFinancialTable [DecidableEq V] (family : FinancialFamily S I V T)
    (endpoint : Endpoint) (sourceColumns : List String) (sessions : List S)
    (instrumentIds : List I) : Except FinancialSeriesError (List (FinancialRow S I V T)) := do
  let start ← found sessions.head? .coverageInvalid
  let through ← found sessions.getLast? .coverageInvalid
  require (∀ session ∈ sessions, family.coverageStart ≤ session ∧
    session ≤ family.observationThroughSession) .coverageInvalid
  require (sessions.Pairwise (· < ·) ∧ ∀ session ∈ sessions, session ∈ family.researchSessions)
    .sessionInvalid
  require (∀ column ∈ sourceColumns, column ∈ family.sourceFields endpoint) .projectionInvalid
  let rows := (family.rows endpoint).filter fun row =>
    row.instrumentId ∈ instrumentIds ∧ row.effectiveAvailableSession ≤ through
  let projected := projectAgreeingFinancialValues rows through
  pure ((compactFinancialHistory projected start).mergeSort fun x y => x.storageKey ≤ y.storageKey)

end Rows

end ThesisTrace.FinancialSeries
