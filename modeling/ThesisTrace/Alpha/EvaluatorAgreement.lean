import ThesisTrace.Alpha.RowRefinement
import ThesisTrace.Alpha.Rounding

/-!
# Both evaluators compute the same cells

Where binary64 represents the integers that `if_else` hands on, the row evaluators and the columnar
evaluator agree on every cell. The columnar evaluator reads no released buffer in any case.
-/

namespace ThesisTrace.Alpha
open Numeric Transaction Dataflow

variable {F : Type} [Numeric F]

/-! ### Cells -/

/-- The values of the row evaluator. -/
def rowValues (rows : List (InstrumentId × Series (Item F))) : List (List (Option ℚ)) :=
  rows.map fun row => row.2.map (Option.map Item.value)

/-- The values of the columnar evaluator; what is not finite is missing. -/
def columnarValues (grid : Grid F) : List (List (Option ℚ)) :=
  grid.map (List.map fun value => (finite value).map toRat)

variable [DecidableEq F]

/-- Both evaluators compute the plan, with the same values and the same missing cells. -/
def SameCells (plan : SeriesExecutionPlan F) (panel : Panel F) : Prop :=
  ∃ rows grid, evaluateSeriesExecutionMatrix plan panel.matrixInputs = .ok rows
    ∧ evaluateColumnarExecutionMatrix plan panel.columnarInputs = .ok grid
    ∧ rows.map Prod.fst = panel.instruments
    ∧ rowValues rows = columnarValues grid

/-- No step of the columnar evaluator reads a released buffer. -/
def ReadsLiveBuffers (plan : SeriesExecutionPlan F) (panel : Panel F) : Prop :=
  let shared := share plan.nodes
  ∀ common, panel.columnarInputs.commonValues shared.nodes = .ok common →
    ReadsLive (applyColumnar panel.columnarInputs common) (shared.remapped.getD plan.root 0)
      shared.nodes

omit [DecidableEq F] in
lemma stands_map_value {I : ℤ → Prop} (hI : ∀ n, I n → Representable F n)
    {items : Series (Item F)} {series : Series F} (h : SeriesStands I items series) :
    items.map (Option.map Item.value) = series.map (Option.map toRat) := by
  refine forall₂_map_eq ?_ h
  intro item x hcell
  cases hcell with
  | missing => rfl
  | float _ => rfl
  | int _ hmember => exact congrArg some (hI _ hmember).1.symm

omit [DecidableEq F] in
lemma rowValues_eq {I : ℤ → Prop} (hI : ∀ n, I n → Representable F n)
    {instruments : List InstrumentId} {rows : List (InstrumentId × Series (Item F))}
    {cells : InstrumentId → List F}
    (h : List.Forall₂ (fun instrument row => row.1 = instrument
      ∧ SeriesStands I row.2 ((cells instrument).map finite)) instruments rows) :
    rows.map Prod.fst = instruments ∧ rowValues rows = columnarValues (instruments.map cells) := by
  have hrows := h.flip
  constructor
  · rw [forall₂_map_eq (g := id) (fun row instrument hrow => hrow.1) hrows, List.map_id]
  · unfold rowValues columnarValues
    rw [List.map_map]
    refine forall₂_map_eq ?_ hrows
    intro row instrument hrow
    rw [stands_map_value hI hrow.2, List.map_map]
    rfl

/-- The evaluators agree where the integers that are handed on are exact. -/
lemma sameCells_of_exact {parsed : ParsedAlpha F} {type : ValueType}
    (typed : parsed.expression.Typed type) (hexact : parsed.expression.IntegersExact)
    (panel : Panel F) (hmarket : parsed.expression.usesCommon = true → panel.MarketCovered) :
    SameCells (buildSeriesExecutionPlan parsed) panel := by
  obtain ⟨hgrid, _⟩ := evaluateColumnarExecutionMatrix_eq panel typed hmarket
  obtain ⟨rows, hrows, hstands⟩ := evaluateSeriesExecutionMatrix_stands panel typed hexact hmarket
  obtain ⟨hinstruments, hvalues⟩ := rowValues_eq hexact.carried hstands
  exact ⟨rows, _, hrows, hgrid, hinstruments, hvalues⟩

/-- The evaluators agree where the integers that are handed on are exact, and the columnar one
never reads a released buffer. -/
theorem columnar_evaluation_refines_rows {fieldBindings : FieldBindings}
    {expression : FormulaNode F} {parsed : ParsedAlpha F}
    (hparsed : validateNormalizedAlpha fieldBindings expression = .ok parsed) (panel : Panel F)
    (hmarket : parsed.expression.usesCommon = true → panel.MarketCovered) :
    ReadsLiveBuffers (buildSeriesExecutionPlan parsed) panel
      ∧ (parsed.expression.IntegersExact →
        SameCells (buildSeriesExecutionPlan parsed) panel) := by
  have typed := (validateNormalizedAlpha_sound hparsed).1
  obtain ⟨_, hlive⟩ := evaluateColumnarExecutionMatrix_eq panel typed hmarket
  exact ⟨hlive, fun hexact => sameCells_of_exact typed hexact panel hmarket⟩

/-! ### One session -/

/-- One instrument with a Close on one session. -/
def closePanel (close : ℚ) : Panel Binary53 where
  sessions := ["2024-01-02"]
  sessionsOrdered := by decide
  instruments := ["000001.SZ"]
  instrumentsUnique := by decide
  fields _ _ _ := some (some close)
  windows := []
  universeMembers _ := ["000001.SZ"]
  universeCovered := by simp
  historicalUniverseMembers _ := ["000001.SZ"]
  industries _ _ := none
  rollingSum := exactSum

def closeBindings : FieldBindings := AList.singleton closeFieldId "close"

/-- `if_else(close > 0, value, 0)`. -/
def whereTraded (value : ℤ) : FormulaNode Binary53 :=
  .call "if_else" [.binary "gt" (.field closeFieldId) (.number (some (.int 0))),
    .number (some (.int value)), .number (some (.int 0))]

/-- The difference of two branches that are integers. -/
def branchDifference (left right : ℤ) : FormulaNode Binary53 :=
  .binary "subtract" (whereTraded left) (whereTraded right)

lemma representable_branches {value n : ℤ} (hvalue : Representable Binary53 value)
    (hcarried : (Expr.ifElse (.binary .gt (.field closeFieldId) (.number (.int 0)))
      (.number (.int value)) (.number (.int 0)) : Expr Binary53).carried n) :
    Representable Binary53 n := by
  have hzero : Representable Binary53 0 := ⟨by decide +kernel, by decide +kernel⟩
  rcases hcarried with (hfalse | rfl) | (hfalse | rfl)
  · exact hfalse.elim
  · exact hvalue
  · exact hfalse.elim
  · exact hzero

theorem columnar_evaluation_refines_rows_small :
    ∃ parsed, validateNormalizedAlpha closeBindings (branchDifference 3 2) = .ok parsed
      ∧ ReadsLiveBuffers (buildSeriesExecutionPlan parsed) (closePanel 1)
      ∧ SameCells (buildSeriesExecutionPlan parsed) (closePanel 1) := by
  have hthree : Representable Binary53 3 := ⟨by decide +kernel, by decide +kernel⟩
  have htwo : Representable Binary53 2 := ⟨by decide +kernel, by decide +kernel⟩
  have hexpression : ((validateNormalizedAlpha closeBindings (branchDifference 3 2)).map
      ParsedAlpha.expression).toOption
      = some (.binary .subtract
        (.ifElse (.binary .gt (.field closeFieldId) (.number (.int 0))) (.number (.int 3))
          (.number (.int 0)))
        (.ifElse (.binary .gt (.field closeFieldId) (.number (.int 0))) (.number (.int 2))
          (.number (.int 0)))) :=
    rfl
  cases hparsed : validateNormalizedAlpha closeBindings (branchDifference 3 2) with
  | error issue =>
    rw [hparsed] at hexpression
    cases hexpression
  | ok parsed =>
    rw [hparsed] at hexpression
    replace hexpression := Option.some.inj hexpression
    have hmarket : parsed.expression.usesCommon = false := by
      rw [hexpression]
      rfl
    have hexact : parsed.expression.IntegersExact := by
      rw [hexpression]
      exact ⟨⟨⟨trivial, trivial⟩, trivial, trivial, fun n => representable_branches hthree⟩,
        ⟨⟨trivial, trivial⟩, trivial, trivial, fun n => representable_branches htwo⟩⟩
    obtain ⟨hlive, hsame⟩ := columnar_evaluation_refines_rows hparsed (closePanel 1)
      fun hcommon => absurd (hmarket.symm.trans hcommon) Bool.false_ne_true
    exact ⟨parsed, rfl, hlive, hsame hexact⟩

/-- The row evaluator subtracts two integers that are one number in binary64. -/
theorem not_columnar_evaluation_refines_rows :
    ∃ parsed, validateNormalizedAlpha closeBindings
        (branchDifference 9007199254740993 9007199254740992) = .ok parsed
      ∧ ¬SameCells (buildSeriesExecutionPlan parsed) (closePanel 1) := by
  have hvalues : (do
        let parsed ← (validateNormalizedAlpha closeBindings
          (branchDifference 9007199254740993 9007199254740992)).toOption
        let plan := buildSeriesExecutionPlan parsed
        let rows ← (evaluateSeriesExecutionMatrix plan (closePanel 1).matrixInputs).toOption
        let grid ← (evaluateColumnarExecutionMatrix plan (closePanel 1).columnarInputs).toOption
        return (rowValues rows, columnarValues grid))
      = some ([[some 1]], [[some 0]]) := by
    decide +kernel
  cases hparsed : validateNormalizedAlpha closeBindings
      (branchDifference 9007199254740993 9007199254740992) with
  | error issue =>
    rw [hparsed] at hvalues
    cases hvalues
  | ok parsed =>
    refine ⟨parsed, rfl, ?_⟩
    rintro ⟨rows, grid, hrows, hgrid, _, hsame⟩
    simp only [hparsed, Except.toOption, hrows, hgrid, Option.bind_eq_bind, Option.bind_some,
      Option.pure_def, Option.some.injEq, Prod.mk.injEq] at hvalues
    rw [hvalues.1, hvalues.2] at hsame
    cases hsame

end ThesisTrace.Alpha
