import ThesisTrace.Alpha.RowShapes

/-!
# Account exposures

An exposure is an expression over literals and common inputs. It is evaluated once for the account,
so no stock series may reach it.
-/

namespace ThesisTrace.Alpha
open Numeric Transaction Dataflow

variable {F : Type} [Numeric F]

/-- `{CLOSE_FIELD_ID: "close"}`. -/
def exposureBindings : FieldBindings := AList.singleton closeFieldId "close"

def validateNormalizedExposure (expression : FormulaNode F) :
    Except AlphaValidationError (ParsedAlpha F) :=
  validateNormalizedExpression exposureBindings expression [.number, .commonNumericSeries]

/-- A node that reads the series of a stock. -/
def PlanOp.isStock : PlanOp F → Bool
  | .field _ => true
  | .builtin .rank => true
  | _ => false

inductive CommonEvaluationError
  /-- "Account expressions cannot consume stock series". -/
  | stockSeries
  | evaluation (error : EvaluationError)
  deriving DecidableEq, Repr

/-- The market that the common inputs of an account aggregate. -/
structure AccountInputs (F : Type) [Numeric F] where
  sessions : List Session
  instruments : List InstrumentId
  closes : Grid F
  universeMembers : Session → List InstrumentId
  industries : Session → InstrumentId → Option String
  rollingSum : RollingSum F

def AccountInputs.commonValues (inputs : AccountInputs F) (nodes : List (SeriesPlanNode F)) :
    Except EvaluationError (List (CommonKey × List F)) :=
  Alpha.commonValues nodes (computeCommonMarketSeries inputs.sessions inputs.instruments
    inputs.closes inputs.universeMembers inputs.industries)

/-- No field, no window, only common values. -/
def AccountInputs.row (inputs : AccountInputs F) (common : List (CommonKey × List F)) :
    RowInputs F :=
  { length := inputs.sessions.length
    values := fun _ => []
    windows := []
    common := common
    rollingSum := inputs.rollingSum }

def evaluateCommonExecutionSeries (plan : SeriesExecutionPlan F) (inputs : AccountInputs F) :
    Except CommonEvaluationError (Series (Item F)) := do
  require (∀ node ∈ plan.nodes, node.op.isStock = false) .stockSeries
  let common ← (inputs.commonValues plan.nodes).mapError .evaluation
  (evaluateSeriesExecutionPlan { plan with fieldNames := [] } (inputs.row common)).mapError
    .evaluation

/-- The account inputs of a panel. -/
def Panel.accountInputs (panel : Panel F) : AccountInputs F :=
  { sessions := panel.sessions
    instruments := panel.instruments
    closes := panel.grid (panel.row fun session instrument =>
      (panel.fields closeFieldId session instrument).getD nan)
    universeMembers := panel.historicalUniverseMembers
    industries := panel.industries
    rollingSum := panel.rollingSum }

/-! ### Stock series -/

namespace ValueType

def isStock (type : ValueType) : Bool :=
  type ∈ [numericSeries, booleanSeries]

end ValueType

lemma resultScope_isStock (types : List ValueType) (boolean : Bool) :
    (resultScope types boolean).isStock = types.any ValueType.isStock := by
  unfold resultScope
  split
  · next hstock =>
    have hany : types.any ValueType.isStock = true := hstock
    rw [hany]
    cases boolean <;> rfl
  · next hstock =>
    have hany : types.any ValueType.isStock = false := Bool.not_eq_true _ ▸ hstock
    rw [hany]
    split <;> cases boolean <;> rfl

/-- An expression that is no stock series reads none. -/
lemma Expr.Typed.account_arguments {expression : Expr F} {type : ValueType}
    (h : expression.Typed type) (haccount : type.isStock = false) :
    expression.op.isStock = false
      ∧ ∀ argument ∈ expression.arguments, ∃ type, argument.Typed type ∧ type.isStock = false := by
  cases h with
  | number _ => exact ⟨rfl, fun _ hargument => nomatch hargument⟩
  | field _ => cases haccount
  | common _ _ => exact ⟨rfl, fun _ hargument => nomatch hargument⟩
  | rank _ => cases haccount
  | unary typed result =>
    rw [unaryResultType_eq result] at haccount
    exact ⟨rfl, by simpa [Expr.arguments] using ⟨_, typed, haccount⟩⟩
  | binary left right result =>
    obtain ⟨boolean, rfl⟩ := binaryResultType_scope result
    rw [resultScope_isStock] at haccount
    simp only [List.any_cons, List.any_nil, Bool.or_false, Bool.or_eq_false_iff] at haccount
    refine ⟨rfl, ?_⟩
    simpa [Expr.arguments] using ⟨⟨_, left, haccount.1⟩, ⟨_, right, haccount.2⟩⟩
  | ifElse condition whenTrue whenFalse result =>
    obtain ⟨boolean, rfl⟩ := conditionalResultType_scope result
    rw [resultScope_isStock] at haccount
    simp only [List.any_cons, List.any_nil, Bool.or_false, Bool.or_eq_false_iff] at haccount
    refine ⟨rfl, ?_⟩
    simpa [Expr.arguments] using ⟨⟨_, condition, haccount.1⟩, ⟨_, whenTrue, haccount.2.1⟩,
      ⟨_, whenFalse, haccount.2.2⟩⟩
  | pointwise _ typed _ =>
    exact ⟨rfl, by simpa [Expr.arguments] using ⟨_, typed, haccount⟩⟩
  | @temporal _ _ _ window typed _ _ hbounded =>
    have hwindow := (Expr.Typed.temporal .lag typed (by assumption) (by assumption)
      hbounded).arguments (.number (.int window)) (by simp [Expr.arguments])
    obtain ⟨windowType, hwindow⟩ := hwindow
    have hnumber : windowType.isStock = false := by
      cases hwindow
      rfl
    refine ⟨rfl, ?_⟩
    simpa [Expr.arguments] using ⟨⟨_, typed, haccount⟩, ⟨_, hwindow, hnumber⟩⟩

/-- The plan of an expression that is no stock series reads no field and no rank. -/
lemma Expr.Typed.account_ops {expression : Expr F} {type : ValueType} (h : expression.Typed type)
    (haccount : type.isStock = false) : ∀ op ∈ expression.ops, op.isStock = false := by
  let Account (expression : Expr F) : Prop := ∃ type, expression.Typed type ∧ type.isStock = false
  have hsub : ∀ sub ∈ expression.subexpressions, Account sub := by
    refine subexpressions_induct ?_ ⟨type, h, haccount⟩
    rintro other ⟨_, htyped, hother⟩
    exact (htyped.account_arguments hother).2
  intro op hop
  rw [← subexpressions_op] at hop
  obtain ⟨sub, hmem, rfl⟩ := List.mem_map.mp hop
  obtain ⟨_, htyped, hother⟩ := hsub sub hmem
  exact (htyped.account_arguments hother).1

/-- A validated exposure reads no stock series. -/
theorem validateNormalizedExposure_sound {expression : FormulaNode F} {parsed : ParsedAlpha F}
    (h : validateNormalizedExposure expression = .ok parsed) :
    ∃ type, parsed.expression.Typed type
      ∧ ∀ op ∈ parsed.expression.ops, op.isStock = false := by
  obtain ⟨⟨type, htype, htyped⟩, _⟩ := validateNormalizedExpression_sound h
  have haccount : type.isStock = false := by
    simp only [List.mem_cons, List.not_mem_nil, or_false] at htype
    rcases htype with rfl | rfl <;> rfl
  exact ⟨type, htyped, htyped.account_ops haccount⟩

/-! ### Evaluation -/

variable (panel : Panel F) {parsed : ParsedAlpha F} {common : List (CommonKey × List F)}

/-- The common values of an account are the series of its market. -/
lemma accountInputs_commonValues
    (hmarket : parsed.expression.usesCommon = true → panel.MarketCovered) :
    ∃ common, panel.accountInputs.commonValues (buildSeriesExecutionPlan parsed).nodes = .ok common
      ∧ ∀ identifier industryCode, .common identifier industryCode ∈ parsed.expression.ops →
        common.lookup (identifier, industryCode)
          = some (panel.market (identifier, industryCode)) := by
  have haligned : AlignedRows (panel.row fun session instrument =>
      (panel.fields closeFieldId session instrument).getD nan) panel.sessions.length :=
    fun _ => List.length_map ..
  obtain ⟨common, hcommon, hlookup⟩ :=
    commonValues_ok panel (covered_of_usesCommon panel hmarket) haligned fun _ => rfl
  exact ⟨common, hcommon, fun identifier industryCode hop =>
    hlookup identifier industryCode ((plan_ops parsed).symm ▸ hop)⟩

omit [Numeric F] in
lemma nodes_account (haccount : ∀ op ∈ parsed.expression.ops, op.isStock = false) :
    ∀ node ∈ (buildSeriesExecutionPlan parsed).nodes, node.op.isStock = false := by
  intro node hnode
  apply haccount
  rw [← plan_ops]
  exact List.mem_map_of_mem hnode

omit [Numeric F] in
lemma isRank_of_account {op : PlanOp F} (h : op.isStock = false) : op.isRank = false := by
  cases op with
  | builtin builtin => cases builtin <;> first | rfl | cases h
  | _ => rfl

lemma accountInputs_serves (haccount : ∀ op ∈ parsed.expression.ops, op.isStock = false)
    (hlookup : ∀ identifier industryCode, .common identifier industryCode ∈ parsed.expression.ops →
      common.lookup (identifier, industryCode) = some (panel.market (identifier, industryCode))) :
    (panel.accountInputs.row common).Serves parsed.expression :=
  { values := fun fieldId hop => absurd (haccount _ hop) (by simp [PlanOp.isStock])
    common := fun identifier industryCode hop =>
      ⟨_, hlookup identifier industryCode hop, market_length panel (identifier, industryCode)⟩
    windows := fun _ hwindow => nomatch hwindow }

/-- An account evaluation returns a series over the sessions, or an integer is too large. -/
theorem evaluateCommonExecutionSeries_aligned {type : ValueType}
    (typed : parsed.expression.Typed type)
    (haccount : ∀ op ∈ parsed.expression.ops, op.isStock = false)
    (hmarket : parsed.expression.usesCommon = true → panel.MarketCovered) :
    Yields (· = .evaluation .overflow) (fun items => items.length = panel.sessions.length)
      (evaluateCommonExecutionSeries (buildSeriesExecutionPlan parsed) panel.accountInputs) := by
  obtain ⟨common, hcommon, hlookup⟩ := accountInputs_commonValues panel hmarket
  have hserves := accountInputs_serves panel haccount hlookup
  have hvalidate : (panel.accountInputs.row common).validate [] = .ok () := by
    refine bind_ok_iff.mpr ⟨(), require_ok_iff.mpr ?_, require_ok_iff.mpr hserves.windows⟩
    exact fun _ hfield => nomatch hfield
  refine .bind_value (b := ()) (require_ok_iff.mpr (nodes_account haccount)) ?_
  refine .bind_value (mapError_ok_iff.mpr hcommon) ?_
  refine (evaluateSeriesExecutionPlan_aligned typed hserves
    (fun op hop => isRank_of_account (haccount op hop)) hvalidate).mapError ?_
  rintro _ rfl
  rfl

/-- Outside fields the row evaluator does not read the values of a stock. -/
lemma applyRow_values {inputs : RowInputs F} {op : PlanOp F} (h : op.isStock = false)
    (values : String → Series F) (arguments : List (RowCell F)) :
    applyRow { inputs with values := values } op arguments = applyRow inputs op arguments := by
  have hvalue : rowValue { inputs with values := values } op arguments
      = rowValue inputs op arguments := by
    cases op with
    | field _ => cases h
    | number _ => rfl
    | common _ _ => rfl
    | builtin _ => rfl
    | unary operator => rcases arguments with _ | ⟨_, _ | _⟩ <;> rfl
    | binary operator => rcases arguments with _ | ⟨_, _ | ⟨_, _ | _⟩⟩ <;> rfl
  unfold applyRow
  rw [hvalue]

/-- An account evaluation succeeds where binary64 represents the integers that an `if_else` hands
on. -/
theorem evaluateCommonExecutionSeries_ok {type : ValueType}
    (typed : parsed.expression.Typed type) (hexact : parsed.expression.IntegersExact)
    (haccount : ∀ op ∈ parsed.expression.ops, op.isStock = false)
    (hmarket : parsed.expression.usesCommon = true → panel.MarketCovered) :
    ∃ items, evaluateCommonExecutionSeries (buildSeriesExecutionPlan parsed) panel.accountInputs
      = .ok items := by
  obtain ⟨common, hcommon, hlookup⟩ := accountInputs_commonValues panel hmarket
  let unwindowed : Panel F := { panel with windows := [] }
  have hserved : parsed.expression.Served unwindowed common := ⟨⟨type, typed⟩, hexact, hlookup⟩
  obtain ⟨items, hitems, _⟩ := evaluateSeriesExecutionPlan_stands unwindowed hserved
    (fun op hop => isRank_of_account (haccount op hop)) ""
  have hrun : run (fun op arguments => do
        applyRow (panel.accountInputs.row common) op (← keptValues arguments))
        (buildSeriesExecutionPlan parsed).nodes
      = run (fun op arguments => do
        applyRow (unwindowed.matrixInputs.row common "") op (← keptValues arguments))
        (buildSeriesExecutionPlan parsed).nodes := by
    apply run_congr
    intro node hnode arguments
    congr 1
    funext values
    exact (applyRow_values (nodes_account haccount node hnode)
      ((unwindowed.matrixInputs.row common "").values) values).symm
  have hvalidate : (panel.accountInputs.row common).validate [] = .ok () := by
    refine bind_ok_iff.mpr ⟨(), require_ok_iff.mpr ?_, require_ok_iff.mpr ?_⟩
    · exact fun _ hfield => nomatch hfield
    · exact fun _ hwindow => nomatch hwindow
  unfold evaluateSeriesExecutionPlan at hitems
  obtain ⟨_, _, hitems⟩ := bind_ok_iff.mp hitems
  refine ⟨items, bind_ok_iff.mpr ⟨(), require_ok_iff.mpr (nodes_account haccount), ?_⟩⟩
  refine bind_ok_iff.mpr ⟨common, mapError_ok_iff.mpr hcommon, mapError_ok_iff.mpr ?_⟩
  refine bind_ok_iff.mpr ⟨(), hvalidate, ?_⟩
  rw [← hrun] at hitems
  exact hitems

end ThesisTrace.Alpha
